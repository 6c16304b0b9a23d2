import ChallengeForge.DomainModel
import ChallengeForge.PythonText
import Mathlib.Algebra.Order.Field.Rat
import Mathlib.Data.Rat.Floor

/-!
# Python's numbers

`float(value)` of a JSON value, `timedelta(seconds=…)` of a float, and the sum of
a `datetime` and a `timedelta`, with the exceptions each of them raises.

A finite double is the rational it denotes.  A `datetime` counts microseconds from
the start of 1970.
-/

namespace ChallengeForge

/-- The exceptions of `float`, `timedelta` and the sum of dates. -/
inductive CoercionError
  | typeError
  | valueError
  | overflowError
  deriving DecidableEq, Repr

/-- A double, but for the sign of an infinity. -/
inductive PyFloat
  | finite (x : Rat)
  | inf
  | nan
  deriving DecidableEq, Repr

/-! ## Rounding -/

/-- `round(x)`, ties to even. -/
def roundHalfEven (x : Rat) : Int :=
  let d := x - x.floor
  if d < 1 / 2 then x.floor
  else if 1 / 2 < d then x.floor + 1
  else if x.floor % 2 = 0 then x.floor
  else x.floor + 1

/-- The exponent of the largest power of two that is not above `|q|`. -/
def binaryExponent (q : Rat) : Int :=
  let guess := (Nat.log2 q.num.natAbs : Int) - Nat.log2 q.den
  if (2 : Rat) ^ guess ≤ |q| then guess else guess - 1

/-- The nearest double: 53 bits, and no bit below `2 ^ (-1074)`. -/
def toDouble (q : Rat) : PyFloat :=
  let unit : Rat := (2 : Rat) ^ max (binaryExponent q - 52) (-1074)
  let rounded := roundHalfEven (q / unit) * unit
  if 2 ^ 1024 ≤ |rounded| then .inf else .finite rounded

/-! ## Floats of texts -/

/-- The characters `float(text)` strips: the ASCII ones that C's `isspace` accepts, and
every other character that `str.isspace` accepts.  The separators U+001C to U+001F are
ASCII and no space to C. -/
def isFloatSpace (c : Char) : Bool :=
  isSpace c && !(decide (28 ≤ c.toNat) && decide (c.toNat ≤ 31))

/-- A decimal digit of any script as an ASCII one. -/
def asciiDigit (c : Char) : Char :=
  match decimalZeros.find? (fun first => first ≤ c.toNat && c.toNat < first + 10) with
  | some first => Nat.digitChar (c.toNat - first)
  | none => c

/-- Underscores are allowed between digits; `previous` is the character before. -/
def dropUnderscores (previous : Char) : List Char → Option (List Char)
  | [] => if previous = '_' then none else some []
  | c :: rest =>
      if c = '_' then
        if previous.isDigit then dropUnderscores c rest else none
      else if previous = '_' ∧ ¬ c.isDigit then none
      else (dropUnderscores c rest).map (c :: ·)

/-- The number a run of ASCII digits denotes. -/
def digitsValue (digits : List Char) : Nat :=
  digits.foldl (fun n c => 10 * n + (c.toNat - '0'.toNat)) 0

/-- A sign, and what follows it. -/
def takeSign : List Char → Int × List Char
  | '-' :: rest => (-1, rest)
  | '+' :: rest => (1, rest)
  | text => (1, text)

/-- The exponent that ends a number. -/
def exponentValue : List Char → Option Int
  | [] => some 0
  | c :: rest =>
      let (sign, digits) := takeSign rest
      if c.toLower = 'e' ∧ digits ≠ [] ∧ digits.all Char.isDigit then
        some (sign * digitsValue digits)
      else none

/-- A number without a sign. -/
def decimalNumber (text : List Char) : Option Rat :=
  let whole := text.takeWhile Char.isDigit
  let rest := text.dropWhile Char.isDigit
  let (fraction, rest) :=
    match rest with
    | '.' :: rest => (rest.takeWhile Char.isDigit, rest.dropWhile Char.isDigit)
    | rest => ([], rest)
  if whole ++ fraction = [] then none
  else (exponentValue rest).map fun exponent : Int =>
    digitsValue (whole ++ fraction) * (10 : Rat) ^ (exponent - fraction.length)

/-- A signed number, infinity or `nan`, as `float` reads it once the text is stripped. -/
def parseFloat (text : List Char) : Option PyFloat :=
  let (sign, body) := takeSign text
  let word := String.ofList (body.map Char.toLower)
  if word = "inf" ∨ word = "infinity" then some .inf
  else if word = "nan" then some .nan
  else (decimalNumber body).map (fun q => toDouble (sign * q))

/-- `float(text)`. -/
def floatOfText (text : String) : Except CoercionError PyFloat :=
  let stripped := rstripWhile isFloatSpace (text.toList.dropWhile isFloatSpace)
  match (dropUnderscores '\x00' (stripped.map asciiDigit)).bind parseFloat with
  | some x => .ok x
  | none => .error .valueError

/-- `float(n)` of an integer. -/
def floatOfInt (n : Int) : Except CoercionError PyFloat :=
  match toDouble n with
  | .finite x => .ok (.finite x)
  | _ => .error .overflowError

/-- `float(value)`. -/
def floatOf : Json → Except CoercionError PyFloat
  | .bool b => .ok (.finite (if b then 1 else 0))
  | .int n => floatOfInt n
  | .float x => .ok (.finite x)
  | .str text => floatOfText text
  | .null | .arr _ | .obj _ => .error .typeError

/-! ## Spans and dates -/

/-- The microseconds of `timedelta(seconds=seconds)`: the whole seconds exactly,
the rest by a product of doubles. -/
def microseconds (seconds : Rat) : Int :=
  let whole := seconds.num.tdiv seconds.den
  let part :=
    match toDouble (1000000 * (seconds - whole)) with
    | .finite x => x
    | _ => 0
  roundHalfEven (1000000 * whole + part)

/-- The microseconds between `timedelta.min` and `timedelta.max`. -/
def InTimedelta (span : Int) : Prop :=
  -999999999 * 86400000000 ≤ span ∧ span < 1000000000 * 86400000000

instance (span : Int) : Decidable (InTimedelta span) := inferInstanceAs (Decidable (_ ∧ _))

/-- `timedelta(seconds=x)`. -/
def timedeltaOfSeconds : PyFloat → Except CoercionError Int
  | .finite seconds =>
      if InTimedelta (microseconds seconds) then .ok (microseconds seconds)
      else .error .overflowError
  | .inf => .error .overflowError
  | .nan => .error .valueError

/-- The instants from the year 1 to the year 9999. -/
def InDatetime (instant : Timestamp) : Prop :=
  -62135596800000000 ≤ instant ∧ instant < 253402300800000000

instance (instant : Timestamp) : Decidable (InDatetime instant) :=
  inferInstanceAs (Decidable (_ ∧ _))

/-- The sum of a `datetime` and a `timedelta`. -/
def addSpan (instant : Timestamp) (span : Int) : Except CoercionError Timestamp :=
  if InDatetime (instant + span) then .ok (instant + span) else .error .overflowError

/-- A span between two dates is a `timedelta`. -/
theorem inTimedelta_of_dates {instant : Timestamp} {span : Int} (h : InDatetime instant)
    (hsum : InDatetime (instant + span)) : InTimedelta span := by
  obtain ⟨hlow, hhigh⟩ := h
  obtain ⟨hlow', hhigh'⟩ := hsum
  constructor
  · linarith
  · linarith

example : toDouble (1 / 10) = .finite (3602879701896397 / 36028797018963968) := by
  decide +kernel

example : floatOfText " 1_0.5e-1\n" = .ok (.finite (4728779608739021 / 4503599627370496)) := by
  decide +kernel

/-- A separator is no space to `float`, though it is one to `str.strip`. -/
example : floatOfText "inf\u001f" = .error .valueError ∧ floatOfText "\u00a0inf\t" = .ok .inf := by
  decide +kernel

end ChallengeForge
