import Mathlib.Data.List.Lex
import Mathlib.Data.List.Sort
import ChallengeForge.PrefixCodes
import ChallengeForge.PythonText

/-!
# The text `json.dumps` writes

`json.dumps(value, sort_keys=True, separators=(",", ":"), ensure_ascii=False)` of what
`json.loads` can return: strings hold any code points, lone surrogates included, and a
`float` may be `nan` or infinite.

* `told_write` — the text of a value tells it from every other value, whatever follows
  the two texts.
-/

namespace JsonText

open ChallengeForge (hexDigits)
open PrefixCodes

/-- A code point of a `str`, a lone surrogate included. -/
abbrev CodePoint := Fin 0x110000

/-- A `str`. -/
abbrev PyStr := List CodePoint

/-- The code point of a character, which is never a surrogate. -/
def point (c : Char) : CodePoint :=
  ⟨c.toNat, by
    have h : c.toNat < 0xD800 ∨ 0xDFFF < c.toNat ∧ c.toNat < 0x110000 := c.valid
    omega⟩

/-- Characters are told by their code points. -/
theorem point_injective : Function.Injective point := by
  intro c d h
  exact Char.toNat_inj.mp (Fin.mk.inj h)

/-- A `str` without surrogates. -/
def lit (text : String) : PyStr := text.toList.map point

/-- Texts without surrogates are told by their code points. -/
theorem lit_injective : Function.Injective lit := by
  intro a b h
  exact String.toList_injective (point_injective.list_map h)

/-! ## Numbers -/

/-- The characters of numbers, `NaN` and `Infinity`. -/
def isNumeral (c : CodePoint) : Bool := c ∈ lit "0123456789-+.eNaIfinty"

/-- The characters a number starts with. -/
def startsNumber (c : CodePoint) : Bool := c ∈ lit "0123456789-NI"

/-- The characters of an `int`. -/
def isIntegral (c : CodePoint) : Bool := c ∈ lit "0123456789-"

/-- A `float`, told by the text that is written for it: no two have one text. -/
structure FloatLiteral where
  text : PyStr
  numeral : text.all isNumeral = true
  starts : text.head?.any startsNumber = true
  fraction : text.any (fun c => !isIntegral c) = true
  deriving DecidableEq

/-- `math.isfinite(x)`. -/
def FloatLiteral.isFinite (x : FloatLiteral) : Bool :=
  x.text ∉ [lit "NaN", lit "Infinity", lit "-Infinity"]

/-- `str(n)`. -/
def decimal (n : Int) : PyStr := lit (toString n)

/-! ## Values -/

/-- What `json.loads` returns. -/
inductive Value
  | null
  | bool (b : Bool)
  | int (n : Int)
  | float (x : FloatLiteral)
  | str (s : PyStr)
  | arr (items : List Value)
  | obj (members : List (PyStr × Value))

/-- `ensure_ascii=False` escapes quotes, backslashes and control characters. -/
def escape (c : CodePoint) : PyStr :=
  if c = point '"' then lit "\\\""
  else if c = point '\\' then lit "\\\\"
  else if c = point '\n' then lit "\\n"
  else if c = point '\r' then lit "\\r"
  else if c = point '\t' then lit "\\t"
  else if c = 0x08 then lit "\\b"
  else if c = 0x0C then lit "\\f"
  else if c < 0x20 then lit "\\u" ++ (hexDigits 4 c).map point
  else [c]

/-- A string between quotes, its characters escaped. -/
def quoted (s : PyStr) : PyStr := point '"' :: (s.flatMap escape ++ [point '"'])

/-- `separator.join(texts)` between an opening and a closing character. -/
def enclosed (first : Char) (texts : List PyStr) (last : Char) : PyStr :=
  point first :: ([point ','].intercalate texts ++ [point last])

mutual

/-- The text of a value, its members in their own order. -/
def write : Value → PyStr
  | .null => lit "null"
  | .bool true => lit "true"
  | .bool false => lit "false"
  | .int n => decimal n
  | .float x => x.text
  | .str s => quoted s
  | .arr items => enclosed '[' (writeItems items) ']'
  | .obj members => enclosed '\x7b' (writeMembers members) '\x7d'

/-- The texts of the items of an array. -/
def writeItems : List Value → List PyStr
  | [] => []
  | v :: rest => write v :: writeItems rest

/-- The texts of the members of an object, each behind its key. -/
def writeMembers : List (PyStr × Value) → List PyStr
  | [] => []
  | (k, v) :: rest => (quoted k ++ point ':' :: write v) :: writeMembers rest

end

mutual

/-- `sort_keys=True`: the members of every object in the order of their keys. -/
def sorted : Value → Value
  | .arr items => .arr (sortedItems items)
  | .obj members => .obj ((sortedMembers members).insertionSort (fun a b => a.1 ≤ b.1))
  | v => v

/-- `sorted` of every item, in the order there is. -/
def sortedItems : List Value → List Value
  | [] => []
  | v :: rest => sorted v :: sortedItems rest

/-- `sorted` of every member, before the members are put in order. -/
def sortedMembers : List (PyStr × Value) → List (PyStr × Value)
  | [] => []
  | (k, v) :: rest => (k, sorted v) :: sortedMembers rest

end

mutual

/-- Every string and every key passes `onStr`, every float `onFloat`. -/
def Value.all (onStr : PyStr → Bool) (onFloat : FloatLiteral → Bool) : Value → Bool
  | .float x => onFloat x
  | .str s => onStr s
  | .arr items => allItems onStr onFloat items
  | .obj members => allMembers onStr onFloat members
  | _ => true

/-- `Value.all` of every item. -/
def allItems (onStr : PyStr → Bool) (onFloat : FloatLiteral → Bool) : List Value → Bool
  | [] => true
  | v :: rest => v.all onStr onFloat && allItems onStr onFloat rest

/-- `Value.all` of every member, and the test of its key. -/
def allMembers (onStr : PyStr → Bool) (onFloat : FloatLiteral → Bool) :
    List (PyStr × Value) → Bool
  | [] => true
  | (k, v) :: rest => onStr k && v.all onStr onFloat && allMembers onStr onFloat rest

end

/-- The text of a member. -/
def writeMember (m : PyStr × Value) : PyStr := quoted m.1 ++ point ':' :: write m.2

/-- The items are written one by one. -/
theorem writeItems_eq (items : List Value) : writeItems items = items.map write := by
  induction items with
  | nil => rfl
  | cons v rest ih => rw [writeItems, List.map_cons, ih]

/-- The members are written one by one. -/
theorem writeMembers_eq (members : List (PyStr × Value)) :
    writeMembers members = members.map writeMember := by
  induction members with
  | nil => rfl
  | cons m rest ih => rw [writeMembers, List.map_cons, ih]; rfl

/-- The items are sorted one by one. -/
theorem sortedItems_eq (items : List Value) : sortedItems items = items.map sorted := by
  induction items with
  | nil => rfl
  | cons v rest ih => rw [sortedItems, List.map_cons, ih]

/-- The members are sorted one by one, under their own keys. -/
theorem sortedMembers_eq (members : List (PyStr × Value)) :
    sortedMembers members = members.map (fun m => (m.1, sorted m.2)) := by
  induction members with
  | nil => rfl
  | cons m rest ih => rw [sortedMembers, List.map_cons, ih]

/-- All items pass when each does. -/
theorem allItems_eq (onStr : PyStr → Bool) (onFloat : FloatLiteral → Bool) (items : List Value) :
    allItems onStr onFloat items = items.all (fun v => v.all onStr onFloat) := by
  induction items with
  | nil => rfl
  | cons v rest ih => rw [allItems, List.all_cons, ih]

/-- All members pass when each does, with its key. -/
theorem allMembers_eq (onStr : PyStr → Bool) (onFloat : FloatLiteral → Bool)
    (members : List (PyStr × Value)) : allMembers onStr onFloat members =
      members.all (fun m => onStr m.1 && m.2.all onStr onFloat) := by
  induction members with
  | nil => rfl
  | cons m rest ih => rw [allMembers, List.all_cons, ih]

/-! ## Numbers are told apart -/

/-- A digit stands in integers. -/
theorem isIntegral_of_isDigit {c : Char} (h : c.isDigit = true) : isIntegral (point c) = true := by
  have hdigits : ∀ d : Fin 10, isIntegral ⟨48 + d, by omega⟩ = true := by decide
  simp only [Char.isDigit, Bool.and_eq_true, decide_eq_true_eq] at h
  have hlow : 48 ≤ c.toNat := h.1
  have hhigh : c.toNat ≤ 57 := h.2
  have hcode : point c = ⟨48 + (⟨c.toNat - 48, by omega⟩ : Fin 10), by omega⟩ := by
    apply Fin.ext
    change c.toNat = 48 + (c.toNat - 48)
    omega
  rw [hcode]
  exact hdigits _

/-- An `int` is written in digits, after a sign. -/
theorem decimal_eq (n : Int) : (∃ m : Nat, n = m ∧ decimal n = (Nat.toDigits 10 m).map point) ∨
    ∃ m : Nat, n = -m ∧ 0 < m ∧ decimal n = point '-' :: (Nat.toDigits 10 m).map point := by
  cases n with
  | ofNat m => exact Or.inl ⟨m, rfl, congrArg (List.map point) Nat.toList_repr⟩
  | negSucc m =>
      refine Or.inr ⟨m + 1, Int.negSucc_eq m, Nat.succ_pos m, ?_⟩
      change ("-" ++ (m + 1).repr).toList.map point = _
      rw [String.toList_append, Nat.toList_repr]
      rfl

/-- An integer is written with digits and a sign. -/
theorem isIntegral_decimal (n : Int) : ∀ c ∈ decimal n, isIntegral c = true := by
  have hdigits : ∀ m : Nat, ∀ c ∈ (Nat.toDigits 10 m).map point, isIntegral c = true := by
    intro m c hc
    obtain ⟨d, hd, rfl⟩ := List.mem_map.mp hc
    exact isIntegral_of_isDigit (Nat.isDigit_of_mem_toDigits (by decide) (by decide) hd)
  rcases decimal_eq n with ⟨m, -, hm⟩ | ⟨m, -, -, hm⟩
  · rw [hm]
    exact hdigits m
  · rw [hm]
    exact List.forall_mem_cons.mpr ⟨by decide, hdigits m⟩

/-- A natural number is read off its digits. -/
theorem toDigits_injective {m k : Nat} (h : Nat.toDigits 10 m = Nat.toDigits 10 k) : m = k := by
  rw [← Nat.ofDigitChars_ten_toDigits (n := m), h, Nat.ofDigitChars_ten_toDigits]

/-- Digits hold no minus sign. -/
theorem dash_not_mem_digits (m : Nat) : point '-' ∉ (Nat.toDigits 10 m).map point := by
  intro h
  obtain ⟨d, hd, hdash⟩ := List.mem_map.mp h
  obtain rfl := point_injective hdash
  exact absurd (Nat.isDigit_of_mem_toDigits (by decide) (by decide) hd) (by decide)

/-- An integer is read off its text. -/
theorem decimal_injective : Function.Injective decimal := by
  intro n k h
  rcases decimal_eq n with ⟨m, rfl, hm⟩ | ⟨m, rfl, -, hm⟩
  · rcases decimal_eq k with ⟨l, rfl, hl⟩ | ⟨l, rfl, -, hl⟩
    · rw [hm, hl] at h
      rw [toDigits_injective (point_injective.list_map h)]
    · rw [hm, hl] at h
      exact absurd (h ▸ List.mem_cons_self) (dash_not_mem_digits m)
  · rcases decimal_eq k with ⟨l, rfl, hl⟩ | ⟨l, rfl, -, hl⟩
    · rw [hm, hl] at h
      exact absurd (h ▸ List.mem_cons_self) (dash_not_mem_digits l)
    · rw [hm, hl] at h
      rw [toDigits_injective (point_injective.list_map (List.cons.inj h).2)]

/-! ## Strings are told apart -/

/-- The code points that are escaped. -/
def escaped : List CodePoint :=
  point '"' :: point '\\' :: (List.range 0x20).map (fun n => Fin.ofNat _ n)

/-- Any other character stands for itself. -/
theorem escape_of_not_mem {c : CodePoint} (h : c ∉ escaped) : escape c = [c] := by
  have hne : ∀ d ∈ escaped, c ≠ d := fun d hd heq => h (heq ▸ hd)
  have hcontrol : ¬c < 0x20 := by
    intro hlt
    refine hne c ?_ rfl
    refine List.mem_cons_of_mem _ (List.mem_cons_of_mem _ (List.mem_map.mpr ⟨c, ?_, ?_⟩))
    · exact List.mem_range.mpr hlt
    · exact Fin.ofNat_val_eq_self c
  unfold escape
  rw [if_neg (hne _ (by decide)), if_neg (hne _ (by decide)), if_neg (hne _ (by decide)),
    if_neg (hne _ (by decide)), if_neg (hne _ (by decide)), if_neg (hne _ (by decide)),
    if_neg (hne _ (by decide)), if_neg hcontrol]

/-- An escape starts with a backslash. -/
theorem head_of_mem_escaped {c : CodePoint} (h : c ∈ escaped) :
    (escape c).head? = some (point '\\') := by
  have hall : escaped.all (fun c => (escape c).head? = some (point '\\')) = true := by
    decide +kernel
  exact of_decide_eq_true (List.all_eq_true.mp hall c h)

/-- No escape starts another. -/
theorem prefixFree_escaped {c d : CodePoint} (hc : c ∈ escaped) (hd : d ∈ escaped)
    (h : escape c <+: escape d) : c = d := by
  have hall : escaped.all (fun c => escaped.all (fun d =>
      decide (escape c <+: escape d → c = d))) = true := by decide +kernel
  exact of_decide_eq_true (List.all_eq_true.mp (List.all_eq_true.mp hall c hc) d hd) h

/-- No escape begins another, so that a string is read character by character. -/
theorem prefixFree_escape : PrefixFree escape := by
  have hslash : point '\\' ∈ escaped := by decide
  have hhead : ∀ {c d : CodePoint}, escape c <+: escape d → c ∈ escaped → d ∉ escaped → False := by
    intro c d hstarts hc hd
    rw [escape_of_not_mem hd] at hstarts
    obtain ⟨rest, hrest⟩ := hstarts
    have hfirst := head_of_mem_escaped hc
    cases hescape : escape c with
    | nil => simp [hescape] at hfirst
    | cons e more =>
        rw [hescape, List.cons_append] at hrest
        rw [hescape, List.head?_cons, Option.some.injEq] at hfirst
        exact hd ((List.cons.inj hrest).1 ▸ hfirst ▸ hslash)
  intro c d hstarts
  by_cases hc : c ∈ escaped
  · by_cases hd : d ∈ escaped
    · exact prefixFree_escaped hc hd hstarts
    · exact absurd hd (fun hd => hhead hstarts hc hd)
  · rw [escape_of_not_mem hc] at hstarts
    obtain ⟨rest, hrest⟩ := hstarts
    by_cases hd : d ∈ escaped
    · have hfirst := head_of_mem_escaped hd
      rw [← hrest, List.singleton_append, List.head?_cons, Option.some.injEq] at hfirst
      exact absurd (hfirst ▸ hslash) hc
    · rw [escape_of_not_mem hd, List.singleton_append] at hrest
      exact (List.cons.inj hrest).1

/-- A string ends at the first quote that is not escaped. -/
theorem escape_ne_quote (c : CodePoint) (s t : PyStr) : escape c ++ s ≠ point '"' :: t := by
  intro h
  have hquote : point '"' ∈ escaped := by decide
  by_cases hc : c ∈ escaped
  · have hfirst := head_of_mem_escaped hc
    cases hescape : escape c with
    | nil => simp [hescape] at hfirst
    | cons e more =>
        rw [hescape, List.cons_append] at h
        rw [hescape, List.head?_cons, Option.some.injEq] at hfirst
        exact absurd (hfirst.symm.trans (List.cons.inj h).1) (by decide)
  · rw [escape_of_not_mem hc, List.singleton_append] at h
    exact hc ((List.cons.inj h).1 ▸ hquote)

/-- A quoted string is read off any text that begins with it, with what follows. -/
theorem quoted_append_inj {a b s t : PyStr} (h : quoted a ++ s = quoted b ++ t) :
    a = b ∧ s = t := by
  unfold quoted at h
  rw [List.cons_append, List.cons_append, List.append_assoc, List.append_assoc] at h
  exact flatMap_close_inj prefixFree_escape escape_ne_quote (List.cons.inj h).2

/-! ## Values are told apart -/

/-- The kind of value that a text starts. -/
inductive Kind
  | null | true | false | number | string | array | object | nothing
  deriving DecidableEq

/-- What kind of text a value is written as. -/
def Value.kind : Value → Kind
  | .null => .null
  | .bool Bool.true => .true
  | .bool Bool.false => .false
  | .int _ => .number
  | .float _ => .number
  | .str _ => .string
  | .arr _ => .array
  | .obj _ => .object

/-- The kind that a first character announces. -/
def kindAt (c : CodePoint) : Kind :=
  if c = point 'n' then .null
  else if c = point 't' then .true
  else if c = point 'f' then .false
  else if c = point '"' then .string
  else if c = point '[' then .array
  else if c = point '\x7b' then .object
  else if startsNumber c then .number
  else .nothing

/-- A sign, a digit, `N` or `I` announces a number. -/
theorem kindAt_of_startsNumber {c : CodePoint} (h : startsNumber c = true) :
    kindAt c = .number := by
  have hne : ∀ d : CodePoint, startsNumber d = Bool.false → c ≠ d := by
    rintro d hd rfl
    rw [h] at hd
    cases hd
  unfold kindAt
  rw [if_neg (hne _ (by decide)), if_neg (hne _ (by decide)), if_neg (hne _ (by decide)),
    if_neg (hne _ (by decide)), if_neg (hne _ (by decide)), if_neg (hne _ (by decide)), if_pos h]

/-- What stands in an integer can start a number and go on with it. -/
theorem startsNumber_of_isIntegral {c : CodePoint} (h : isIntegral c = true) :
    startsNumber c = true ∧ isNumeral c = true := by
  have hall : (lit "0123456789-").all (fun c => startsNumber c && isNumeral c) = true := by decide
  exact Bool.and_eq_true_iff.mp (List.all_eq_true.mp hall c (of_decide_eq_true h))

/-- An integer has a text. -/
theorem decimal_ne_nil (n : Int) : decimal n ≠ [] := by
  rcases decimal_eq n with ⟨m, -, hm⟩ | ⟨m, -, -, hm⟩
  · rw [hm]
    simp
  · rw [hm]
    exact List.cons_ne_nil _ _

/-- The first character of a text says what kind of value it is. -/
theorem kind_of_write (v : Value) : ∃ c rest, write v = c :: rest ∧ kindAt c = v.kind := by
  cases v with
  | null => exact ⟨point 'n', lit "ull", rfl, by decide⟩
  | bool b =>
      cases b with
      | false => exact ⟨point 'f', lit "alse", rfl, by decide⟩
      | true => exact ⟨point 't', lit "rue", rfl, by decide⟩
  | int n =>
      obtain ⟨c, rest, hdecimal⟩ := List.exists_cons_of_ne_nil (decimal_ne_nil n)
      have hmem : c ∈ decimal n := by
        rw [hdecimal]
        exact List.mem_cons_self
      exact ⟨c, rest, hdecimal,
        kindAt_of_startsNumber (startsNumber_of_isIntegral (isIntegral_decimal n c hmem)).1⟩
  | float x =>
      obtain ⟨c, hhead, hstarts⟩ := (Option.any_eq_true _ _).mp x.starts
      obtain ⟨rest, htext⟩ := List.head?_eq_some_iff.mp hhead
      exact ⟨c, rest, htext, kindAt_of_startsNumber hstarts⟩
  | str s => exact ⟨point '"', _, rfl, show kindAt (point '"') = .string by decide⟩
  | arr items => exact ⟨point '[', _, rfl, show kindAt (point '[') = .array by decide⟩
  | obj members => exact ⟨point '\x7b', _, rfl, show kindAt (point '\x7b') = .object by decide⟩

/-- Values whose texts begin alike are of one kind. -/
theorem kind_eq {a b : Value} {s t : PyStr} (h : write a ++ s = write b ++ t) :
    a.kind = b.kind := by
  obtain ⟨c, rest, ha, hkind⟩ := kind_of_write a
  obtain ⟨d, more, hb, hkind'⟩ := kind_of_write b
  rw [ha, hb, List.cons_append, List.cons_append] at h
  rw [← hkind, ← hkind', (List.cons.inj h).1]

/-- What may follow a value. -/
abbrev Stops (c : CodePoint) : Prop := ¬isNumeral c = true

/-- No integer is written as a float: every float has a character of its own. -/
theorem int_ne_float {n : Int} {x : FloatLiteral} : decimal n ≠ x.text := by
  intro h
  obtain ⟨c, hc, hnot⟩ := List.any_eq_true.mp x.fraction
  rw [← h] at hc
  rw [isIntegral_decimal n c hc] at hnot
  cases hnot

/-- A float is written in numerals only. -/
theorem numeral_float (x : FloatLiteral) : ∀ c ∈ x.text, isNumeral c = true :=
  List.all_eq_true.mp x.numeral

/-- So is an integer. -/
theorem numeral_decimal (n : Int) : ∀ c ∈ decimal n, isNumeral c = true :=
  fun c hc => (startsNumber_of_isIntegral (isIntegral_decimal n c hc)).2

/-- A value does not start as a list closes. -/
theorem write_ne_close {c : CodePoint} (hc : kindAt c = .nothing) (v : Value) (s t : PyStr) :
    write v ++ s ≠ c :: t := by
  intro h
  obtain ⟨d, rest, hwrite, hkind⟩ := kind_of_write v
  rw [hwrite, List.cons_append] at h
  rw [(List.cons.inj h).1, hc] at hkind
  cases v with
  | bool b => cases b <;> cases hkind
  | _ => cases hkind

/-- No member begins with the brace that ends an object. -/
theorem writeMember_ne_close (m : PyStr × Value) (s t : PyStr) :
    writeMember m ++ s ≠ point '\x7d' :: t := by
  intro h
  exact absurd (List.cons.inj h).1 (by decide)

/-- A member is told by its text when its value is. -/
theorem told_member {m : PyStr × Value} (h : Told Stops write m.2) : Told Stops writeMember m := by
  intro m' s t hs ht heq
  unfold writeMember at heq
  rw [List.append_assoc, List.append_assoc] at heq
  obtain ⟨hkey, hrest⟩ := quoted_append_inj heq
  obtain ⟨hvalue, hst⟩ := h m'.2 s t hs ht (List.cons.inj hrest).2
  exact ⟨Prod.ext hkey hvalue, hst⟩

/-- What follows an enclosed text follows its last bracket. -/
theorem enclosed_append (first last : Char) (texts : List PyStr) (s : PyStr) :
    enclosed first texts last ++ s =
      point first :: ([point ','].intercalate texts ++ point last :: s) := by
  simp [enclosed]

/-- A number ends at a comma. -/
theorem stops_comma : Stops (point ',') := by decide

/-- A number ends at a bracket. -/
theorem stops_bracket : Stops (point ']') := by decide

/-- A number ends at a brace. -/
theorem stops_brace : Stops (point '\x7d') := by decide

mutual

/-- **The text of a value tells it apart**, whatever follows. -/
theorem told_write : ∀ v : Value, Told Stops write v
  | .null => by
      intro b s t _ _ h
      have hkind := kind_eq h
      cases b with
      | null => exact ⟨rfl, List.append_cancel_left h⟩
      | bool b => cases b <;> cases hkind
      | _ => cases hkind
  | .bool true => by
      intro b s t _ _ h
      have hkind := kind_eq h
      cases b with
      | bool b =>
          cases b with
          | true => exact ⟨rfl, List.append_cancel_left h⟩
          | false => cases hkind
      | _ => cases hkind
  | .bool false => by
      intro b s t _ _ h
      have hkind := kind_eq h
      cases b with
      | bool b =>
          cases b with
          | true => cases hkind
          | false => exact ⟨rfl, List.append_cancel_left h⟩
      | _ => cases hkind
  | .int n => by
      intro b s t hs ht h
      have hkind := kind_eq h
      cases b with
      | int k =>
          obtain ⟨htext, hst⟩ := run_append_inj (numeral_decimal n) (numeral_decimal k) hs ht h
          exact ⟨congrArg Value.int (decimal_injective htext), hst⟩
      | float x =>
          exact absurd (run_append_inj (numeral_decimal n) (numeral_float x) hs ht h).1 int_ne_float
      | bool b => cases b <;> cases hkind
      | _ => cases hkind
  | .float x => by
      intro b s t hs ht h
      have hkind := kind_eq h
      cases b with
      | int k =>
          exact absurd (run_append_inj (numeral_float x) (numeral_decimal k) hs ht h).1.symm
            int_ne_float
      | float y =>
          obtain ⟨htext, hst⟩ := run_append_inj (numeral_float x) (numeral_float y) hs ht h
          refine ⟨congrArg Value.float ?_, hst⟩
          cases x
          cases y
          cases htext
          rfl
      | bool b => cases b <;> cases hkind
      | _ => cases hkind
  | .str text => by
      intro b s t _ _ h
      have hkind := kind_eq h
      cases b with
      | str text' =>
          obtain ⟨rfl, hst⟩ := quoted_append_inj h
          exact ⟨rfl, hst⟩
      | bool b => cases b <;> cases hkind
      | _ => cases hkind
  | .arr items => by
      intro b s t _ _ h
      have hkind := kind_eq h
      cases b with
      | arr items' =>
          rw [write, write, writeItems_eq, writeItems_eq, enclosed_append, enclosed_append] at h
          obtain ⟨rfl, hst⟩ := intercalate_close_inj stops_comma stops_bracket (by decide)
            (write_ne_close (by decide)) (told_items items) (List.cons.inj h).2
          exact ⟨rfl, hst⟩
      | bool b => cases b <;> cases hkind
      | _ => cases hkind
  | .obj members => by
      intro b s t _ _ h
      have hkind := kind_eq h
      cases b with
      | obj members' =>
          rw [write, write, writeMembers_eq, writeMembers_eq, enclosed_append,
            enclosed_append] at h
          obtain ⟨rfl, hst⟩ := intercalate_close_inj stops_comma stops_brace (by decide)
            writeMember_ne_close (fun m hm => told_member (told_members members m hm))
            (List.cons.inj h).2
          exact ⟨rfl, hst⟩
      | bool b => cases b <;> cases hkind
      | _ => cases hkind

/-- `told_write` for every item of an array. -/
theorem told_items : ∀ items : List Value, ∀ v ∈ items, Told Stops write v
  | [], _, hv => by cases hv
  | v :: rest, w, hw => by
      rcases List.mem_cons.mp hw with hfirst | hrest
      · exact hfirst ▸ told_write v
      · exact told_items rest w hrest

/-- `told_write` for every member of an object. -/
theorem told_members : ∀ members : List (PyStr × Value), ∀ m ∈ members, Told Stops write m.2
  | [], _, hm => by cases hm
  | (k, v) :: rest, m, hm => by
      rcases List.mem_cons.mp hm with hfirst | hrest
      · exact hfirst ▸ told_write v
      · exact told_members rest m hrest

end

/-- A value is read off its text. -/
theorem write_injective : Function.Injective write := by
  intro a b h
  exact (told_write a b [] [] (follows_nil _) (follows_nil _) (congrArg (· ++ []) h)).1

end JsonText
