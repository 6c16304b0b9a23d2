import Mathlib.Data.List.Basic
import Mathlib.Data.List.TakeWhile

/-!
# Python's text primitives

The `str` methods the services and the ingestion pipeline use, on the list of a
string's code points, and the formats a `UUID` and a JSON string are written in.
-/

namespace ChallengeForge

/-- The code points `str.isspace` accepts. -/
def isSpace (c : Char) : Bool :=
  let n := c.toNat
  (9 ≤ n && n ≤ 13) || (28 ≤ n && n ≤ 32) || n = 0x85 || n = 0xA0 || n = 0x1680 ||
    (0x2000 ≤ n && n ≤ 0x200A) || n = 0x2028 || n = 0x2029 || n = 0x202F || n = 0x205F ||
    n = 0x3000

/-- Drop a suffix of characters passing `p`. -/
def rstripWhile (p : Char → Bool) (text : List Char) : List Char :=
  (text.reverse.dropWhile p).reverse

/-- `str.strip()`. -/
def strip (text : List Char) : List Char :=
  rstripWhile isSpace (text.dropWhile isSpace)

/-- `str.lstrip()`. -/
def lstrip (text : List Char) : List Char := text.dropWhile isSpace

/-- `str.rstrip()`. -/
def rstrip (text : List Char) : List Char := rstripWhile isSpace text

/-- The zeros of the decimal digits `\d` matches (Unicode 14); the other nine
follow each. -/
def decimalZeros : List Nat :=
  [0x30, 0x660, 0x6F0, 0x7C0, 0x966, 0x9E6, 0xA66, 0xAE6, 0xB66, 0xBE6, 0xC66, 0xCE6, 0xD66,
   0xDE6, 0xE50, 0xED0, 0xF20, 0x1040, 0x1090, 0x17E0, 0x1810, 0x1946, 0x19D0, 0x1A80, 0x1A90,
   0x1B50, 0x1BB0, 0x1C40, 0x1C50, 0xA620, 0xA8D0, 0xA900, 0xA9D0, 0xA9F0, 0xAA50, 0xABF0,
   0xFF10, 0x104A0, 0x10D30, 0x11066, 0x110F0, 0x11136, 0x111D0, 0x112F0, 0x11450, 0x114D0,
   0x11650, 0x116C0, 0x11730, 0x118E0, 0x11950, 0x11C50, 0x11D50, 0x11DA0, 0x16A60, 0x16AC0,
   0x16B50, 0x1D7CE, 0x1D7D8, 0x1D7E2, 0x1D7EC, 0x1D7F6, 0x1E140, 0x1E2F0, 0x1E950, 0x1FBF0]

/-- A character `\d` matches. -/
def isDecimal (c : Char) : Bool :=
  decimalZeros.any (fun first => first ≤ c.toNat && c.toNat < first + 10)

/-- `str.startswith(start)`. -/
def startsWith (text : List Char) (start : String) : Bool := start.toList.isPrefixOf text

/-- `str.endswith(stop)`. -/
def endsWith (text : List Char) (stop : String) : Bool := stop.toList.isSuffixOf text

/-- `text[start:stop]`, for indices that are not negative. -/
def slice (text : List Char) (start stop : Nat) : List Char :=
  (text.drop start).take (stop - start)

/-- `text.rfind(c)`. -/
def rfind (text : List Char) (c : Char) : Int :=
  match text.reverse.findIdx? (fun d => d = c) with
  | none => -1
  | some i => (text.length : Int) - 1 - i

/-- `text.replace("\r\n", "\n")`. -/
def replaceCrLf : List Char → List Char
  | [] => []
  | '\r' :: '\n' :: rest => '\n' :: replaceCrLf rest
  | c :: rest => c :: replaceCrLf rest

/-- `text.replace("\r", "\n")`. -/
def replaceCr (text : List Char) : List Char :=
  text.map (fun c => if c = '\r' then '\n' else c)

/-- `text.split("\n")`. -/
def splitLines (text : List Char) : List (List Char) := text.splitOn '\n'

/-- `"\n".join(lines)`. -/
def joinLines (lines : List (List Char)) : List Char := ['\n'].intercalate lines

/-- `n` in `k` hexadecimal digits. -/
def hexDigits : Nat → Nat → List Char
  | 0, _ => []
  | k + 1, n => hexDigits k (n / 16) ++ [Nat.digitChar (n % 16)]

/-- `str(id)` of a `UUID`. -/
def uuidText (id : Nat) : String :=
  let digits := hexDigits 32 id
  String.ofList (['-'].intercalate [slice digits 0 8, slice digits 8 12, slice digits 12 16,
    slice digits 16 20, slice digits 20 32])

/-- The escapes of `json.dumps`, which writes ASCII only. -/
def jsonEscape (c : Char) : List Char :=
  let n := c.toNat
  if c = '"' then ['\\', '"']
  else if c = '\\' then ['\\', '\\']
  else if c = '\n' then ['\\', 'n']
  else if c = '\r' then ['\\', 'r']
  else if c = '\t' then ['\\', 't']
  else if n = 0x08 then ['\\', 'b']
  else if n = 0x0C then ['\\', 'f']
  else if 0x20 ≤ n ∧ n ≤ 0x7E then [c]
  else if n < 0x10000 then ['\\', 'u'] ++ hexDigits 4 n
  else ['\\', 'u'] ++ hexDigits 4 (0xD800 + (n - 0x10000) / 0x400) ++
    ['\\', 'u'] ++ hexDigits 4 (0xDC00 + (n - 0x10000) % 0x400)

/-- `json.dumps` of a string. -/
def jsonString (text : String) : List Char :=
  ['"'] ++ text.toList.flatMap jsonEscape ++ ['"']

/-! ## Slices and blank texts -/

theorem mem_rstripWhile {p : Char → Bool} {text : List Char} {c : Char}
    (h : c ∈ rstripWhile p text) : c ∈ text :=
  List.mem_reverse.mp ((List.dropWhile_sublist _).subset (List.mem_reverse.mp h))

/-- A text is stripped to nothing if it holds nothing but whitespace. -/
theorem strip_eq_nil_iff {text : List Char} : strip text = [] ↔ ∀ c ∈ text, isSpace c = true := by
  simp only [strip, rstripWhile, List.reverse_eq_nil_iff, List.dropWhile_eq_nil_iff,
    List.mem_reverse]
  constructor
  · intro h c hc
    have hsplit : text.takeWhile isSpace ++ text.dropWhile isSpace = text :=
      List.takeWhile_append_dropWhile
    rw [← hsplit] at hc
    rcases List.mem_append.mp hc with hfirst | hrest
    · exact List.mem_takeWhile_imp hfirst
    · exact h c hrest
  · exact fun h c hc => h c ((List.dropWhile_sublist _).subset hc)

theorem getElem?_slice (text : List Char) (start stop k : Nat) :
    (slice text start stop)[k]? = if k < stop - start then text[start + k]? else none := by
  simp only [slice, List.getElem?_take, List.getElem?_drop]

theorem length_slice (text : List Char) (start stop : Nat) :
    (slice text start stop).length = min (stop - start) (text.length - start) := by
  simp only [slice, List.length_take, List.length_drop]

theorem length_hexDigits (k n : Nat) : (hexDigits k n).length = k := by
  induction k generalizing n with
  | zero => rfl
  | succ k ih =>
      rw [hexDigits, List.length_append, ih]
      rfl

theorem length_uuidText (id : Nat) : (uuidText id).toList.length = 36 := by
  simp [uuidText, List.intercalate_cons_cons, length_slice, length_hexDigits]

/-- A slice of a slice. -/
theorem slice_slice {text : List Char} {start stop i j : Nat} (h : start + j ≤ stop) :
    slice (slice text start stop) i j = slice text (start + i) (start + j) := by
  apply List.ext_getElem?
  intro k
  simp only [getElem?_slice]
  by_cases hk : k < j - i
  · rw [if_pos hk, if_pos (by omega), if_pos (by omega), Nat.add_assoc]
  · rw [if_neg hk, if_neg (by omega)]

/-! ## Joined and split texts -/

/-- A character of joined parts is a separator or in one of the parts. -/
theorem mem_intercalate {sep c : Char} {parts : List (List Char)}
    (h : c ∈ [sep].intercalate parts) : c = sep ∨ ∃ part ∈ parts, c ∈ part := by
  induction parts with
  | nil => simp at h
  | cons part rest ih =>
      cases rest with
      | nil => exact Or.inr ⟨part, by simp, by simpa using h⟩
      | cons next rest =>
          rw [List.intercalate_cons_cons] at h
          simp only [List.mem_append, List.mem_singleton] at h
          rcases h with (h | h) | h
          · exact Or.inr ⟨part, by simp, h⟩
          · exact Or.inl h
          · rcases ih h with hsep | ⟨p, hp, hc⟩
            · exact Or.inl hsep
            · exact Or.inr ⟨p, List.mem_cons_of_mem _ hp, hc⟩

/-- The characters of the parts are in the joined text. -/
theorem mem_intercalate_of_mem {sep c : Char} {parts : List (List Char)} {part : List Char}
    (hpart : part ∈ parts) (hc : c ∈ part) : c ∈ [sep].intercalate parts := by
  induction parts with
  | nil => cases hpart
  | cons first rest ih =>
      cases rest with
      | nil =>
          obtain rfl : part = first := by simpa using hpart
          simpa using hc
      | cons next rest =>
          rw [List.intercalate_cons_cons]
          rcases List.mem_cons.mp hpart with rfl | hlater
          · simp [hc]
          · exact List.mem_append_right _ (ih hlater)

/-- No part of a split text holds the separator. -/
theorem not_mem_of_mem_splitOn {sep : Char} {text part : List Char}
    (h : part ∈ text.splitOn sep) : sep ∉ part := by
  induction text generalizing part with
  | nil =>
      obtain rfl : part = [] := by simpa using h
      simp
  | cons c text ih =>
      rw [List.splitOn_cons_eq_if_modifyHead] at h
      split at h
      · rcases List.mem_cons.mp h with rfl | hrest
        · simp
        · exact ih hrest
      · rename_i hc
        obtain ⟨first, rest, hsplit⟩ :=
          List.exists_cons_of_ne_nil (List.splitOn_ne_nil sep text)
        rw [hsplit, List.modifyHead_cons] at h
        rcases List.mem_cons.mp h with rfl | hrest
        · have hfirst : sep ∉ first := ih (by rw [hsplit]; simp)
          simp only [List.mem_cons, not_or]
          exact ⟨fun heq => hc (by simp [← heq]), hfirst⟩
        · exact ih (by rw [hsplit]; exact List.mem_cons_of_mem _ hrest)

end ChallengeForge
