import Mathlib.Data.List.Basic
import Mathlib.Data.Option.NAry

/-!
# UTF-8

`str.encode("utf-8")` and the strict `bytes.decode("utf-8")`, on lists.  The
decoder refuses what is not the encoding of a text: a stray or missing
continuation byte, an overlong form, a surrogate, a value past U+10FFFF.

* `decode_encode` — decoding undoes encoding.
-/

namespace Utf8

/-- `str.encode("utf-8")`. -/
def encode (text : List Char) : List UInt8 := text.flatMap String.utf8EncodeChar

/-- The character `n`, unless a shorter form encodes it or it is none. -/
def scalar? (least n : Nat) : Option Char :=
  if h : least ≤ n ∧ n.isValidChar then some (Char.ofNatAux n h.2) else none

/-- The byte is `10xxxxxx`. -/
def isContinuation (b : UInt8) : Bool := b.toNat / 64 = 2

/-- `bytes.decode("utf-8")`, `none` for the `UnicodeDecodeError`. -/
def decode : List UInt8 → Option (List Char)
  | [] => some []
  | a :: rest₁ =>
      if a.toNat < 0x80 then
        Option.map₂ List.cons (scalar? 0 a.toNat) (decode rest₁)
      else match rest₁ with
        | [] => none
        | b :: rest₂ =>
            if isContinuation b = false ∨ a.toNat < 0xC0 then none
            else if a.toNat < 0xE0 then
              Option.map₂ List.cons (scalar? 0x80 (a.toNat % 32 * 64 + b.toNat % 64))
                (decode rest₂)
            else match rest₂ with
              | [] => none
              | c :: rest₃ =>
                  if isContinuation c = false then none
                  else if a.toNat < 0xF0 then
                    Option.map₂ List.cons
                      (scalar? 0x800 ((a.toNat % 16 * 64 + b.toNat % 64) * 64 + c.toNat % 64))
                      (decode rest₃)
                  else match rest₃ with
                    | [] => none
                    | d :: rest₄ =>
                        if isContinuation d = false ∨ 0xF8 ≤ a.toNat then none
                        else
                          Option.map₂ List.cons
                            (scalar? 0x10000
                              (((a.toNat % 8 * 64 + b.toNat % 64) * 64 + c.toNat % 64) * 64 +
                                d.toNat % 64))
                            (decode rest₄)

theorem scalar?_toNat {least : Nat} {ch : Char} (h : least ≤ ch.toNat) :
    scalar? least ch.toNat = some ch := by
  have hvalid : ch.toNat.isValidChar := ch.valid
  rw [scalar?, dif_pos ⟨h, hvalid⟩]
  exact congrArg some (Char.ext rfl)

/-- A character is read back from the head of the bytes. -/
theorem decode_encodeChar_append (ch : Char) (rest : List UInt8) :
    decode (String.utf8EncodeChar ch ++ rest) = (decode rest).map (ch :: ·) := by
  have hmax : ch.toNat < 0x110000 := by
    have h := ch.valid
    simp only [UInt32.isValidChar, Nat.isValidChar] at h
    exact h.elim (fun h => by change ch.val.toNat < _; omega) And.right
  have hval : ch.val.toNat = ch.toNat := rfl
  have hread : ∀ least, least ≤ ch.toNat → ∀ n, n = ch.toNat →
      Option.map₂ List.cons (scalar? least n) (decode rest) = (decode rest).map (ch :: ·) := by
    intro least hleast n hn
    rw [hn, scalar?_toNat hleast]
    cases decode rest <;> rfl
  unfold String.utf8EncodeChar
  simp only [hval]
  -- one case for each length of the encoding
  split
  · simp only [List.cons_append, List.nil_append]
    rw [decode.eq_def]
    simp only [UInt8.toNat_ofNat']
    rw [if_pos (by omega), hread 0 (by omega) _ (by omega)]
  · split
    · simp only [List.cons_append, List.nil_append]
      rw [decode.eq_def]
      simp only [UInt8.toNat_ofNat', isContinuation]
      rw [if_neg (by omega), if_neg (by simp; omega), if_pos (by omega),
        hread 0x80 (by omega) _ (by omega)]
    · split
      · simp only [List.cons_append, List.nil_append]
        rw [decode.eq_def]
        simp only [UInt8.toNat_ofNat', isContinuation]
        rw [if_neg (by omega), if_neg (by simp; omega), if_neg (by omega),
          if_neg (by simp; omega), if_pos (by omega), hread 0x800 (by omega) _ (by omega)]
      · simp only [List.cons_append, List.nil_append]
        rw [decode.eq_def]
        simp only [UInt8.toNat_ofNat', isContinuation]
        rw [if_neg (by omega), if_neg (by simp; omega), if_neg (by omega),
          if_neg (by simp; omega), if_neg (by omega), if_neg (by simp; omega),
          hread 0x10000 (by omega) _ (by omega)]

/-- **Decoding undoes encoding.** -/
theorem decode_encode (text : List Char) : decode (encode text) = some text := by
  induction text with
  | nil => rfl
  | cons ch text ih =>
      rw [encode, List.flatMap_cons, decode_encodeChar_append]
      exact congrArg (Option.map (ch :: ·)) ih

end Utf8
