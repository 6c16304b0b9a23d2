import Mathlib.Data.List.Infix

/-!
# LIKE patterns

SQL's `LIKE` over any alphabet: two wildcards, one for any sequence and one for
any single character, and an escape character that makes the next one literal.
A pattern that ends in an unpaired escape is an error.  `ilike` compares after
folding the case of text and pattern character by character.

The usual way to search for a word is to put wildcards around it (`padded`).

* `ilike_padded_iff` — this finds exactly the occurrences of a plain word;
* `exists_loose_match` — for every word that is not plain it also finds a text
  in which the word does not occur.
-/

namespace Like

universe u

/-- The special characters of a pattern. -/
structure Specials (α : Type u) where
  anySeq : α
  anyOne : α
  escape : α
  anySeq_ne_anyOne : anySeq ≠ anyOne
  anySeq_ne_escape : anySeq ≠ escape
  anyOne_ne_escape : anyOne ≠ escape

/-- What a character of a pattern stands for. -/
inductive Token (α : Type u)
  | anySeq
  | anyOne
  | lit (a : α)

/-- Whether a row of tokens matches the whole of a text. -/
def accepts {α : Type u} [DecidableEq α] : List (Token α) → List α → Bool
  | [], text => text.isEmpty
  | .anySeq :: rest, text => text.tails.any (accepts rest)
  | .anyOne :: rest, text =>
      match text with
      | [] => false
      | _ :: text => accepts rest text
  | .lit a :: rest, text =>
      match text with
      | [] => false
      | b :: text => decide (a = b) && accepts rest text

variable {α : Type u} [DecidableEq α]

namespace Specials

variable (S : Specials α)

/-- The character has a meaning in a pattern. -/
def IsSpecial (a : α) : Prop := a = S.anySeq ∨ a = S.anyOne ∨ a = S.escape

/-- The token of a character that is not an escape. -/
def token (a : α) : Token α :=
  if a = S.anySeq then .anySeq else if a = S.anyOne then .anyOne else .lit a

/-- A pattern, read from left to right; none when its last character escapes nothing. -/
def tokens : List α → Option (List (Token α))
  | [] => some []
  | [a] => if a = S.escape then none else some [S.token a]
  | a :: b :: rest =>
      if a = S.escape then (tokens rest).map (fun ts => .lit b :: ts)
      else (tokens (b :: rest)).map (fun ts => S.token a :: ts)

/-- `text LIKE pattern`. -/
def like (text pattern : List α) : Bool := (S.tokens pattern).any (fun ts => accepts ts text)

/-- `text ILIKE pattern`, with the case folded by `lower`. -/
def ilike (lower : α → α) (text pattern : List α) : Bool :=
  S.like (text.map lower) (pattern.map lower)

/-- A word between wildcards. -/
def padded (word : List α) : List α :=
  [S.anySeq, S.anySeq] ++ word ++ [S.anySeq, S.anySeq]

/-! ## Tokens -/

variable {S}

/-- A character that escapes nothing stands for its own token. -/
theorem tokens_cons {a : α} (h : a ≠ S.escape) (rest : List α) :
    S.tokens (a :: rest) = (S.tokens rest).map (fun ts => S.token a :: ts) := by
  cases rest with
  | nil => simp [tokens, h]
  | cons b rest => rw [tokens, if_neg h]

/-- An escaped character stands for itself. -/
theorem tokens_escape (b : α) (rest : List α) :
    S.tokens (S.escape :: b :: rest) = (S.tokens rest).map (fun ts => .lit b :: ts) := by
  rw [tokens, if_pos rfl]

/-- The wildcard of sequences. -/
theorem token_anySeq : S.token S.anySeq = .anySeq := if_pos rfl

/-- A plain character stands for itself. -/
theorem token_of_plain {a : α} (h : ¬ S.IsSpecial a) : S.token a = .lit a := by
  have hseq : a ≠ S.anySeq := fun heq => h (.inl heq)
  have hone : a ≠ S.anyOne := fun heq => h (.inr (.inl heq))
  rw [token, if_neg hseq, if_neg hone]

/-- A pattern that begins with the wildcard of sequences. -/
theorem tokens_anySeq_cons (rest : List α) :
    S.tokens (S.anySeq :: rest) = (S.tokens rest).map (fun ts => .anySeq :: ts) := by
  rw [tokens_cons S.anySeq_ne_escape, token_anySeq]

/-- A plain word stands for itself. -/
theorem tokens_plain_append {word : List α} (h : ∀ a ∈ word, ¬ S.IsSpecial a)
    (rest : List α) :
    S.tokens (word ++ rest) = (S.tokens rest).map (fun ts => word.map .lit ++ ts) := by
  induction word with
  | nil => simp
  | cons a word ih =>
      obtain ⟨ha, hword⟩ := List.forall_mem_cons.mp h
      rw [List.cons_append, tokens_cons (fun heq => ha (.inr (.inr heq))), ih hword,
        token_of_plain ha, Option.map_map]
      rfl

/-! ## Matching -/

/-- The wildcard of sequences takes any beginning of the text. -/
theorem accepts_anySeq_iff {ts : List (Token α)} {text : List α} :
    accepts (.anySeq :: ts) text = true ↔
      ∃ before after, text = before ++ after ∧ accepts ts after = true := by
  rw [accepts, List.any_eq_true]
  constructor
  · intro h
    obtain ⟨after, hafter, hts⟩ := h
    obtain ⟨before, hsplit⟩ := (List.mem_tails _ _).mp hafter
    exact ⟨before, after, hsplit.symm, hts⟩
  · intro h
    obtain ⟨before, after, hsplit, hts⟩ := h
    exact ⟨after, (List.mem_tails _ _).mpr ⟨before, hsplit.symm⟩, hts⟩

/-- Literal characters take themselves. -/
theorem accepts_lits_iff {word : List α} {ts : List (Token α)} {text : List α} :
    accepts (word.map .lit ++ ts) text = true ↔
      ∃ after, text = word ++ after ∧ accepts ts after = true := by
  induction word generalizing text with
  | nil => simp
  | cons a word ih =>
      cases text with
      | nil => simp [accepts]
      | cons b text =>
          rw [List.map_cons, List.cons_append, accepts, Bool.and_eq_true, decide_eq_true_eq, ih]
          simp only [List.cons_append, List.cons.injEq]
          constructor
          · intro h
            obtain ⟨rfl, after, hsplit, hts⟩ := h
            exact ⟨after, ⟨rfl, hsplit⟩, hts⟩
          · intro h
            obtain ⟨after, ⟨rfl, hsplit⟩, hts⟩ := h
            exact ⟨rfl, after, hsplit, hts⟩

/-- An initial wildcard may match nothing. -/
theorem accepts_anySeq_cons {ts : List (Token α)} {text : List α}
    (h : accepts ts text = true) : accepts (.anySeq :: ts) text = true :=
  accepts_anySeq_iff.mpr ⟨[], text, rfl, h⟩

/-- Two wildcards of sequences take any text. -/
theorem accepts_anySeqs (text : List α) : accepts [.anySeq, .anySeq] text = true := by
  have hend : accepts ([] : List (Token α)) [] = true := rfl
  exact accepts_anySeq_iff.mpr ⟨text, [], by simp, accepts_anySeq_cons hend⟩

/-- The padding alone. -/
theorem tokens_padding : S.tokens [S.anySeq, S.anySeq] = some [.anySeq, .anySeq] := by
  rw [tokens_anySeq_cons, tokens_anySeq_cons]
  rfl

/-- A plain word between wildcards matches exactly where it occurs. -/
theorem like_padded_iff {word text : List α} (h : ∀ a ∈ word, ¬ S.IsSpecial a) :
    S.like text (S.padded word) = true ↔ word <:+: text := by
  have htokens : S.tokens (S.padded word) =
      some (.anySeq :: .anySeq :: (word.map .lit ++ [.anySeq, .anySeq])) := by
    rw [padded, List.append_assoc, List.cons_append, List.cons_append, List.nil_append,
      tokens_anySeq_cons, tokens_anySeq_cons, tokens_plain_append h, tokens_padding]
    rfl
  rw [like, htokens, Option.any_some, accepts_anySeq_iff]
  constructor
  · intro hmatch
    obtain ⟨first, behind, rfl, hbehind⟩ := hmatch
    obtain ⟨second, rest, rfl, hrest⟩ := accepts_anySeq_iff.mp hbehind
    obtain ⟨after, rfl, -⟩ := accepts_lits_iff.mp hrest
    exact ⟨first ++ second, after, by simp⟩
  · intro hoccurs
    obtain ⟨before, after, rfl⟩ := hoccurs
    refine ⟨before, word ++ after, by simp, accepts_anySeq_cons ?_⟩
    exact accepts_lits_iff.mpr ⟨after, rfl, accepts_anySeqs after⟩

/-! ## Words that are not plain -/

variable (S)

/-- What a special character makes room for. -/
def loosenOne (fill a : α) : List α :=
  if a = S.anySeq then [] else if a = S.anyOne then [fill] else [a]

/-- A text that a word matches as a pattern, with `fill` for its single
wildcards; an unpaired escape takes the wildcard behind the word. -/
def loosen (fill : α) : List α → List α
  | [] => []
  | [a] => if a = S.escape then [S.anySeq] else S.loosenOne fill a
  | a :: b :: rest =>
      if a = S.escape then b :: loosen fill rest
      else S.loosenOne fill a ++ loosen fill (b :: rest)

variable {S}

/-- A word is loosened character by character. -/
theorem loosen_cons {fill a : α} (h : a ≠ S.escape) (rest : List α) :
    S.loosen fill (a :: rest) = S.loosenOne fill a ++ S.loosen fill rest := by
  cases rest with
  | nil => simp [loosen, h]
  | cons b rest => rw [loosen, if_neg h]

/-- An escaped character is left as it is, without its escape. -/
theorem loosen_escape (fill b : α) (rest : List α) :
    S.loosen fill (S.escape :: b :: rest) = b :: S.loosen fill rest := by
  rw [loosen, if_pos rfl]

/-- An escape at the end of the word escapes the wildcard of the padding. -/
theorem loosen_unpaired (fill : α) : S.loosen fill [S.escape] = [S.anySeq] := if_pos rfl

/-- What a character is loosened to matches its token. -/
theorem accepts_token_cons {fill a : α} {ts : List (Token α)} {text : List α}
    (h : accepts ts text = true) :
    accepts (S.token a :: ts) (S.loosenOne fill a ++ text) = true := by
  unfold token loosenOne
  split
  · exact accepts_anySeq_cons h
  · split
    · exact h
    · simpa [accepts] using h

/-- A word with wildcards behind it matches its loosened text. -/
theorem accepts_loosen (fill : α) (word : List α) :
    ∃ ts, S.tokens (word ++ [S.anySeq, S.anySeq]) = some ts ∧
      accepts ts (S.loosen fill word) = true := by
  induction word using Specials.loosen.induct S with
  | case1 => exact ⟨_, tokens_padding, accepts_anySeqs _⟩
  | case2 =>
      -- the unpaired escape makes the first wildcard a literal
      refine ⟨[.lit S.anySeq, .anySeq], ?_, ?_⟩
      · rw [List.singleton_append, tokens_escape, tokens_anySeq_cons]
        rfl
      · rw [loosen_unpaired]
        simp [accepts]
  | case3 a h =>
      refine ⟨S.token a :: [.anySeq, .anySeq], ?_, ?_⟩
      · rw [List.singleton_append, tokens_cons h, tokens_padding]
        rfl
      · have hmatch := @accepts_token_cons α _ S fill a _ _ (accepts_anySeqs [])
        rw [List.append_nil] at hmatch
        rw [loosen, if_neg h]
        exact hmatch
  | case4 b rest ih =>
      obtain ⟨ts, htokens, hmatch⟩ := ih
      refine ⟨.lit b :: ts, ?_, ?_⟩
      · rw [List.cons_append, List.cons_append, tokens_escape, htokens]
        rfl
      · rw [loosen_escape]
        simpa [accepts] using hmatch
  | case5 a b rest h ih =>
      obtain ⟨ts, htokens, hmatch⟩ := ih
      refine ⟨S.token a :: ts, ?_, ?_⟩
      · rw [List.cons_append, tokens_cons h, htokens]
        rfl
      · rw [loosen_cons h]
        exact accepts_token_cons hmatch

/-- A loosened word matches the word as a pattern. -/
theorem like_padded_loosen (fill : α) (word : List α) :
    S.like (S.loosen fill word) (S.padded word) = true := by
  obtain ⟨ts, htokens, hmatch⟩ := @accepts_loosen α _ S fill word
  have hpadded : S.tokens (S.padded word) = some (.anySeq :: .anySeq :: ts) := by
    rw [padded, List.append_assoc, List.cons_append, List.cons_append, List.nil_append,
      tokens_anySeq_cons, tokens_anySeq_cons, htokens]
    rfl
  rw [like, hpadded, Option.any_some]
  exact accepts_anySeq_cons (accepts_anySeq_cons hmatch)

/-- A character becomes one or none. -/
theorem length_loosenOne_le (fill a : α) : (S.loosenOne fill a).length ≤ 1 := by
  unfold loosenOne
  split
  · exact Nat.zero_le 1
  · split <;> exact Nat.le_refl 1

/-- Loosening makes no word longer. -/
theorem length_loosen_le (fill : α) (word : List α) :
    (S.loosen fill word).length ≤ word.length := by
  induction word using Specials.loosen.induct S with
  | case1 => exact Nat.le_refl 0
  | case2 => simp [loosen]
  | case3 a h =>
      rw [loosen, if_neg h]
      exact length_loosenOne_le fill a
  | case4 b rest ih =>
      rw [loosen_escape]
      simp only [List.length_cons]
      omega
  | case5 a b rest h ih =>
      have hone := @length_loosenOne_le α _ S fill a
      rw [loosen_cons h, List.length_append]
      simp only [List.length_cons] at ih ⊢
      omega

/-- Only a plain word is its own loosened text. -/
theorem plain_of_loosen_eq {fill : α} (hfill : fill ≠ S.anyOne) {word : List α}
    (h : S.loosen fill word = word) : ∀ a ∈ word, ¬ S.IsSpecial a := by
  induction word with
  | nil => simp
  | cons a rest ih =>
      have hlength := @length_loosen_le α _ S fill rest
      by_cases hescape : a = S.escape
      · subst hescape
        cases rest with
        | nil =>
            rw [loosen_unpaired] at h
            exact absurd (List.cons.inj h).1 S.anySeq_ne_escape
        | cons b rest =>
            have hshort := congrArg List.length h
            have htail := @length_loosen_le α _ S fill rest
            rw [loosen_escape] at hshort
            simp only [List.length_cons] at hshort
            omega
      · rw [loosen_cons hescape, loosenOne] at h
        by_cases hseq : a = S.anySeq
        · have hshort := congrArg List.length h
          rw [if_pos hseq] at hshort
          simp only [List.nil_append, List.length_cons] at hshort
          omega
        by_cases hone : a = S.anyOne
        · rw [if_neg hseq, if_pos hone] at h
          exact absurd ((List.cons.inj h).1.trans hone) hfill
        · rw [if_neg hseq, if_neg hone] at h
          have hrest := (List.cons.inj h).2
          refine List.forall_mem_cons.mpr ⟨?_, ih hrest⟩
          intro hspecial
          rcases hspecial with h1 | h2 | h3
          · exact hseq h1
          · exact hone h2
          · exact hescape h3

/-- A word with a special character does not occur in what it is loosened to. -/
theorem not_infix_loosen {fill : α} (hfill : fill ≠ S.anyOne) {word : List α}
    (h : ¬ ∀ a ∈ word, ¬ S.IsSpecial a) : ¬ word <:+: S.loosen fill word := by
  intro hoccurs
  have heq := hoccurs.eq_of_length_le (length_loosen_le fill word)
  exact h (plain_of_loosen_eq hfill heq.symm)

/-! ## Folding the case -/

/-- A case folding that neither moves a special character nor makes one. -/
structure Folds (S : Specials α) (lower : α → α) : Prop where
  anySeq : ∀ a, lower a = S.anySeq ↔ a = S.anySeq
  anyOne : ∀ a, lower a = S.anyOne ↔ a = S.anyOne
  escape : ∀ a, lower a = S.escape ↔ a = S.escape

variable {lower : α → α}

omit [DecidableEq α] in
/-- Folding neither makes nor removes a special character. -/
theorem Folds.isSpecial (h : S.Folds lower) (a : α) :
    S.IsSpecial (lower a) ↔ S.IsSpecial a := by
  simp only [IsSpecial, h.anySeq, h.anyOne, h.escape]

omit [DecidableEq α] in
/-- A word is plain exactly when its folding is. -/
theorem Folds.plain (h : S.Folds lower) {word : List α} :
    (∀ a ∈ word.map lower, ¬ S.IsSpecial a) ↔ ∀ a ∈ word, ¬ S.IsSpecial a := by
  simp only [List.forall_mem_map, h.isSpecial]

omit [DecidableEq α] in
/-- The padding is folded to itself. -/
theorem Folds.map_padded (h : S.Folds lower) (word : List α) :
    (S.padded word).map lower = S.padded (word.map lower) := by
  simp [padded, (h.anySeq S.anySeq).mpr rfl]

/-- Folding and loosening commute. -/
theorem Folds.map_loosen (h : S.Folds lower) (fill : α) (word : List α) :
    (S.loosen fill word).map lower = S.loosen (lower fill) (word.map lower) := by
  have hone : ∀ a, (S.loosenOne fill a).map lower = S.loosenOne (lower fill) (lower a) := by
    intro a
    unfold loosenOne
    simp only [h.anySeq, h.anyOne]
    split
    · rfl
    · split <;> rfl
  have hescape : lower S.escape = S.escape := (h.escape S.escape).mpr rfl
  induction word using Specials.loosen.induct S with
  | case1 => rfl
  | case2 =>
      have hseq : lower S.anySeq = S.anySeq := (h.anySeq S.anySeq).mpr rfl
      simp only [List.map_cons, List.map_nil, hescape, hseq, loosen_unpaired]
  | case3 a ha =>
      have hlower : lower a ≠ S.escape := fun heq => ha ((h.escape a).mp heq)
      rw [loosen_cons ha, List.map_append, hone, List.map_cons, loosen_cons hlower]
      rfl
  | case4 b rest ih =>
      simp only [List.map_cons, hescape, loosen_escape, ih]
  | case5 a b rest ha ih =>
      have hlower : lower a ≠ S.escape := fun heq => ha ((h.escape a).mp heq)
      rw [loosen_cons ha, List.map_append, hone, ih]
      exact (loosen_cons hlower _).symm

/-- **Plain words are found where they occur.** -/
theorem ilike_padded_iff (h : S.Folds lower) {word text : List α}
    (hplain : ∀ a ∈ word, ¬ S.IsSpecial a) :
    S.ilike lower text (S.padded word) = true ↔ word.map lower <:+: text.map lower := by
  rw [ilike, h.map_padded, like_padded_iff (h.plain.mpr hplain)]

/-- **Other words are found where they do not occur.** -/
theorem exists_loose_match (h : S.Folds lower) {fill : α} (hfill : fill ≠ S.anyOne)
    {word : List α} (hloose : ¬ ∀ a ∈ word, ¬ S.IsSpecial a) :
    S.ilike lower (S.loosen fill word) (S.padded word) = true ∧
      ¬ word.map lower <:+: (S.loosen fill word).map lower := by
  rw [ilike, h.map_padded, h.map_loosen]
  refine ⟨like_padded_loosen _ _, not_infix_loosen ?_ (fun hall => hloose (h.plain.mp hall))⟩
  exact fun heq => hfill ((h.anyOne fill).mp heq)

end Specials

end Like
