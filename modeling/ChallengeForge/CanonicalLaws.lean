import ChallengeForge.TextLines

/-!
# Laws of the canonical text

Normalisation seen as a map of lines: cut the input at every line end, strip
each line, and drop the blank lines at both ends.  `inputLines` cuts at CRLF, CR
and LF in one go, which the two replacements and the split do in three.

* `splitLines_replace` — the three passes cut where `inputLines` does;
* `normalize_laws` — what a canonical document is of its input;
* `normalize_idempotent` — a canonical text is its own canonical form.
-/

namespace ChallengeForge

/-- The lines of a text whose lines end in CRLF, CR or LF. -/
def inputLines : List Char → List (List Char)
  | [] => [[]]
  | '\r' :: '\n' :: rest => [] :: inputLines rest
  | c :: rest =>
      if c = '\r' ∨ c = '\n' then [] :: inputLines rest
      else (inputLines rest).modifyHead (List.cons c)

/-- The lines of a text; the empty text has none. -/
def textLines (text : List Char) : List (List Char) :=
  if text = [] then [] else splitLines text

/-- A text is split character by character. -/
theorem splitLines_cons (c : Char) (rest : List Char) :
    splitLines (c :: rest) =
      if c = '\n' then [] :: splitLines rest
      else (splitLines rest).modifyHead (List.cons c) := by
  unfold splitLines
  rw [List.splitOn_cons_eq_if_modifyHead]
  simp

/-- **One cut for three passes.** -/
theorem splitLines_replace (rawText : List Char) :
    splitLines (replaceCr (replaceCrLf rawText)) = inputLines rawText := by
  induction rawText using inputLines.induct with
  | case1 => rfl
  | case2 rest ih =>
      rw [replaceCrLf, inputLines, ← ih]
      rfl
  | case3 c rest hpair hend ih =>
      rw [replaceCrLf, inputLines, if_pos hend, ← ih, replaceCr, List.map_cons, splitLines_cons,
        if_pos]
      · rfl
      · rcases hend with rfl | rfl
        · rfl
        · rfl
      · exact hpair
      · exact hpair
  | case4 c rest hpair hend ih =>
      rw [replaceCrLf, inputLines, if_neg hend, ← ih, replaceCr, List.map_cons, splitLines_cons]
      · have hcr : c ≠ '\r' := fun h => hend (.inl h)
        have hlf : c ≠ '\n' := fun h => hend (.inr h)
        rw [if_neg hcr, if_neg hlf]
        rfl
      · exact hpair
      · exact hpair

/-- No line end is left in a line. -/
theorem not_mem_of_mem_inputLines {rawText line : List Char} (h : line ∈ inputLines rawText) :
    '\r' ∉ line ∧ '\n' ∉ line := by
  induction rawText using inputLines.induct generalizing line with
  | case1 =>
      obtain rfl : line = [] := by simpa [inputLines] using h
      simp
  | case2 rest ih =>
      rw [inputLines] at h
      rcases List.mem_cons.mp h with rfl | hrest
      · simp
      · exact ih hrest
  | case3 c rest hpair hend ih =>
      rw [inputLines, if_pos hend] at h
      · rcases List.mem_cons.mp h with rfl | hrest
        · simp
        · exact ih hrest
      · exact hpair
  | case4 c rest hpair hend ih =>
      rw [inputLines, if_neg hend] at h
      · cases hlines : inputLines rest with
        | nil => simp [hlines] at h
        | cons first others =>
            rw [hlines, List.modifyHead_cons] at h
            rcases List.mem_cons.mp h with rfl | hlater
            · obtain ⟨hcr, hlf⟩ := ih (hlines ▸ List.mem_cons_self)
              refine ⟨fun hmem => ?_, fun hmem => ?_⟩
              · rcases List.mem_cons.mp hmem with heq | hold
                · exact hend (.inl heq.symm)
                · exact hcr hold
              · rcases List.mem_cons.mp hmem with heq | hold
                · exact hend (.inr heq.symm)
                · exact hlf hold
            · exact ih (hlines ▸ List.mem_cons_of_mem first hlater)
      · exact hpair

/-- A text without CR is cut at its newlines. -/
theorem inputLines_of_not_mem {text : List Char} (h : '\r' ∉ text) :
    inputLines text = splitLines text := by
  induction text using inputLines.induct with
  | case1 => rfl
  | case2 rest ih => exact absurd List.mem_cons_self h
  | case3 c rest hpair hend ih =>
      have hrest : '\r' ∉ rest := fun hmem => h (List.mem_cons_of_mem c hmem)
      have hlf : c = '\n' := by
        rcases hend with rfl | hlf
        · exact absurd List.mem_cons_self h
        · exact hlf
      rw [inputLines, if_pos hend, splitLines_cons, if_pos hlf, ih hrest]
      exact hpair
  | case4 c rest hpair hend ih =>
      have hrest : '\r' ∉ rest := fun hmem => h (List.mem_cons_of_mem c hmem)
      rw [inputLines, if_neg hend, splitLines_cons, if_neg (fun hlf => hend (.inr hlf)), ih hrest]
      exact hpair

/-- Every line feed makes one more line. -/
theorem length_splitLines (text : List Char) :
    (splitLines text).length = text.count '\n' + 1 := by
  induction text with
  | nil => rfl
  | cons c rest ih =>
      rw [splitLines_cons]
      split
      · rename_i hlf
        rw [List.length_cons, ih, hlf, List.count_cons_self]
      · rename_i hother
        rw [List.length_modifyHead, ih, List.count_cons_of_ne hother]

/-! ## Stripping and trimming -/

/-- Blanks are stripped once. -/
theorem rstripBlanks_idempotent (line : List Char) :
    rstripBlanks (rstripBlanks line) = rstripBlanks line :=
  List.rdropWhile_idempotent _ _

/-- A stripped line ends in no blank. -/
theorem getLast?_rstripBlanks {line : List Char} {c : Char}
    (h : c ∈ (rstripBlanks line).getLast?) : c ≠ ' ' ∧ c ≠ '\t' := by
  obtain ⟨hne, hlast⟩ := List.mem_getLast?_eq_getLast h
  have hnot : ¬ ((rstripBlanks line).getLast hne = ' ' ||
      (rstripBlanks line).getLast hne = '\t') = true :=
    List.rdropWhile_last_not (fun c => c = ' ' || c = '\t') line hne
  rw [hlast]
  simpa using hnot

/-- Trimming takes a block of empty lines off each end. -/
theorem trimEmptyLines_split (lines : List (List Char)) :
    ∃ front back, lines = front ++ trimEmptyLines lines ++ back ∧
      ∀ line ∈ front ++ back, line = [] := by
  refine ⟨lines.takeWhile List.isEmpty, (lines.dropWhile List.isEmpty).rtakeWhile List.isEmpty,
    ?_, ?_⟩
  · rw [trimEmptyLines, List.append_assoc, List.rdropWhile_append_rtakeWhile,
      List.takeWhile_append_dropWhile]
  · intro line hline
    rcases List.mem_append.mp hline with hfront | hback
    · exact List.isEmpty_iff.mp (List.mem_takeWhile_imp hfront)
    · exact List.isEmpty_iff.mp (List.mem_rtakeWhile_imp hback)

/-- Trimmed lines begin with a line that is not empty. -/
theorem head?_trimEmptyLines {lines : List (List Char)} {line : List Char}
    (h : line ∈ (trimEmptyLines lines).head?) : line ≠ [] := by
  obtain ⟨back, hback⟩ := List.rdropWhile_prefix List.isEmpty (lines.dropWhile List.isEmpty)
  have hhead : (lines.dropWhile List.isEmpty).head? = some line := by
    rw [← hback, List.head?_append]
    simp only [trimEmptyLines, Option.mem_def] at h
    rw [h]
    rfl
  have hnot := List.head?_dropWhile_not List.isEmpty lines
  rw [hhead] at hnot
  simpa using hnot

/-- They end with one. -/
theorem getLast?_trimEmptyLines {lines : List (List Char)} {line : List Char}
    (h : line ∈ (trimEmptyLines lines).getLast?) : line ≠ [] := by
  obtain ⟨hne, hlast⟩ := List.mem_getLast?_eq_getLast h
  have hnot : ¬ ((trimEmptyLines lines).getLast hne).isEmpty = true :=
    List.rdropWhile_last_not List.isEmpty _ hne
  rw [hlast]
  simpa using hnot

/-- Lines that begin and end with an inked one are not trimmed. -/
theorem trimEmptyLines_eq_self {lines : List (List Char)}
    (hhead : ∀ line ∈ lines.head?, line ≠ []) (hlast : ∀ line ∈ lines.getLast?, line ≠ []) :
    trimEmptyLines lines = lines := by
  have hdrop : lines.dropWhile List.isEmpty = lines := by
    cases lines with
    | nil => rfl
    | cons first rest =>
        have hfirst := hhead first rfl
        exact List.dropWhile_cons_of_neg (by simpa using hfirst)
  rw [trimEmptyLines, hdrop, List.rdropWhile_eq_self_iff]
  intro hne hempty
  exact hlast _ (List.getLast?_eq_some_getLast hne) (List.isEmpty_iff.mp hempty)

/-! ## The canonical document -/

/-- The canonical lines are the stripped input lines, trimmed. -/
theorem canonicalLines_eq (rawText : List Char) :
    canonicalLines rawText = trimEmptyLines ((inputLines rawText).map rstripBlanks) := by
  rw [canonicalLines, splitLines_replace]

/-- Every canonical line is a stripped input line. -/
theorem mem_canonicalLines {rawText line : List Char} (h : line ∈ canonicalLines rawText) :
    ∃ input ∈ inputLines rawText, line = rstripBlanks input := by
  rw [canonicalLines_eq] at h
  obtain ⟨front, back, hsplit, -⟩ :=
    trimEmptyLines_split ((inputLines rawText).map rstripBlanks)
  have hmem : line ∈ (inputLines rawText).map rstripBlanks := by
    rw [hsplit]
    simp [h]
  obtain ⟨input, hinput, heq⟩ := List.mem_map.mp hmem
  exact ⟨input, hinput, heq.symm⟩

/-- No canonical line holds a line end of any kind. -/
theorem not_mem_of_mem_canonicalLines {rawText line : List Char}
    (h : line ∈ canonicalLines rawText) : '\r' ∉ line ∧ '\n' ∉ line := by
  obtain ⟨input, hinput, rfl⟩ := mem_canonicalLines h
  obtain ⟨hcr, hlf⟩ := not_mem_of_mem_inputLines hinput
  exact ⟨fun hmem => hcr (mem_rstripWhile hmem), fun hmem => hlf (mem_rstripWhile hmem)⟩

/-- The canonical text has no carriage return. -/
theorem not_mem_joinLines_canonical (rawText : List Char) :
    '\r' ∉ joinLines (canonicalLines rawText) := by
  intro hcr
  rcases mem_intercalate hcr with hsep | ⟨line, hline, hmem⟩
  · exact absurd hsep (by decide)
  · exact (not_mem_of_mem_canonicalLines hline).1 hmem

/-- The lines of the canonical text are the canonical lines. -/
theorem textLines_canonical (rawText : List Char) :
    textLines (joinLines (canonicalLines rawText)) = canonicalLines rawText := by
  have hhead : ∀ line ∈ (canonicalLines rawText).head?, line ≠ [] :=
    fun line hline => head?_trimEmptyLines hline
  have hlf : ∀ line ∈ canonicalLines rawText, '\n' ∉ line :=
    fun line hline => (not_mem_of_mem_canonicalLines hline).2
  generalize canonicalLines rawText = lines at hhead hlf ⊢
  cases lines with
  | nil => rfl
  | cons first rest =>
      have hfirst : first ≠ [] := hhead first rfl
      have hne : joinLines (first :: rest) ≠ [] := by
        cases rest with
        | nil => simpa [joinLines_singleton] using hfirst
        | cons next rest => simp [joinLines_cons_cons]
      rw [textLines, if_neg hne]
      exact List.splitOn_intercalate '\n' hlf (List.cons_ne_nil first rest)

/-- What a document is of the text it was normalised from. -/
structure CanonicalOf (rawText : List Char) (doc : CanonicalDocument) : Prop where
  no_cr : '\r' ∉ doc.text
  stripped : ∀ line ∈ textLines doc.text, ∀ c ∈ line.getLast?, c ≠ ' ' ∧ c ≠ '\t'
  first_inked : ∀ line ∈ (textLines doc.text).head?, line ≠ []
  last_inked : ∀ line ∈ (textLines doc.text).getLast?, line ≠ []
  lines : ∃ front back,
    (inputLines rawText).map rstripBlanks = front ++ textLines doc.text ++ back ∧
      ∀ line ∈ front ++ back, line = []
  line_count : doc.lineCount = (textLines doc.text).length
  kept : normalizeToCanonical doc.text = doc

/-- A text is canonical when its lines are stripped and begin and end inked. -/
theorem canonicalLines_of_canonical {text : List Char} (hcr : '\r' ∉ text)
    (hstripped : ∀ line ∈ textLines text, rstripBlanks line = line)
    (hhead : ∀ line ∈ (textLines text).head?, line ≠ [])
    (hlast : ∀ line ∈ (textLines text).getLast?, line ≠ []) :
    canonicalLines text = textLines text := by
  rw [canonicalLines_eq, inputLines_of_not_mem hcr]
  by_cases hnil : text = []
  · subst hnil
    rfl
  · have hlines : textLines text = splitLines text := if_neg hnil
    rw [hlines] at hstripped hhead hlast ⊢
    have hmap : (splitLines text).map rstripBlanks = splitLines text :=
      (List.map_congr_left hstripped).trans (List.map_id _)
    rw [hmap]
    exact trimEmptyLines_eq_self hhead hlast

/-- Normalizing a canonical text changes nothing. -/
theorem normalize_idempotent (rawText : List Char) :
    normalizeToCanonical (normalizeToCanonical rawText).text = normalizeToCanonical rawText := by
  have htext : (normalizeToCanonical rawText).text = joinLines (canonicalLines rawText) := rfl
  have hagain : canonicalLines (joinLines (canonicalLines rawText)) = canonicalLines rawText := by
    rw [canonicalLines_of_canonical (not_mem_joinLines_canonical rawText), textLines_canonical]
    · intro line hline
      rw [textLines_canonical] at hline
      obtain ⟨input, -, rfl⟩ := mem_canonicalLines hline
      exact rstripBlanks_idempotent input
    · intro line hline
      rw [textLines_canonical] at hline
      exact head?_trimEmptyLines hline
    · intro line hline
      rw [textLines_canonical] at hline
      exact getLast?_trimEmptyLines hline
  rw [htext]
  unfold normalizeToCanonical
  rw [hagain]

/-- **The laws of normalisation**, for every input. -/
theorem normalize_laws (rawText : List Char) :
    CanonicalOf rawText (normalizeToCanonical rawText) := by
  have htext : (normalizeToCanonical rawText).text = joinLines (canonicalLines rawText) := rfl
  have hlines : textLines (normalizeToCanonical rawText).text = canonicalLines rawText := by
    rw [htext, textLines_canonical]
  refine ⟨not_mem_joinLines_canonical rawText, ?_, ?_, ?_, ?_, ?_,
    normalize_idempotent rawText⟩
  · intro line hline c hc
    rw [hlines] at hline
    obtain ⟨input, -, rfl⟩ := mem_canonicalLines hline
    exact getLast?_rstripBlanks hc
  · rw [hlines]
    exact fun line hline => head?_trimEmptyLines hline
  · rw [hlines]
    exact fun line hline => getLast?_trimEmptyLines hline
  · rw [hlines, canonicalLines_eq]
    exact trimEmptyLines_split _
  · have hcount : (normalizeToCanonical rawText).lineCount =
        if (normalizeToCanonical rawText).text = [] then 0
        else (normalizeToCanonical rawText).text.count '\n' + 1 := rfl
    rw [hcount, textLines]
    split
    · rfl
    · exact (length_splitLines _).symm

end ChallengeForge
