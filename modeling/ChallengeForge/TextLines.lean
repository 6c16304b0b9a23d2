import ChallengeForge.Chunking
import Mathlib.Algebra.GroupWithZero.Nat

/-!
# Lines and their offsets

The lines of a text stand one after the other, each followed by a newline but the
last.  For a text that does not end with a newline, as no canonical text does,
`_line_starts` is the list of the line offsets, and `_span` reads off it where a
range of lines begins and ends.
-/

namespace ChallengeForge

/-- Where line `i` begins, counted from 0; behind the last line, one past the end. -/
def lineOffset (lines : List (List Char)) (i : Nat) : Nat :=
  ((lines.take i).map (fun line => line.length + 1)).sum

/-- The first line begins the text. -/
@[simp] theorem lineOffset_zero (lines : List (List Char)) : lineOffset lines 0 = 0 := rfl

/-- Every later line is behind the first one and its line feed. -/
theorem lineOffset_cons (line : List Char) (lines : List (List Char)) (i : Nat) :
    lineOffset (line :: lines) (i + 1) = line.length + 1 + lineOffset lines i := rfl

/-- A line begins behind the one before it and a line feed. -/
theorem lineOffset_succ {lines : List (List Char)} {i : Nat} (hi : i < lines.length) :
    lineOffset lines (i + 1) = lineOffset lines i + (lines.getD i []).length + 1 := by
  induction lines generalizing i with
  | nil => cases hi
  | cons line lines ih =>
      cases i with
      | zero => simp [lineOffset_cons]
      | succ i =>
          have hrest := ih (Nat.lt_of_succ_lt_succ hi)
          rw [lineOffset_cons, lineOffset_cons, hrest, List.getD_cons_succ]
          omega

/-- Later lines begin later. -/
theorem lineOffset_lt {lines : List (List Char)} {i j : Nat} (hij : i < j)
    (hj : j ≤ lines.length) : lineOffset lines i < lineOffset lines j := by
  induction j with
  | zero => cases hij
  | succ j ih =>
      rw [lineOffset_succ hj]
      rcases Nat.lt_or_eq_of_le (Nat.le_of_lt_succ hij) with hlt | rfl
      · have hbefore := ih hlt (by omega)
        omega
      · omega

/-- One line is joined to nothing. -/
theorem joinLines_singleton (line : List Char) : joinLines [line] = line := by
  simp [joinLines]

/-- A line feed stands between two lines. -/
theorem joinLines_cons_cons (line next : List Char) (rest : List (List Char)) :
    joinLines (line :: next :: rest) = line ++ '\n' :: joinLines (next :: rest) := by
  simp [joinLines, List.intercalate_cons_cons]

/-- A line behind the last one would begin one past the end of the text. -/
theorem lineOffset_length {lines : List (List Char)} (h : lines ≠ []) :
    lineOffset lines lines.length = (joinLines lines).length + 1 := by
  induction lines with
  | nil => exact absurd rfl h
  | cons line rest ih =>
      cases rest with
      | nil => simp [lineOffset_cons, joinLines_singleton]
      | cons next rest =>
          have hrest := ih (List.cons_ne_nil next rest)
          rw [List.length_cons, lineOffset_cons, hrest, joinLines_cons_cons, List.length_append,
            List.length_cons]
          omega

/-- The characters of a line stand from its offset on. -/
theorem getElem?_joinLines {lines : List (List Char)} {i k : Nat} (hi : i < lines.length)
    (hk : k < (lines.getD i []).length) :
    (joinLines lines)[lineOffset lines i + k]? = (lines.getD i [])[k]? := by
  induction lines generalizing i with
  | nil => cases hi
  | cons line rest ih =>
      cases rest with
      | nil =>
          obtain rfl : i = 0 := by simpa using hi
          simp [joinLines_singleton]
      | cons next rest =>
          rw [joinLines_cons_cons]
          cases i with
          | zero =>
              simp only [List.getD_cons_zero] at hk ⊢
              simp [List.getElem?_append_left hk]
          | succ i =>
              rw [List.getD_cons_succ] at hk ⊢
              have hshift : lineOffset (line :: next :: rest) (i + 1) + k =
                  line.length + (lineOffset (next :: rest) i + k + 1) := by
                rw [lineOffset_cons]
                omega
              rw [hshift, List.getElem?_append_right (by omega), Nat.add_sub_cancel_left,
                List.getElem?_cons_succ]
              exact ih (Nat.lt_of_succ_lt_succ hi) hk

/-- A newline stands behind every line but the last. -/
theorem newline_joinLines {lines : List (List Char)} {i : Nat} (hi : i + 1 < lines.length) :
    (joinLines lines)[lineOffset lines (i + 1) - 1]? = some '\n' := by
  induction lines generalizing i with
  | nil => cases hi
  | cons line rest ih =>
      cases rest with
      | nil => simp at hi
      | cons next rest =>
          rw [joinLines_cons_cons, lineOffset_cons, List.getElem?_append_right (by omega)]
          cases i with
          | zero => simp
          | succ i =>
              have hpos : 0 < lineOffset (next :: rest) (i + 1) := by
                rw [lineOffset_cons]
                omega
              have hshift : line.length + 1 + lineOffset (next :: rest) (i + 1) - 1 - line.length =
                  lineOffset (next :: rest) (i + 1) - 1 + 1 := by omega
              rw [hshift, List.getElem?_cons_succ]
              exact ih (Nat.lt_of_succ_lt_succ hi)

/-- Behind every newline of the joined lines a line begins. -/
theorem newlines_joinLines {lines : List (List Char)} (h : lines ≠ [])
    (hlines : ∀ line ∈ lines, '\n' ∉ line) (k : Nat) :
    (((joinLines lines).zipIdx k).filter (fun chi => decide (chi.1 = '\n'))).map
        (fun chi => chi.2 + 1) =
      (List.range (lines.length - 1)).map (fun i => k + lineOffset lines (i + 1)) := by
  have hnone : ∀ {line : List Char} (k : Nat), '\n' ∉ line →
      (line.zipIdx k).filter (fun chi => decide (chi.1 = '\n')) = [] := by
    intro line k hline
    refine List.filter_eq_nil_iff.mpr ?_
    intro chi hchi hnewline
    have hmem := List.fst_mem_of_mem_zipIdx hchi
    rw [of_decide_eq_true hnewline] at hmem
    exact hline hmem
  induction lines generalizing k with
  | nil => exact absurd rfl h
  | cons line rest ih =>
      have hline := hlines line List.mem_cons_self
      cases rest with
      | nil => simp [joinLines_singleton, hnone k hline]
      | cons next rest =>
          have hrest := ih (List.cons_ne_nil next rest)
            (fun other hother => hlines other (List.mem_cons_of_mem _ hother)) (k + line.length + 1)
          rw [joinLines_cons_cons, List.zipIdx_append, List.filter_append, hnone k hline,
            List.nil_append, List.zipIdx_cons, List.filter_cons_of_pos (by simp), List.map_cons,
            hrest]
          simp only [List.length_cons, Nat.add_sub_cancel]
          rw [List.range_succ_eq_map, List.map_cons, List.map_map]
          refine congrArg₂ List.cons (by simp [lineOffset_cons, Nat.add_assoc]) ?_
          apply List.map_congr_left
          intro i _
          simp only [Function.comp, lineOffset_cons]
          omega

/-- **The table of `_line_starts`** holds the line offsets. -/
theorem lineStarts_eq {text : List Char} (hend : text.getLast? ≠ some '\n') :
    lineStarts text =
      0 :: (List.range (splitLines text).length).map (lineOffset (splitLines text)) := by
  have hjoin : joinLines (splitLines text) = text := List.intercalate_splitOn '\n'
  have hne : splitLines text ≠ [] := List.splitOn_ne_nil '\n' text
  have hkeep : ∀ chi ∈ text.zipIdx,
      decide (chi.1 = '\n' ∧ chi.2 + 1 < text.length) = decide (chi.1 = '\n') := by
    intro chi hchi
    refine decide_eq_decide.mpr ⟨fun hboth => hboth.1, fun hnewline => ⟨hnewline, ?_⟩⟩
    obtain ⟨hlt, hget⟩ := List.mem_zipIdx' hchi
    by_contra hlast
    apply hend
    rw [List.getLast?_eq_getElem?, show text.length - 1 = chi.2 by omega,
      List.getElem?_eq_getElem hlt, ← hget, hnewline]
  have hnewlines := newlines_joinLines hne (fun line hline => not_mem_of_mem_splitOn hline) 0
  rw [hjoin] at hnewlines
  obtain ⟨n, hn⟩ := Nat.exists_eq_succ_of_ne_zero (List.length_pos_of_ne_nil hne).ne'
  rw [lineStarts, List.filter_congr hkeep, hnewlines, hn, Nat.succ_sub_one,
    List.range_succ_eq_map, List.map_cons, List.map_map]
  simp only [Nat.zero_add, List.cons_append, List.nil_append, lineOffset_zero]
  rfl

section Span

variable {text : List Char} {i j : Nat}

/-- `line_starts` lists the offsets of the lines, from index 1 on. -/
theorem getD_lineStarts (hend : text.getLast? ≠ some '\n') (hi : i < (splitLines text).length) :
    (lineStarts text).getD (i + 1) 0 = lineOffset (splitLines text) i := by
  rw [lineStarts_eq hend, List.getD_cons_succ]
  simp [List.getD_eq_getElem?_getD, hi]

/-- It has one entry more than there are lines. -/
theorem length_lineStarts (hend : text.getLast? ≠ some '\n') :
    (lineStarts text).length = (splitLines text).length + 1 := by
  simp [lineStarts_eq hend]

/-- The lines of a text cover it, with one line feed to spare. -/
theorem lineOffset_splitLines :
    lineOffset (splitLines text) (splitLines text).length = text.length + 1 := by
  have hjoin : joinLines (splitLines text) = text := List.intercalate_splitOn '\n'
  have hne : splitLines text ≠ [] := List.splitOn_ne_nil '\n' text
  rw [lineOffset_length hne, hjoin]

/-- **The span of the lines `[i, j)`** ends before the newline behind them. -/
theorem span_eq (hend : text.getLast? ≠ some '\n') (hne : text ≠ []) (hij : i < j)
    (hj : j ≤ (splitLines text).length) :
    span text (lineStarts text) i j =
      (lineOffset (splitLines text) i, lineOffset (splitLines text) j - 1,
        slice text (lineOffset (splitLines text) i) (lineOffset (splitLines text) j - 1)) := by
  have hstart := getD_lineStarts hend (Nat.lt_of_lt_of_le hij hj)
  have hstop : (if j + 1 < (lineStarts text).length then
      if (lineStarts text).getD (j + 1) 0 > (lineStarts text).getD (i + 1) 0 ∧
          text[(lineStarts text).getD (j + 1) 0 - 1]? = some '\n' then
        (lineStarts text).getD (j + 1) 0 - 1
      else (lineStarts text).getD (j + 1) 0
      else text.length) = lineOffset (splitLines text) j - 1 := by
    rcases Nat.lt_or_eq_of_le hj with hlt | rfl
    · obtain ⟨k, rfl⟩ := Nat.exists_eq_succ_of_ne_zero (Nat.ne_of_gt (Nat.zero_lt_of_lt hij))
      have hjoin : joinLines (splitLines text) = text := List.intercalate_splitOn '\n'
      have hnewline := newline_joinLines hlt
      rw [hjoin] at hnewline
      rw [length_lineStarts hend, if_pos (by omega), hstart, getD_lineStarts hend hlt,
        if_pos ⟨lineOffset_lt hij hj, hnewline⟩]
    · rw [length_lineStarts hend, if_neg (by omega), lineOffset_splitLines, Nat.add_sub_cancel]
  rw [span, if_neg (by simp [hne, hij])]
  simp only [hstart] at hstop ⊢
  simp only [hstop]

end Span

/-! ## Canonical texts -/

/-- A text ends as its last line does. -/
theorem getLast?_joinLines {lines : List (List Char)} (h : lines ≠ [])
    (hlast : lines.getLast h ≠ []) :
    (joinLines lines).getLast? = (lines.getLast h).getLast? := by
  induction lines with
  | nil => exact absurd rfl h
  | cons line rest ih =>
      cases rest with
      | nil => simp [joinLines_singleton]
      | cons next rest =>
          rw [List.getLast_cons_cons] at hlast ⊢
          have hrest := ih (List.cons_ne_nil next rest) hlast
          have hne : joinLines (next :: rest) ≠ [] := by
            intro hnil
            rw [hnil, List.getLast?_nil] at hrest
            exact hlast (List.getLast?_eq_none_iff.mp hrest.symm)
          rw [joinLines_cons_cons, List.getLast?_append, List.getLast?_cons, hrest]
          rw [List.getLast?_eq_some_getLast hlast]
          rfl

/-- The kind is detected on the canonical text. -/
theorem kind_canonical (rawText : List Char) :
    (normalizeToCanonical rawText).kind = detectKind (normalizeToCanonical rawText).text := by
  simp only [normalizeToCanonical]

/-- A canonical text does not end with a newline. -/
theorem getLast?_canonical (rawText : List Char) :
    (normalizeToCanonical rawText).text.getLast? ≠ some '\n' := by
  have hlines : ∀ line ∈ canonicalLines rawText, '\n' ∉ line := by
    intro line hline
    have hkept := List.dropWhile_sublist _ |>.subset ((List.rdropWhile_prefix _ _).subset hline)
    obtain ⟨raw, hraw, rfl⟩ := List.mem_map.mp hkept
    intro hmem
    refine not_mem_of_mem_splitOn hraw ?_
    have hsub := List.mem_reverse.mp (List.dropWhile_sublist _ |>.subset (List.mem_reverse.mp hmem))
    exact hsub
  have htext : (normalizeToCanonical rawText).text = joinLines (canonicalLines rawText) := rfl
  rw [htext]
  by_cases hne : canonicalLines rawText = []
  · rw [hne]
    decide
  · have hlast : (canonicalLines rawText).getLast hne ≠ [] := by
      have hnot := List.rdropWhile_last_not List.isEmpty _ hne
      exact fun hnil => hnot (by rw [List.isEmpty_iff]; exact hnil)
    rw [getLast?_joinLines hne hlast]
    intro hnewline
    exact hlines _ (List.getLast_mem hne) (List.mem_of_getLast? hnewline)

end ChallengeForge
