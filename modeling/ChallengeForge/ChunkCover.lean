import ChallengeForge.SpanCover
import ChallengeForge.TextLines

/-!
# Chunks cover the text

Units, pieces, groups and chunks are covers of the text by spans: every turn of the
loop of `_unitize_structured` covers the lines it passes over, splitting refines a
cover, packing coarsens it, and a blank group is left out.

* `unitizeStep_spec` — one turn of the loop;
* `splitOversized_spec` — what becomes of a unit that is too long;
* `chunks_cover` — ordinals, contents, bounds and the cover, for every canonical
  document and every budget.
-/

namespace ChallengeForge

open Spans

/-- The characters of a unit. -/
def LogicalUnit.span (unit : LogicalUnit) : Span := (unit.charStart, unit.charEnd)

/-- The text of a unit is what stands at its offsets. -/
structure LogicalUnit.Located (text : List Char) (unit : LogicalUnit) : Prop where
  text_eq : unit.text = slice text unit.charStart unit.charEnd
  stop_le : unit.charEnd ≤ text.length

/-! ## One turn of the loop -/

section Scan

variable {lines : List (List Char)} {p : List Char → Bool} {j : Nat}

/-- A scan does not go back. -/
theorem le_scanWhile : j ≤ scanWhile lines p j := Nat.le_add_right _ _

/-- It does not go beyond the last line. -/
theorem scanWhile_le (hj : j ≤ lines.length) : scanWhile lines p j ≤ lines.length := by
  have hlen : ((lines.drop j).takeWhile p).length ≤ (lines.drop j).length :=
    (List.takeWhile_sublist p).length_le
  rw [List.length_drop] at hlen
  unfold scanWhile
  omega

/-- It takes its first line, if that passes. -/
theorem lt_scanWhile (hj : j < lines.length) (hp : p (lines.getD j []) = true) :
    j < scanWhile lines p j := by
  have hdrop : lines.drop j = lines.getD j [] :: lines.drop (j + 1) := by
    rw [List.drop_eq_getElem_cons hj, List.getD_eq_getElem?_getD, List.getElem?_eq_getElem hj]
    rfl
  unfold scanWhile
  rw [hdrop, List.takeWhile_cons_of_pos hp, List.length_cons]
  omega

end Scan

section Turn

variable {text : List Char} {i j : Nat}

/-- Nothing but a newline stands between a line and the next. -/
theorem blank_newline (hi : i < (splitLines text).length) :
    Blank isSpace text (lineOffset (splitLines text) (i + 1) - 1)
      (lineOffset (splitLines text) (i + 1)) := by
  rcases Nat.lt_or_eq_of_le hi with hlt | hlast
  · intro k hlow hhigh c hc
    have hjoin : joinLines (splitLines text) = text := List.intercalate_splitOn '\n'
    have hnewline := newline_joinLines hlt
    rw [hjoin] at hnewline
    obtain rfl : k = lineOffset (splitLines text) (i + 1) - 1 := by omega
    rw [hnewline] at hc
    obtain rfl := Option.some.inj hc
    decide
  · refine Blank.past ?_
    rw [Nat.succ_eq_add_one] at hlast
    rw [hlast, lineOffset_splitLines, Nat.add_sub_cancel]

/-- The text of one line. -/
theorem slice_line (hi : i < (splitLines text).length) :
    slice text (lineOffset (splitLines text) i) (lineOffset (splitLines text) (i + 1) - 1) =
      (splitLines text).getD i [] := by
  have hjoin : joinLines (splitLines text) = text := List.intercalate_splitOn '\n'
  have hnext := lineOffset_succ hi
  apply List.ext_getElem?
  intro k
  rw [getElem?_slice]
  by_cases hk : k < ((splitLines text).getD i []).length
  · have hchar := getElem?_joinLines hi hk
    rw [hjoin] at hchar
    rw [if_pos (by omega), hchar]
  · rw [if_neg (by omega), List.getElem?_eq_none (Nat.le_of_not_lt hk)]

/-- A slice is blank when nothing is left of it. -/
theorem blank_slice {a b : Nat} : Blank isSpace text a b ↔ strip (slice text a b) = [] := by
  rw [strip_eq_nil_iff]
  constructor
  · intro h c hc
    obtain ⟨k, hk⟩ := List.getElem?_of_mem hc
    rw [getElem?_slice] at hk
    split at hk
    · exact h (a + k) (Nat.le_add_right _ _) (by omega) c hk
    · cases hk
  · intro h k hlow hhigh c hc
    refine h c (List.mem_of_getElem? (i := k - a) ?_)
    rw [getElem?_slice, if_pos (by omega), Nat.add_sub_cancel' hlow, hc]

/-- A slice that is not empty has a length. -/
theorem lt_of_slice_ne_nil {a b : Nat} (h : slice text a b ≠ []) : a < b := by
  by_contra hle
  apply h
  rw [slice, Nat.sub_eq_zero_of_le (Nat.le_of_not_lt hle), List.take_zero]

/-- A line that is blank is passed over. -/
theorem blank_line (hi : i < (splitLines text).length)
    (hblank : strip ((splitLines text).getD i []) = []) :
    Blank isSpace text (lineOffset (splitLines text) i) (lineOffset (splitLines text) (i + 1)) := by
  rw [← slice_line hi] at hblank
  exact (blank_slice.mpr hblank).trans (blank_newline hi)

variable (hend : text.getLast? ≠ some '\n') (hne : text ≠ []) (hij : i < j)
  (hj : j ≤ (splitLines text).length)

include hend hne hij hj

/-- A unit of lines stands at the offsets of its lines. -/
theorem unitOfLines_spec (blockType : BlockType) (stack : HeadingStack) :
    (unitOfLines text blockType i j stack).span =
        (lineOffset (splitLines text) i, lineOffset (splitLines text) j - 1) ∧
      (unitOfLines text blockType i j stack).Located text := by
  have hlast : lineOffset (splitLines text) j ≤ text.length + 1 := by
    rw [← lineOffset_splitLines]
    rcases Nat.lt_or_eq_of_le hj with hlt | rfl
    · exact Nat.le_of_lt (lineOffset_lt hlt (Nat.le_refl _))
    · exact Nat.le_refl _
  have hspan := span_eq hend hne hij hj
  refine ⟨?_, ?_, ?_⟩
  · simp only [LogicalUnit.span, unitOfLines, hspan]
  · simp only [unitOfLines, hspan]
  · simp only [unitOfLines, hspan]
    omega

/-- A unit whose text is not empty covers its lines. -/
theorem cover_unitOfLines (blockType : BlockType) (stack : HeadingStack)
    (htext : (unitOfLines text blockType i j stack).text ≠ []) :
    Cover isSpace text (lineOffset (splitLines text) i) (lineOffset (splitLines text) j)
      ([unitOfLines text blockType i j stack].map LogicalUnit.span) := by
  obtain ⟨hspan, hlocated⟩ := unitOfLines_spec hend hne hij hj blockType stack
  obtain ⟨k, rfl⟩ := Nat.exists_eq_succ_of_ne_zero (Nat.ne_of_gt (Nat.zero_lt_of_lt hij))
  rw [hlocated.text_eq] at htext
  have hlt := lt_of_slice_ne_nil htext
  have hstart := congrArg Prod.fst hspan
  have hstop := congrArg Prod.snd hspan
  simp only [LogicalUnit.span] at hstart hstop
  rw [List.map_singleton, hspan]
  refine .cons (Nat.le_refl _) .empty (by dsimp only; omega) (.nil (by dsimp only; omega) ?_)
  exact blank_newline hj

/-- The lines of a block are covered by its unit, or blank. -/
theorem cover_unlessBlank (blockType : BlockType) (stack : HeadingStack) :
    Cover isSpace text (lineOffset (splitLines text) i) (lineOffset (splitLines text) j)
      ((unitOfLines text blockType i j stack).unlessBlank.map LogicalUnit.span) := by
  unfold LogicalUnit.unlessBlank
  split
  · rename_i hink
    refine cover_unitOfLines hend hne hij hj blockType stack ?_
    rintro htext
    rw [htext] at hink
    exact hink rfl
  · rename_i hblank
    rw [not_not] at hblank
    obtain ⟨hspan, hlocated⟩ := unitOfLines_spec hend hne hij hj blockType stack
    obtain ⟨k, rfl⟩ := Nat.exists_eq_succ_of_ne_zero (Nat.ne_of_gt (Nat.zero_lt_of_lt hij))
    have hstart := congrArg Prod.fst hspan
    have hstop := congrArg Prod.snd hspan
    simp only [LogicalUnit.span] at hstart hstop
    rw [hlocated.text_eq, hstart, hstop] at hblank
    exact .nil (Nat.le_of_lt (lineOffset_lt hij hj))
      ((blank_slice.mpr hblank).trans (blank_newline hj))

end Turn

/-- A unit that is not blank is the block itself. -/
theorem mem_unlessBlank {unit other : LogicalUnit} (h : other ∈ unit.unlessBlank) :
    other = unit := by
  unfold LogicalUnit.unlessBlank at h
  split at h
  · exact List.mem_singleton.mp h
  · cases h

/-- A heading is not an empty line. -/
theorem ne_nil_of_matchHeading {line : List Char} {heading : Nat × List Char}
    (h : matchHeading line = some heading) : line ≠ [] := by
  rintro rfl
  cases h

/-- The line that opens a block belongs to it. -/
theorem blockGoesOn_self {codeMode : Bool} {line : List Char} (hink : ¬ strip line = [])
    (hfence : ¬ (!codeMode && isFence line) = true)
    (hheading : (if codeMode = true then none else matchHeading line) = none) :
    blockGoesOn codeMode (!codeMode && matchesList line) line = true := by
  cases codeMode with
  | true => simp [blockGoesOn, hink]
  | false =>
      have hopen : isFence line = false := by simpa using hfence
      have hplain : matchHeading line = none := by simpa using hheading
      cases hlist : matchesList line with
      | true => simp [blockGoesOn, hink, hopen, hplain, hlist]
      | false => simp [blockGoesOn, hink, hopen, hplain, hlist]

/-- What a turn of the loop at line `i` does: it goes on at a later line, and covers
the lines between. -/
structure Turn (text : List Char) (i : Nat) (turn : List LogicalUnit × Nat × HeadingStack) :
    Prop where
  advances : i < turn.2.1
  stops : turn.2.1 ≤ (splitLines text).length
  covers : Cover isSpace text (lineOffset (splitLines text) i)
    (lineOffset (splitLines text) turn.2.1) (turn.1.map LogicalUnit.span)
  located : ∀ unit ∈ turn.1, unit.Located text

section Loop

variable {text : List Char} (hend : text.getLast? ≠ some '\n') (hne : text ≠ [])

include hend hne

/-- A turn that appends the unit of its lines, unless it is blank. -/
theorem turn_unlessBlank {i j : Nat} (hij : i < j) (hj : j ≤ (splitLines text).length)
    (blockType : BlockType) (stack : HeadingStack) :
    Turn text i ((unitOfLines text blockType i j stack).unlessBlank, j, stack) where
  advances := hij
  stops := hj
  covers := cover_unlessBlank hend hne hij hj blockType stack
  located := by
    intro unit hunit
    rw [mem_unlessBlank hunit]
    exact (unitOfLines_spec hend hne hij hj blockType stack).2

/-- What one turn of the loop does. -/
theorem unitizeStep_spec (codeMode : Bool) {i : Nat} (hi : i < (splitLines text).length)
    (stack : HeadingStack) : Turn text i (unitizeStep text codeMode i stack) := by
  unfold unitizeStep
  dsimp only
  split
  · -- a fence, up to its closing line or the end
    have hscan : i + 1 ≤ scanWhile (splitLines text) (fun other => !isFence other) (i + 1) :=
      le_scanWhile
    have hstop : scanWhile (splitLines text) (fun other => !isFence other) (i + 1) ≤
        (splitLines text).length := scanWhile_le hi
    split
    · exact turn_unlessBlank hend hne (by omega) (by omega) _ _
    · exact turn_unlessBlank hend hne (by omega) hstop _ _
  · rename_i hfence
    split
    · rename_i level group hheading
      have hline : (splitLines text).getD i [] ≠ [] := by
        cases codeMode with
        | true => cases hheading
        | false => exact ne_nil_of_matchHeading hheading
      have hlocated := fun entered =>
        (unitOfLines_spec hend hne (Nat.lt_succ_self i) hi .heading entered).2
      refine ⟨Nat.lt_succ_self i, hi, ?_, ?_⟩
      · refine cover_unitOfLines hend hne (Nat.lt_succ_self i) hi .heading _ ?_
        have hspan := span_eq hend hne (Nat.lt_succ_self i) hi
        simp only [unitOfLines, hspan]
        rw [Nat.succ_eq_add_one, slice_line hi]
        exact hline
      · intro unit hunit
        rw [List.mem_singleton.mp hunit]
        exact hlocated _
    · rename_i hheading
      split
      · rename_i hblank
        exact ⟨Nat.lt_succ_self i, hi,
          .nil (Nat.le_of_lt (lineOffset_lt (Nat.lt_succ_self i) hi)) (blank_line hi hblank),
          fun unit hunit => by cases hunit⟩
      · rename_i hink
        -- the line itself belongs to its block
        have hgoes := blockGoesOn_self hink hfence hheading
        exact turn_unlessBlank hend hne (lt_scanWhile hi hgoes) (scanWhile_le (Nat.le_of_lt hi)) _ _

end Loop

/-! ## The loops end -/

/-- `while i < n` of `_unitize_structured` ends, having appended these units. -/
inductive UnitizeEnds (text : List Char) (codeMode : Bool) :
    Nat → HeadingStack → List LogicalUnit → Prop
  | done {i stack} (hi : ¬ i < (splitLines text).length) : UnitizeEnds text codeMode i stack []
  | turn {i stack units} (hi : i < (splitLines text).length)
      (hrest : UnitizeEnds text codeMode (unitizeStep text codeMode i stack).2.1
        (unitizeStep text codeMode i stack).2.2 units) :
      UnitizeEnds text codeMode i stack ((unitizeStep text codeMode i stack).1 ++ units)

/-- `while lo <= hi` of `_line_of` ends with this line. -/
inductive SearchEnds (starts : List Nat) (offset : Nat) : Nat → Nat → Nat → Nat → Prop
  | done {lo hi ans} (hlo : ¬ lo ≤ hi) : SearchEnds starts offset lo hi ans ans
  | right {lo hi ans line} (hlo : lo ≤ hi) (hmid : starts.getD ((lo + hi) / 2) 0 ≤ offset)
      (hrest : SearchEnds starts offset ((lo + hi) / 2 + 1) hi ((lo + hi) / 2) line) :
      SearchEnds starts offset lo hi ans line
  | left {lo hi ans line} (hlo : lo ≤ hi) (hmid : ¬ starts.getD ((lo + hi) / 2) 0 ≤ offset)
      (hrest : SearchEnds starts offset lo ((lo + hi) / 2 - 1) ans line) :
      SearchEnds starts offset lo hi ans line

/-- With enough fuel the search ends. -/
theorem searchEnds_of_fuel (starts : List Nat) (offset : Nat) {fuel lo hi : Nat} (ans : Nat)
    (hlo : 1 ≤ lo) (hfuel : hi + 1 ≤ lo + fuel) :
    SearchEnds starts offset lo hi ans (lineSearch starts offset fuel lo hi ans) := by
  induction fuel generalizing lo hi ans with
  | zero => exact .done (by omega)
  | succ fuel ih =>
      rw [lineSearch]
      dsimp only
      by_cases hle : lo ≤ hi
      · rw [if_pos hle]
        by_cases hmid : starts.getD ((lo + hi) / 2) 0 ≤ offset
        · rw [if_pos hmid]
          exact .right hle hmid (ih _ (by omega) (by omega))
        · rw [if_neg hmid]
          exact .left hle hmid (ih _ hlo (by omega))
      · rw [if_neg hle]
        exact .done hle

/-- The search of `_line_of` ends. -/
theorem searchEnds_lineOf (starts : List Nat) (offset : Nat) :
    SearchEnds starts offset 1 (starts.length - 1) 1 (lineOf starts offset) :=
  searchEnds_of_fuel starts offset 1 (Nat.le_refl 1) (by omega)

section Unitize

variable {text : List Char} (hend : text.getLast? ≠ some '\n') (hne : text ≠ [])

include hend hne

/-- The loop ends, and its units cover the lines from `i` on. -/
theorem unitizeFrom_spec (codeMode : Bool) {fuel i : Nat} (hi : i ≤ (splitLines text).length)
    (hfuel : (splitLines text).length ≤ i + fuel) (stack : HeadingStack) :
    UnitizeEnds text codeMode i stack (unitizeFrom text codeMode fuel i stack) ∧
      Cover isSpace text (lineOffset (splitLines text) i) (text.length + 1)
        ((unitizeFrom text codeMode fuel i stack).map LogicalUnit.span) ∧
      ∀ unit ∈ unitizeFrom text codeMode fuel i stack, unit.Located text := by
  have hover : ∀ {i : Nat}, i ≤ (splitLines text).length → ¬ i < (splitLines text).length →
      Cover isSpace text (lineOffset (splitLines text) i) (text.length + 1)
        (([] : List LogicalUnit).map LogicalUnit.span) := by
    intro i hle hnot
    obtain rfl : i = (splitLines text).length := by omega
    rw [lineOffset_splitLines]
    exact .nil (Nat.le_refl _) .empty
  induction fuel generalizing i stack with
  | zero =>
      have hnot : ¬ i < (splitLines text).length := by omega
      exact ⟨.done hnot, hover hi hnot, fun _ hunit => absurd hunit List.not_mem_nil⟩
  | succ fuel ih =>
      rw [unitizeFrom]
      by_cases hlt : i < (splitLines text).length
      · rw [if_pos hlt]
        have hturn := unitizeStep_spec hend hne codeMode hlt stack
        have hmore := hturn.advances
        obtain ⟨hends, hcovers, hlocated⟩ :=
          ih hturn.stops (by omega) (unitizeStep text codeMode i stack).2.2
        refine ⟨.turn hlt hends, ?_, ?_⟩
        · rw [List.map_append]
          exact hturn.covers.append hcovers
        · exact List.forall_mem_append.mpr ⟨hturn.located, hlocated⟩
      · rw [if_neg hlt]
        exact ⟨.done hlt, hover hi hlt, fun _ hunit => absurd hunit List.not_mem_nil⟩

end Unitize

/-! ## Splitting -/

/-- What is found is found in the text. -/
theorem rfind_lt (text : List Char) (c : Char) : rfind text c < text.length := by
  unfold rfind
  split <;> omega

/-- A cut takes something, and no more than it may. -/
theorem windowCut_bounds {window : List Char} {maxChars : Nat} (hpos : 1 ≤ maxChars)
    (hwindow : window.length ≤ maxChars) :
    1 ≤ windowCut window maxChars ∧ windowCut window maxChars ≤ maxChars := by
  have hfound : (if rfind window '\n' < (maxChars / 4 : Nat) then rfind window ' '
      else rfind window '\n') < window.length := by
    split
    · exact rfind_lt window ' '
    · exact rfind_lt window '\n'
  unfold windowCut
  dsimp only
  generalize (if rfind window '\n' < (maxChars / 4 : Nat) then rfind window ' '
      else rfind window '\n') = cut at hfound ⊢
  split <;> omega

/-- `while pos < len(text)` of `_split_oversized` ends, having appended these pieces. -/
inductive SplitEnds (unit : LogicalUnit) (maxChars : Nat) : Nat → List LogicalUnit → Prop
  | done {pos} (hpos : ¬ pos < unit.text.length) : SplitEnds unit maxChars pos []
  | cut {pos cut pieces} (hpos : pos < unit.text.length)
      (hcut : cut = if unit.text.length - pos ≤ maxChars then unit.text.length - pos
        else windowCut (slice unit.text pos (pos + maxChars)) maxChars)
      (hpiece : slice unit.text pos (pos + cut) ≠ [])
      (hrest : SplitEnds unit maxChars (pos + cut) pieces) :
      SplitEnds unit maxChars pos
        ({ unit with
            text := slice unit.text pos (pos + cut)
            charStart := unit.charStart + pos
            charEnd := unit.charStart + pos + (slice unit.text pos (pos + cut)).length
            blockType := .hardSplit } :: pieces)

/-- A located unit is as long as its span. -/
theorem LogicalUnit.Located.length_eq {text : List Char} {unit : LogicalUnit}
    (h : unit.Located text) : unit.text.length = unit.charEnd - unit.charStart := by
  have hstop := h.stop_le
  rw [h.text_eq, length_slice]
  omega

/-- The loop ends, and its pieces cover the unit from `pos` on. -/
theorem splitFrom_spec {text : List Char} {unit : LogicalUnit} (hunit : unit.Located text)
    {maxChars : Nat} (hmax : 1 ≤ maxChars) {fuel pos : Nat} (hpos : pos ≤ unit.text.length)
    (hfuel : unit.text.length ≤ pos + fuel) (hle : unit.charStart ≤ unit.charEnd) :
    SplitEnds unit maxChars pos (splitFrom unit maxChars fuel pos) ∧
      Cover isSpace text (unit.charStart + pos) unit.charEnd
        ((splitFrom unit maxChars fuel pos).map LogicalUnit.span) ∧
      ∀ piece ∈ splitFrom unit maxChars fuel pos,
        piece.Located text ∧ piece.text.length ≤ maxChars := by
  have hlen := hunit.length_eq
  have hstop := hunit.stop_le
  have hover : ∀ {pos : Nat}, pos ≤ unit.text.length → ¬ pos < unit.text.length →
      Cover isSpace text (unit.charStart + pos) unit.charEnd
        (([] : List LogicalUnit).map LogicalUnit.span) := by
    intro pos hpos hnot
    have hsame : unit.charStart + pos = unit.charEnd := by omega
    rw [hsame]
    exact .nil (Nat.le_refl _) .empty
  induction fuel generalizing pos with
  | zero =>
      have hnot : ¬ pos < unit.text.length := by omega
      exact ⟨.done hnot, hover hpos hnot, fun _ hpiece => absurd hpiece List.not_mem_nil⟩
  | succ fuel ih =>
      rw [splitFrom]
      dsimp only
      by_cases hlt : pos < unit.text.length
      · rw [if_pos hlt]
        obtain ⟨cut, hcut⟩ : ∃ cut, cut =
            if unit.text.length - pos ≤ maxChars then unit.text.length - pos
            else windowCut (slice unit.text pos (pos + maxChars)) maxChars := ⟨_, rfl⟩
        have hbounds : 1 ≤ cut ∧ cut ≤ maxChars ∧ pos + cut ≤ unit.text.length := by
          rw [hcut]
          split
          · omega
          · have hwindow : (slice unit.text pos (pos + maxChars)).length ≤ maxChars := by
              rw [length_slice]
              omega
            have hwithin := windowCut_bounds hmax hwindow
            omega
        obtain ⟨hone, hfits, hin⟩ := hbounds
        have hpiece : (slice unit.text pos (pos + cut)).length = cut := by
          rw [length_slice]
          omega
        have hink : slice unit.text pos (pos + cut) ≠ [] := by
          intro hnil
          rw [hnil] at hpiece
          exact absurd hpiece (by simp; omega)
        rw [← hcut, if_neg hink]
        obtain ⟨hends, hcovers, hpieces⟩ := ih hin (by omega)
        refine ⟨.cut hlt hcut hink hends, ?_, List.forall_mem_cons.mpr ⟨⟨⟨?_, ?_⟩, ?_⟩, hpieces⟩⟩
        · rw [List.map_cons]
          refine .cons (Nat.le_refl _) .empty ?_ ?_
          · simp only [LogicalUnit.span, hpiece]
            omega
          · simp only [LogicalUnit.span, hpiece]
            rw [Nat.add_assoc]
            exact hcovers
        · -- the text of the piece is a slice of the document
          dsimp only
          rw [hpiece, hunit.text_eq, slice_slice (by omega), Nat.add_assoc]
        · dsimp only
          omega
        · dsimp only
          omega
      · rw [if_neg hlt]
        exact ⟨.done hlt, hover hpos hlt, fun _ hpiece => absurd hpiece List.not_mem_nil⟩

/-- **What becomes of a unit**: pieces that cover it, none of them too long. -/
theorem splitOversized_spec {text : List Char} {unit : LogicalUnit} (hunit : unit.Located text)
    {maxChars : Nat} (hmax : 1 ≤ maxChars) (hlt : unit.charStart < unit.charEnd) :
    Cover isSpace text unit.span.1 unit.span.2
        ((splitOversized unit maxChars).map LogicalUnit.span) ∧
      ∀ piece ∈ splitOversized unit maxChars,
        piece.Located text ∧ piece.text.length ≤ maxChars := by
  unfold splitOversized
  split
  · rename_i hfits
    refine ⟨.cons (Nat.le_refl _) .empty hlt (.nil (Nat.le_refl _) .empty), ?_⟩
    intro piece hpiece
    rw [List.mem_singleton.mp hpiece]
    exact ⟨hunit, hfits⟩
  · exact (splitFrom_spec hunit hmax (Nat.zero_le _) (by omega) (Nat.le_of_lt hlt)).2

/-! ## Packing -/

/-- The span of a group is within the budget. -/
def Fits (maxChars : Nat) : List LogicalUnit → Prop
  | [] => False
  | first :: rest =>
      (hull LogicalUnit.span first rest).2 ≤ (hull LogicalUnit.span first rest).1 + maxChars

/-- The groups so far hold the units so far, and fit. -/
structure Packing.Holds (packing : Packing) (maxChars : Nat) (units : List LogicalUnit) : Prop where
  units_eq : packing.groups.flatten ++ packing.current = units
  groups : ∀ group ∈ packing.groups, Fits maxChars group
  current : packing.current ≠ [] → Fits maxChars packing.current

namespace Packing

variable {packing : Packing} {maxChars : Nat} {units : List LogicalUnit}

/-- The last group is added to the others. -/
theorem Holds.flush (h : packing.Holds maxChars units) :
    packing.flush.flatten = units ∧ ∀ group ∈ packing.flush, Fits maxChars group := by
  unfold Packing.flush
  split
  · rename_i hnil
    have hunits := h.units_eq
    rw [hnil, List.append_nil] at hunits
    exact ⟨hunits, h.groups⟩
  · rename_i hcurrent
    refine ⟨by simpa using h.units_eq, ?_⟩
    intro group hgroup
    rcases List.mem_append.mp hgroup with hold | hlast
    · exact h.groups group hold
    · rw [List.mem_singleton.mp hlast]
      exact h.current hcurrent

/-- One more unit, which fits by itself. -/
theorem Holds.add {unit : LogicalUnit} (h : packing.Holds maxChars units)
    (hunit : unit.charEnd ≤ unit.charStart + maxChars) :
    (packing.add maxChars unit).Holds maxChars (units ++ [unit]) := by
  have hsingle : Fits maxChars [unit] := hunit
  unfold Packing.add
  split
  · rename_i hnil
    have hunits := h.units_eq
    rw [hnil, List.append_nil] at hunits
    exact ⟨by rw [← hunits], h.groups, fun _ => hsingle⟩
  · rename_i first rest hcurrent
    dsimp only
    split
    · rename_i hroom
      refine ⟨by rw [← h.units_eq, List.append_assoc], h.groups, fun _ => ?_⟩
      rw [hcurrent]
      have hhull : (hull LogicalUnit.span first (rest ++ [unit])).2 = unit.charEnd := by
        simp only [hull, ← List.cons_append, List.getLast_append_singleton, LogicalUnit.span]
      have hstart : (hull LogicalUnit.span first (rest ++ [unit])).1 = first.charStart := rfl
      have hwithin := hroom.1
      change (hull LogicalUnit.span first (rest ++ [unit])).2 ≤
        (hull LogicalUnit.span first (rest ++ [unit])).1 + maxChars
      rw [hhull, hstart]
      omega
    · obtain ⟨hunits, hgroups⟩ := h.flush
      exact ⟨by rw [← hunits], hgroups, fun _ => hsingle⟩

end Packing

/-- **Packing** keeps the units and their order, and every group fits. -/
theorem pack_spec {units : List LogicalUnit} {maxChars : Nat}
    (hunits : ∀ unit ∈ units, unit.charEnd ≤ unit.charStart + maxChars) :
    (pack units maxChars).flatten = units ∧ ∀ group ∈ pack units maxChars, Fits maxChars group := by
  have hfold : ∀ (rest before : List LogicalUnit) (packing : Packing),
      packing.Holds maxChars before →
      (∀ unit ∈ rest, unit.charEnd ≤ unit.charStart + maxChars) →
      (rest.foldl (Packing.add maxChars) packing).Holds maxChars (before ++ rest) := by
    intro rest
    induction rest with
    | nil =>
        intro before packing hholds _
        simpa using hholds
    | cons unit rest ih =>
        intro before packing hholds hrest
        obtain ⟨hunit, hmore⟩ := List.forall_mem_cons.mp hrest
        have hnext := ih (before ++ [unit]) _ (hholds.add hunit) hmore
        rwa [List.append_assoc] at hnext
  have hstart : (⟨[], []⟩ : Packing).Holds maxChars [] :=
    ⟨rfl, fun _ hgroup => absurd hgroup List.not_mem_nil, fun hne => absurd rfl hne⟩
  exact (hfold units [] _ hstart hunits).flush

/-! ## Chunks -/

/-- The characters of a chunk. -/
def ChunkDraft.span (chunk : ChunkDraft) : Span := (chunk.charStart, chunk.charEnd)

/-- A chunk is the text of its span, not blank and within the budget. -/
structure ChunkDraft.Exact (text : List Char) (maxChars : Nat) (chunk : ChunkDraft) : Prop where
  content_eq : chunk.content = slice text chunk.charStart chunk.charEnd
  ink : ∃ c ∈ chunk.content, isSpace c = false
  bounded : chunk.content.length ≤ maxChars

section Chunks

variable {doc : CanonicalDocument} {maxChars : Nat}

/-- The text of a group that fits is not truncated. -/
theorem untruncated_of_fits {first : LogicalUnit} {rest : List LogicalUnit}
    (hfits : Fits maxChars (first :: rest)) (text : List Char) :
    (slice text (hull LogicalUnit.span first rest).1
      (hull LogicalUnit.span first rest).2).length ≤ maxChars := by
  have hhull : (hull LogicalUnit.span first rest).2 ≤
      (hull LogicalUnit.span first rest).1 + maxChars := hfits
  rw [length_slice]
  omega

/-- A group becomes a chunk that covers it, unless it is blank. -/
theorem draftOfGroup_spec {first : LogicalUnit} {rest : List LogicalUnit}
    (hfits : Fits maxChars (first :: rest)) (ordinal : Nat) :
    (Blank isSpace doc.text (hull LogicalUnit.span first rest).1
        (hull LogicalUnit.span first rest).2 ∧
      draftOfGroup doc maxChars ordinal first rest = none) ∨
    (∃ draft, draftOfGroup doc maxChars ordinal first rest = some draft ∧
      draft.ordinal = ordinal ∧ draft.span = hull LogicalUnit.span first rest ∧
      draft.Exact doc.text maxChars ∧ ¬ Blank isSpace doc.text
        (hull LogicalUnit.span first rest).1 (hull LogicalUnit.span first rest).2) := by
  have hlen := untruncated_of_fits hfits doc.text
  have hcontent : slice doc.text first.charStart
      ((first :: rest).getLast (List.cons_ne_nil first rest)).charEnd =
      slice doc.text (hull LogicalUnit.span first rest).1
        (hull LogicalUnit.span first rest).2 := rfl
  rw [blank_slice]
  unfold draftOfGroup
  simp only [hcontent]
  by_cases hblank : strip (slice doc.text (hull LogicalUnit.span first rest).1
      (hull LogicalUnit.span first rest).2) = []
  · exact Or.inl ⟨hblank, if_pos hblank⟩
  · right
    rw [if_neg hblank]
    refine ⟨_, rfl, rfl, ?_, ⟨?_, ?_, ?_⟩, hblank⟩
    · simp only [ChunkDraft.span, if_neg (Nat.not_lt.mpr hlen)]
      rfl
    · simp only [if_neg (Nat.not_lt.mpr hlen)]
      rfl
    · simp only [if_neg (Nat.not_lt.mpr hlen)]
      rw [strip_eq_nil_iff] at hblank
      push Not at hblank
      obtain ⟨c, hc, hink⟩ := hblank
      exact ⟨c, hc, Bool.eq_false_iff.mpr hink⟩
    · simp only [if_neg (Nat.not_lt.mpr hlen)]
      exact hlen

/-- The last loop of `chunk_hybrid`, from a cover by groups to one by chunks. -/
theorem foldl_addChunk {groups : List (List LogicalUnit)}
    (hfits : ∀ group ∈ groups, Fits maxChars group) (before : List ChunkDraft) {a b : Nat}
    (hcover : Cover isSpace doc.text a b (hulls LogicalUnit.span groups)) :
    ∃ drafts, groups.foldl (addChunk doc maxChars) before = before ++ drafts ∧
      drafts.map ChunkDraft.ordinal = List.range' before.length drafts.length ∧
      Cover isSpace doc.text a b (drafts.map ChunkDraft.span) ∧
      ∀ draft ∈ drafts, draft.Exact doc.text maxChars := by
  induction groups generalizing before a with
  | nil => exact ⟨[], by simp, rfl, hcover, fun _ hdraft => absurd hdraft List.not_mem_nil⟩
  | cons group groups ih =>
      obtain ⟨hgroup, hrest⟩ := List.forall_mem_cons.mp hfits
      cases group with
      | nil => exact absurd hgroup id
      | cons first rest =>
          cases hcover with
          | cons hle hgap hlt hmore =>
              rw [List.foldl_cons]
              have hdraft := @draftOfGroup_spec doc maxChars first rest hgroup before.length
              rcases hdraft with
                ⟨hblank, hnone⟩ | ⟨draft, hsome, hordinal, hspan, hexact, _⟩
              · have hadd : addChunk doc maxChars before (first :: rest) = before := by
                  simp [addChunk, hnone]
                rw [hadd]
                obtain ⟨drafts, hfold, hordinals, hcovers, hall⟩ := ih hrest before hmore
                exact ⟨drafts, hfold, hordinals,
                  hcovers.extend (by omega) (hgap.trans hblank), hall⟩
              · have hadd : addChunk doc maxChars before (first :: rest) = before ++ [draft] := by
                  simp [addChunk, hsome]
                rw [hadd]
                obtain ⟨drafts, hfold, hordinals, hcovers, hall⟩ :=
                  ih hrest (before ++ [draft]) hmore
                refine ⟨draft :: drafts, ?_, ?_, ?_, List.forall_mem_cons.mpr ⟨hexact, hall⟩⟩
                · rw [hfold, List.append_assoc, List.singleton_append]
                · rw [List.map_cons, hordinals, hordinal, List.length_append,
                    List.length_singleton, List.length_cons, List.range'_succ]
                · rw [List.map_cons, hspan]
                  exact .cons hle hgap hlt hcovers

end Chunks

/-! ## The whole -/

/-- An empty document holds blanks only. -/
theorem strip_of_detectKind {text : List Char} (h : detectKind text = .empty) :
    strip text = [] := by
  unfold detectKind at h
  split at h
  · assumption
  · dsimp only at h
    split at h
    · cases h
    · split at h <;> cases h

/-- **The units of a canonical document** cover its text. -/
theorem unitize_spec (rawText : List Char) :
    Cover isSpace (normalizeToCanonical rawText).text 0 (normalizeToCanonical rawText).text.length
        ((unitize (normalizeToCanonical rawText)).map LogicalUnit.span) ∧
      ∀ unit ∈ unitize (normalizeToCanonical rawText),
        unit.Located (normalizeToCanonical rawText).text := by
  have hend := getLast?_canonical rawText
  have hkind := kind_canonical rawText
  generalize normalizeToCanonical rawText = doc at hend hkind ⊢
  unfold unitize
  split
  · rename_i hempty
    have hblank : strip doc.text = [] := by
      rcases hempty with hnone | hblank
      · exact strip_of_detectKind (hkind ▸ hnone)
      · exact hblank
    refine ⟨.nil (Nat.zero_le _) ?_, fun _ hunit => absurd hunit List.not_mem_nil⟩
    intro i _ _ c hc
    exact strip_eq_nil_iff.mp hblank c (List.mem_of_getElem? hc)
  · rename_i hink
    have hne : doc.text ≠ [] := by
      intro hnil
      exact hink (Or.inr (by rw [hnil]; rfl))
    unfold unitizeStructured
    rw [if_neg hne]
    obtain ⟨_, hcover, hlocated⟩ := unitizeFrom_spec hend hne (decide (doc.kind = .code))
      (Nat.zero_le _) (Nat.le_of_eq (Nat.zero_add _).symm) []
    refine ⟨hcover.restrict (Nat.zero_le _) (Nat.le_succ _) ?_, hlocated⟩
    intro span hspan
    obtain ⟨unit, hunit, rfl⟩ := List.mem_map.mp hspan
    exact (hlocated unit hunit).stop_le

/-- **The units that are packed** cover the text, and none is too long. -/
theorem expandedUnits_spec (rawText : List Char) {maxChars : Nat} (hmax : 1 ≤ maxChars) :
    Cover isSpace (normalizeToCanonical rawText).text 0 (normalizeToCanonical rawText).text.length
        ((expandedUnits (normalizeToCanonical rawText) maxChars).map LogicalUnit.span) ∧
      ∀ unit ∈ expandedUnits (normalizeToCanonical rawText) maxChars,
        unit.charEnd ≤ unit.charStart + maxChars := by
  obtain ⟨hcover, hlocated⟩ := unitize_spec rawText
  generalize normalizeToCanonical rawText = doc at hcover hlocated ⊢
  have hsplit : ∀ unit ∈ unitize doc, Cover isSpace doc.text unit.span.1 unit.span.2
      ((splitOversized unit maxChars).map LogicalUnit.span) ∧
      ∀ piece ∈ splitOversized unit maxChars,
        piece.Located doc.text ∧ piece.text.length ≤ maxChars := by
    intro unit hunit
    have hbounds := hcover.bounds unit.span (List.mem_map_of_mem hunit)
    exact splitOversized_spec (hlocated unit hunit) hmax hbounds.2.1
  have hspans : (expandedUnits doc maxChars).map LogicalUnit.span =
      ((unitize doc).flatMap (fun unit => splitOversized unit maxChars)).map LogicalUnit.span := by
    unfold expandedUnits fixLines repair
    simp only [List.map_map]
    apply List.map_congr_left
    intro unit _
    simp only [Function.comp, LogicalUnit.span]
    split <;> rfl
  refine ⟨?_, ?_⟩
  · rw [hspans]
    exact hcover.flatMap (fun unit hunit => (hsplit unit hunit).1)
  · intro unit hunit
    have hspan : unit.span ∈ (expandedUnits doc maxChars).map LogicalUnit.span :=
      List.mem_map_of_mem hunit
    rw [hspans] at hspan
    obtain ⟨piece, hpiece, hsame⟩ := List.mem_map.mp hspan
    obtain ⟨whole, hwhole, hmem⟩ := List.mem_flatMap.mp hpiece
    obtain ⟨hplace, hlen⟩ := (hsplit whole hwhole).2 piece hmem
    have hstart : piece.charStart = unit.charStart := congrArg Prod.fst hsame
    have hstop : piece.charEnd = unit.charEnd := congrArg Prod.snd hsame
    rw [hplace.length_eq] at hlen
    omega

/-- The chunks of a document are numbered from 0, cover its text and are slices of it. -/
theorem chunkHybrid_spec {rawText : List Char} {maxChars : Nat} {chunks : List ChunkDraft}
    (h : chunkHybrid (normalizeToCanonical rawText) maxChars = .ok chunks) :
    chunks = (pack (expandedUnits (normalizeToCanonical rawText) maxChars) maxChars).foldl
        (addChunk (normalizeToCanonical rawText) maxChars) [] ∧
      chunks.map ChunkDraft.ordinal = List.range' 0 chunks.length ∧
      Cover isSpace (normalizeToCanonical rawText).text 0
        (normalizeToCanonical rawText).text.length (chunks.map ChunkDraft.span) ∧
      ∀ chunk ∈ chunks, chunk.Exact (normalizeToCanonical rawText).text maxChars := by
  unfold chunkHybrid at h
  split at h
  · cases h
  · rename_i hmax
    obtain ⟨hcover, hshort⟩ := expandedUnits_spec rawText (Nat.not_lt.mp hmax)
    obtain ⟨hflat, hfits⟩ := pack_spec hshort
    rw [← hflat] at hcover
    obtain ⟨drafts, hfold, hordinals, hdrafts, hexact⟩ :=
      foldl_addChunk hfits [] hcover.groups
    obtain rfl := Except.ok.inj h
    rw [hfold, List.nil_append]
    exact ⟨rfl, hordinals, hdrafts, hexact⟩

/-- The loops of `chunk_hybrid` end, with what the model computes. -/
structure LoopsEnd (text : List Char) (maxChars : Nat) : Prop where
  unitize : ∀ codeMode, text ≠ [] →
    UnitizeEnds text codeMode 0 [] (unitizeStructured text codeMode)
  split : ∀ unit : LogicalUnit, unit.Located text → unit.charStart ≤ unit.charEnd →
    SplitEnds unit maxChars 0 (splitFrom unit maxChars unit.text.length 0)
  search : ∀ starts offset,
    SearchEnds starts offset 1 (starts.length - 1) 1 (lineOf starts offset)

/-- Chunks that cover a text losslessly, within the budget. -/
structure LosslessCover (text : List Char) (maxChars : Nat) (chunks : List ChunkDraft) : Prop where
  ordinals : chunks.map ChunkDraft.ordinal = List.range chunks.length
  exact : ∀ chunk ∈ chunks, chunk.Exact text maxChars
  bounds : ∀ chunk ∈ chunks, chunk.charStart < chunk.charEnd ∧ chunk.charEnd ≤ text.length
  ordered : chunks.Pairwise (fun first second => first.charEnd ≤ second.charStart)
  once : ∀ i c, text[i]? = some c → isSpace c = false →
    ∃! chunk, chunk ∈ chunks ∧ chunk.charStart ≤ i ∧ i < chunk.charEnd

/-- **Chunking is a lossless, bounded, exactly located cover** of every canonical
document, for every budget: its loops end, and no group is truncated. -/
theorem chunks_cover (rawText : List Char) (maxChars : Nat) (hmax : 1 ≤ maxChars) :
    LoopsEnd (normalizeToCanonical rawText).text maxChars ∧
    (∀ first rest, first :: rest ∈
        pack (expandedUnits (normalizeToCanonical rawText) maxChars) maxChars →
      (slice (normalizeToCanonical rawText).text (hull LogicalUnit.span first rest).1
        (hull LogicalUnit.span first rest).2).length ≤ maxChars) ∧
    ∃ chunks, chunkHybrid (normalizeToCanonical rawText) maxChars = .ok chunks ∧
      LosslessCover (normalizeToCanonical rawText).text maxChars chunks := by
  have hend := getLast?_canonical rawText
  have hfits := (pack_spec (expandedUnits_spec rawText hmax).2).2
  obtain ⟨chunks, hyields⟩ : ∃ chunks,
      chunkHybrid (normalizeToCanonical rawText) maxChars = .ok chunks := ⟨_, if_neg (by omega)⟩
  obtain ⟨-, hordinals, hchunks, hexact⟩ := chunkHybrid_spec hyields
  generalize normalizeToCanonical rawText = doc at hend hfits hyields hchunks hexact ⊢
  refine ⟨⟨?_, ?_, searchEnds_lineOf⟩, ?_, chunks, hyields, ⟨?_, hexact, ?_, ?_, ?_⟩⟩
  · intro codeMode hne
    unfold unitizeStructured
    rw [if_neg hne]
    exact (unitizeFrom_spec hend hne codeMode (Nat.zero_le _)
      (Nat.le_of_eq (Nat.zero_add _).symm) []).1
  · intro unit hlocated hle
    exact (splitFrom_spec hlocated hmax (Nat.zero_le _) (by omega) hle).1
  · exact fun first rest hgroup => untruncated_of_fits (hfits _ hgroup) doc.text
  · rw [hordinals, List.range_eq_range']
  · intro chunk hchunk
    exact (hchunks.bounds chunk.span (List.mem_map_of_mem hchunk)).2
  · exact List.pairwise_map.mp hchunks.pairwise
  · intro i c hc hink
    have hlt := (List.getElem?_eq_some_iff.mp hc).1
    obtain ⟨span, hspan, hin⟩ := hchunks.covered (Nat.zero_le i) hlt hc hink
    obtain ⟨chunk, hchunk, rfl⟩ := List.mem_map.mp hspan
    refine ⟨chunk, ⟨hchunk, hin⟩, ?_⟩
    rintro other ⟨hother, hin'⟩
    exact eq_of_pairwise (List.pairwise_map.mp hchunks.pairwise) hother hchunk hin' hin

/-- A heading, a list and a fence that is not closed, in chunks of six characters. -/
theorem chunks_cover_notes :
    ∃ chunks, chunkHybrid (normalizeToCanonical "# a\n\n- b\n- c d\n```\nx".toList) 6 =
        .ok chunks ∧
      LosslessCover (normalizeToCanonical "# a\n\n- b\n- c d\n```\nx".toList).text 6 chunks :=
  (chunks_cover "# a\n\n- b\n- c d\n```\nx".toList 6 (by decide)).2.2

end ChallengeForge
