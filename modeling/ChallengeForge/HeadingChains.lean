import ChallengeForge.ChunkCover
import ChallengeForge.Outline

/-!
# Heading chains

What the heading path of a unit should be, said of the lines alone: fence lines
open and close fences in turn, a line outside fences that matches the pattern is
a heading, and the path at a line is the outline chain of the headings up to it.
The scanner of `_unitize_structured`, which keeps a stack and skips over fences,
lists and paragraphs, finds the same path for every unit.

* `unitizeStep_scanned` — one turn keeps the stack the chain of the lines before;
* `unitize_headingPath` — every unit, and every piece of one, carries its chain.
-/

namespace ChallengeForge

/-! ## The declarative chain -/

/-- How many fences stand before a line. -/
def fencesBefore (lines : List (List Char)) (i : Nat) : Nat := (lines.take i).countP isFence

/-- The heading of line `k`, with the level and the title, if it is one. -/
def headingAt (lines : List (List Char)) (k : Nat) : Option (Nat × List Char) :=
  if fencesBefore lines k % 2 = 0 then
    (matchHeading (lines.getD k [])).map (fun heading => (heading.1, strip heading.2))
  else none

/-- The headings of the lines before line `i`, in document order. -/
def headingsBefore (lines : List (List Char)) (i : Nat) : List (Nat × List Char) :=
  (List.range i).filterMap (headingAt lines)

/-- The titles of the headings at or before line `i` that are open there. -/
def headingChain (lines : List (List Char)) (i : Nat) : List (List Char) :=
  (Outline.chain (headingsBefore lines (i + 1))).map Prod.snd

section Lines

variable {lines : List (List Char)} {i j k : Nat}

/-- One more line, one more fence if it is one. -/
theorem fencesBefore_succ (hi : i < lines.length) :
    fencesBefore lines (i + 1) =
      fencesBefore lines i + if isFence (lines.getD i []) then 1 else 0 := by
  have hline : lines.getD i [] = lines[i] := by
    rw [List.getD_eq_getElem?_getD, List.getElem?_eq_getElem hi]
    rfl
  rw [fencesBefore, List.take_add_one, List.getElem?_eq_getElem hi, List.countP_append, hline]
  simp [fencesBefore, List.countP_cons]

/-- One more line, one more heading if it is one. -/
theorem headingsBefore_succ : headingsBefore lines (i + 1) =
    headingsBefore lines i ++ (headingAt lines i).toList := by
  unfold headingsBefore
  rw [List.range_succ, List.filterMap_append]
  cases hat : headingAt lines i <;> simp [hat]

/-- Lines without a heading add none. -/
theorem headingsBefore_of_none (hij : i ≤ j)
    (hnone : ∀ k, i ≤ k → k < j → headingAt lines k = none) :
    headingsBefore lines j = headingsBefore lines i := by
  induction j, hij using Nat.le_induction with
  | base => rfl
  | succ j hij ih =>
      have hlast := hnone j hij (Nat.lt_succ_self j)
      rw [headingsBefore_succ, hlast, Option.toList_none, List.append_nil]
      exact ih (fun k hlow hhigh => hnone k hlow (Nat.lt_succ_of_lt hhigh))

/-- No fence between two lines, no difference. -/
theorem fencesBefore_of_none (hij : i ≤ j) (hj : j ≤ lines.length)
    (hnone : ∀ k, i ≤ k → k < j → isFence (lines.getD k []) = false) :
    fencesBefore lines j = fencesBefore lines i := by
  induction j, hij using Nat.le_induction with
  | base => rfl
  | succ j hij ih =>
      have hlast := hnone j hij (Nat.lt_succ_self j)
      rw [fencesBefore_succ (by omega), hlast, if_neg Bool.false_ne_true, Nat.add_zero]
      exact ih (by omega) (fun k hlow hhigh => hnone k hlow (Nat.lt_succ_of_lt hhigh))

/-- A fence line has no `#` to begin with. -/
theorem matchHeading_of_isFence {line : List Char} (h : isFence line = true) :
    matchHeading line = none := by
  cases line with
  | nil => rfl
  | cons c rest =>
      have hc : c ≠ '#' := by
        rintro rfl
        simp [isFence, startsWith] at h
      simp [matchHeading, hc]

/-- Outside the fences a line that matches is a heading. -/
theorem headingAt_of_matchHeading (hout : fencesBefore lines k % 2 = 0) :
    headingAt lines k =
      (matchHeading (lines.getD k [])).map (fun heading => (heading.1, strip heading.2)) :=
  if_pos hout

/-- A line that does not match is none. -/
theorem headingAt_eq_none (hline : matchHeading (lines.getD k []) = none) :
    headingAt lines k = none := by
  unfold headingAt
  rw [hline]
  split <;> rfl

/-! ## What a scan passes over -/

variable {p : List Char → Bool}

/-- The scan goes over lines that pass. -/
theorem scanWhile_passes (hjk : j ≤ k) (hk : k < scanWhile lines p j) :
    p (lines.getD k []) = true := by
  unfold scanWhile at hk
  have hshort : k - j < ((lines.drop j).takeWhile p).length := by omega
  have hmem := List.getElem_mem hshort
  have hline : ((lines.drop j).takeWhile p)[k - j] = lines.getD k [] := by
    have hlen : ((lines.drop j).takeWhile p).length ≤ (lines.drop j).length :=
      (List.takeWhile_sublist p).length_le
    rw [List.length_drop] at hlen
    rw [(List.takeWhile_prefix p).getElem hshort, List.getElem_drop, List.getD_eq_getElem?_getD,
      List.getElem?_eq_getElem (by omega)]
    simp [Nat.add_sub_cancel' hjk]
  rw [← hline]
  exact List.mem_takeWhile_imp hmem

/-- It stops at one that does not, if there is one. -/
theorem scanWhile_stops (hstop : scanWhile lines p j < lines.length) :
    p (lines.getD (scanWhile lines p j) []) = false := by
  have hhead : ∀ xs : List (List Char), (xs.takeWhile p).length < xs.length →
      p (xs.getD (xs.takeWhile p).length []) = false := by
    intro xs
    induction xs with
    | nil => simp
    | cons x xs ih =>
        intro hlt
        by_cases hx : p x = true
        · rw [List.takeWhile_cons_of_pos hx] at hlt ⊢
          rw [List.length_cons, List.getD_cons_succ]
          exact ih (by simpa using hlt)
        · rw [List.takeWhile_cons_of_neg hx]
          simpa using hx
  have hdrop := hhead (lines.drop j) (by
    unfold scanWhile at hstop
    rw [List.length_drop]
    omega)
  rw [List.getD_eq_getElem?_getD, List.getElem?_drop] at hdrop
  rw [List.getD_eq_getElem?_getD]
  exact hdrop

end Lines

/-! ## The scanner finds the chain -/

/-- Before line `i` the scanner's stack is the chain of the headings so far, and
the line stands outside fences. -/
structure Scanned (lines : List (List Char)) (i : Nat) (stack : HeadingStack) : Prop where
  stack_eq : stack = Outline.chain (headingsBefore lines i)
  outside : i < lines.length → fencesBefore lines i % 2 = 0

/-- The stack of headings is that of an outline. -/
theorem enter_eq (stack : HeadingStack) (level : Nat) (title : List Char) :
    stack.enter level title = Outline.enter stack (level, title) := rfl

/-- Where the line itself opens nothing, the stack is the chain at the line. -/
theorem Scanned.path_of_none {lines : List (List Char)} {i : Nat} {stack : HeadingStack}
    (h : Scanned lines i stack) (hnone : headingAt lines i = none) :
    stack.path = headingChain lines i := by
  rw [headingChain, headingsBefore_succ, hnone, Option.toList_none, List.append_nil,
    ← h.stack_eq]
  rfl

/-- The scanner goes on behind lines that open nothing. -/
theorem Scanned.skip {lines : List (List Char)} {i j : Nat} {stack : HeadingStack}
    (h : Scanned lines i stack) (hij : i ≤ j)
    (hnone : ∀ k, i ≤ k → k < j → headingAt lines k = none)
    (houtside : j < lines.length → fencesBefore lines j % 2 = 0) :
    Scanned lines j stack :=
  ⟨by rw [headingsBefore_of_none hij hnone, h.stack_eq], houtside⟩

/-- A fence opens nothing, and what follows its closing line is outside again. -/
theorem Scanned.fence {lines : List (List Char)} {i j : Nat} {stack : HeadingStack}
    (h : Scanned lines i stack) (hi : i < lines.length)
    (hfence : isFence (lines.getD i []) = true)
    (hj : scanWhile lines (fun other => !isFence other) (i + 1) = j) :
    Scanned lines (if j < lines.length then j + 1 else j) stack := by
  have hout := h.outside hi
  have hopen : fencesBefore lines (i + 1) = fencesBefore lines i + 1 := by
    rw [fencesBefore_succ hi, hfence, if_pos rfl]
  have hij : i + 1 ≤ j := hj ▸ le_scanWhile
  have hjn : j ≤ lines.length := hj ▸ scanWhile_le hi
  have hinside : ∀ k, i + 1 ≤ k → k ≤ j → fencesBefore lines k = fencesBefore lines i + 1 := by
    intro k hlow hhigh
    rw [← hopen]
    refine fencesBefore_of_none hlow (by omega) (fun m hm hmk => ?_)
    have hpass := scanWhile_passes hm (hj ▸ Nat.lt_of_lt_of_le hmk hhigh)
    simpa using hpass
  have hnone : ∀ k, i ≤ k → k < j → headingAt lines k = none := by
    intro k hlow hhigh
    rcases Nat.eq_or_lt_of_le hlow with rfl | hlater
    · exact headingAt_eq_none (matchHeading_of_isFence hfence)
    · have hcount := hinside k hlater (Nat.le_of_lt hhigh)
      exact if_neg (by omega)
  by_cases hclosed : j < lines.length
  · rw [if_pos hclosed]
    have hclosing : isFence (lines.getD j []) = true := by
      have hstop := scanWhile_stops (hj.symm ▸ hclosed)
      rw [hj] at hstop
      simpa using hstop
    refine h.skip (by omega) ?_ ?_
    · intro k hlow hhigh
      rcases Nat.eq_or_lt_of_le (Nat.le_of_lt_succ hhigh) with rfl | hbefore
      · exact headingAt_eq_none (matchHeading_of_isFence hclosing)
      · exact hnone k hlow hbefore
    · intro _
      have hcount := hinside j hij (Nat.le_refl j)
      rw [fencesBefore_succ hclosed, hclosing, if_pos rfl]
      omega
  · rw [if_neg hclosed]
    exact h.skip (by omega) hnone (fun hlt => absurd hlt hclosed)

/-- A heading enters the stack. -/
theorem Scanned.heading {lines : List (List Char)} {i level : Nat} {group : List Char}
    {stack : HeadingStack} (h : Scanned lines i stack) (hi : i < lines.length)
    (hfence : isFence (lines.getD i []) = false)
    (hheading : matchHeading (lines.getD i []) = some (level, group)) :
    Scanned lines (i + 1) (stack.enter level (strip group)) ∧
      (stack.enter level (strip group)).path = headingChain lines i := by
  have hat : headingAt lines i = some (level, strip group) := by
    rw [headingAt_of_matchHeading (h.outside hi), hheading]
    rfl
  have hentered : stack.enter level (strip group) =
      Outline.chain (headingsBefore lines (i + 1)) := by
    rw [enter_eq, h.stack_eq, Outline.enter_chain, headingsBefore_succ, hat]
    rfl
  refine ⟨⟨hentered, fun _ => ?_⟩, ?_⟩
  · rw [fencesBefore_succ hi, hfence, if_neg Bool.false_ne_true]
    exact h.outside hi
  · rw [hentered]
    rfl

/-- A block opens nothing. -/
theorem Scanned.block {lines : List (List Char)} {i j : Nat} {stack : HeadingStack}
    (h : Scanned lines i stack) (hi : i < lines.length) (hij : i ≤ j) (hj : j ≤ lines.length)
    (hplain : ∀ k, i ≤ k → k < j → isFence (lines.getD k []) = false ∧
      matchHeading (lines.getD k []) = none) : Scanned lines j stack := by
  refine h.skip hij (fun k hlow hhigh => headingAt_eq_none (hplain k hlow hhigh).2) (fun _ => ?_)
  rw [fencesBefore_of_none hij hj (fun k hlow hhigh => (hplain k hlow hhigh).1)]
  exact h.outside hi

/-- A block goes over neither fences nor headings. -/
theorem plain_of_blockGoesOn {isList : Bool} {line : List Char}
    (h : blockGoesOn false isList line = true) :
    isFence line = false ∧ matchHeading line = none := by
  simp only [blockGoesOn, Bool.false_or, Bool.and_eq_true, Bool.not_eq_true', Bool.or_eq_false_iff,
    Option.isSome_eq_false_iff, Option.isNone_iff_eq_none] at h
  exact h.2.1

/-- One turn outside code keeps the scan, and its units carry the chain at the
line it began at. -/
theorem unitizeStep_scanned {text : List Char} {i : Nat} {stack : HeadingStack}
    (hi : i < (splitLines text).length) (h : Scanned (splitLines text) i stack) :
    Scanned (splitLines text) (unitizeStep text false i stack).2.1
        (unitizeStep text false i stack).2.2 ∧
      ∀ unit ∈ (unitizeStep text false i stack).1, unit.lineStart = i + 1 ∧
        unit.headingPath = headingChain (splitLines text) i := by
  have hout := h.outside hi
  have hunit : ∀ blockType j, headingAt (splitLines text) i = none →
      ∀ unit ∈ (unitOfLines text blockType i j stack).unlessBlank,
        unit.lineStart = i + 1 ∧ unit.headingPath = headingChain (splitLines text) i := by
    intro blockType j hnone unit hmem
    rw [mem_unlessBlank hmem]
    exact ⟨rfl, h.path_of_none hnone⟩
  unfold unitizeStep
  simp only [Bool.not_false, Bool.true_and, Bool.false_eq_true, if_false]
  generalize hlines : splitLines text = lines at *
  split
  · rename_i hfence
    have hnone : headingAt lines i = none := headingAt_eq_none (matchHeading_of_isFence hfence)
    exact ⟨h.fence hi hfence rfl, hunit _ _ hnone⟩
  · rename_i hfence
    have hopen : isFence (lines.getD i []) = false := Bool.eq_false_iff.mpr hfence
    split
    · rename_i level group hheading
      obtain ⟨hscanned, hpath⟩ := h.heading hi hopen hheading
      refine ⟨hscanned, fun unit hmem => ?_⟩
      rw [List.mem_singleton.mp hmem]
      exact ⟨rfl, hpath⟩
    · rename_i hheading
      have hnone : headingAt lines i = none := headingAt_eq_none hheading
      split
      · refine ⟨h.block hi (Nat.le_succ i) hi ?_, fun unit hmem => by cases hmem⟩
        intro k hlow hhigh
        have hnext : k < i + 1 := hhigh
        obtain rfl : k = i := by omega
        exact ⟨hopen, hheading⟩
      · refine ⟨h.block hi le_scanWhile (scanWhile_le (Nat.le_of_lt hi)) ?_, hunit _ _ hnone⟩
        intro k hlow hhigh
        exact plain_of_blockGoesOn (scanWhile_passes hlow hhigh)

/-- Every unit the loop appends carries the chain at its first line. -/
theorem unitizeFrom_headingPath {text : List Char} {fuel i : Nat} {stack : HeadingStack}
    (h : Scanned (splitLines text) i stack) :
    ∀ unit ∈ unitizeFrom text false fuel i stack,
      unit.headingPath = headingChain (splitLines text) (unit.lineStart - 1) := by
  induction fuel generalizing i stack with
  | zero =>
      intro unit hunit
      cases hunit
  | succ fuel ih =>
      rw [unitizeFrom]
      split
      · rename_i hi
        obtain ⟨hscanned, hunits⟩ := unitizeStep_scanned hi h
        intro unit hunit
        rcases List.mem_append.mp hunit with hturn | hlater
        · obtain ⟨hline, hpath⟩ := hunits unit hturn
          rw [hpath, hline, Nat.add_sub_cancel]
        · exact ih hscanned unit hlater
      · intro unit hunit
        cases hunit

/-- Nothing has been scanned at the first line. -/
theorem scanned_start (lines : List (List Char)) : Scanned lines 0 [] :=
  ⟨rfl, fun _ => rfl⟩

/-- A piece keeps the path and the lines of its unit. -/
theorem mem_splitOversized {unit piece : LogicalUnit} {maxChars : Nat}
    (h : piece ∈ splitOversized unit maxChars) :
    piece.headingPath = unit.headingPath ∧ piece.lineStart = unit.lineStart := by
  have hfrom : ∀ fuel pos, ∀ piece ∈ splitFrom unit maxChars fuel pos,
      piece.headingPath = unit.headingPath ∧ piece.lineStart = unit.lineStart := by
    intro fuel
    induction fuel with
    | zero =>
        intro pos piece hpiece
        cases hpiece
    | succ fuel ih =>
        intro pos piece hpiece
        rw [splitFrom] at hpiece
        dsimp only at hpiece
        generalize (if unit.text.length - pos ≤ maxChars then unit.text.length - pos
          else windowCut (slice unit.text pos (pos + maxChars)) maxChars) = cut at hpiece
        split at hpiece
        · split at hpiece
          · cases hpiece
          · rcases List.mem_cons.mp hpiece with rfl | hrest
            · exact ⟨rfl, rfl⟩
            · exact ih _ piece hrest
        · cases hpiece
  unfold splitOversized at h
  split at h
  · rw [List.mem_singleton.mp h]
    exact ⟨rfl, rfl⟩
  · exact hfrom _ _ piece h

/-- **Units carry their true heading chain.**  Outside code, every unit of a
document and every piece it is split into has the open headings at the unit's
first line for its path. -/
theorem unitize_headingPath (doc : CanonicalDocument) (hkind : doc.kind ≠ .code)
    (maxChars : Nat) :
    ∀ unit ∈ unitize doc,
      unit.headingPath = headingChain (splitLines doc.text) (unit.lineStart - 1) ∧
      ∀ piece ∈ splitOversized unit maxChars,
        piece.headingPath = headingChain (splitLines doc.text) (unit.lineStart - 1) := by
  intro unit hunit
  have hpath : unit.headingPath = headingChain (splitLines doc.text) (unit.lineStart - 1) := by
    unfold unitize at hunit
    split at hunit
    · cases hunit
    · unfold unitizeStructured at hunit
      split at hunit
      · cases hunit
      · rw [decide_eq_false hkind] at hunit
        exact unitizeFrom_headingPath (scanned_start _) unit hunit
  refine ⟨hpath, fun piece hpiece => ?_⟩
  rw [(mem_splitOversized hpiece).1, hpath]

/-- The headings of a section, code between them, and a section after them. -/
def fencedText : List Char := "# a\n## b\n```\n# c\n```\n# d\nx".toList

/-- The five units of that text: the heading inside the fence opens no section, and `# d`
closes both. -/
theorem unitize_headingPath_fenced :
    let doc := normalizeToCanonical fencedText
    (unitize doc).map (fun unit => (unit.lineStart, unit.headingPath)) =
      [(1, [['a']]), (2, [['a'], ['b']]), (3, [['a'], ['b']]), (6, [['d']]), (7, [['d']])] ∧
    ∀ unit ∈ unitize doc,
      unit.headingPath = headingChain (splitLines doc.text) (unit.lineStart - 1) ∧
      ∀ piece ∈ splitOversized unit 4,
        piece.headingPath = headingChain (splitLines doc.text) (unit.lineStart - 1) :=
  ⟨by decide +kernel, unitize_headingPath _ (by decide +kernel) 4⟩

end ChallengeForge
