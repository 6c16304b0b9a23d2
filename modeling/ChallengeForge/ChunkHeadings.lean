import ChallengeForge.HeadingChains

/-!
# The heading path of a chunk

`chunk_hybrid` gives a chunk the path it reaches when it follows the paths of
the chunk's units down from the first.  The path is right for the end of the
chunk unless it was followed into a section that the text has left again.

* `groupHeading_eq` — the fold over a group is the descent along its paths;
* `chunk_attributed_iff` — when a chunk is attributed to a section that all its
  text from some unit on is in;
* `chunk_attributed_late` — a chunk that is not.
-/

namespace ChallengeForge

/-- The heading path of a chunk is that of one of its units, and from there on
every unit is in that section. -/
def Attributed (heading : List (List Char)) (group : List LogicalUnit) : Prop :=
  ∃ before unit after, group = before ++ unit :: after ∧ unit.headingPath = heading ∧
    ∀ later ∈ unit :: after, heading <+: later.headingPath

/-- No unit of the group that goes further down than all earlier units on the
way to the last one's section is outside that section's path. -/
def StaysOnPath (group : List LogicalUnit) : Prop :=
  ∀ last ∈ group.getLast?,
    Outline.KeepsTo last.headingPath (group.map LogicalUnit.headingPath)

/-- The fold of a group keeps the deepest path it meets. -/
theorem groupHeading_eq (first : LogicalUnit) (rest : List LogicalUnit) :
    groupHeading first (first :: rest) =
      Outline.deepest ((first :: rest).map LogicalUnit.headingPath) := by
  have hstep : ∀ (heading : List (List Char)) (unit : LogicalUnit),
      (if unit.headingPath.take heading.length = heading ∧
          unit.headingPath.length > heading.length then unit.headingPath
        else if heading = [] then unit.headingPath
        else heading) = Outline.deepen heading unit.headingPath := by
    intro heading unit
    unfold Outline.deepen
    by_cases hdown : heading <+: unit.headingPath
    · have htake : unit.headingPath.take heading.length = heading :=
        (List.prefix_iff_eq_take.mp hdown).symm
      rw [if_pos hdown]
      split
      · rfl
      · rename_i hsame
        have hlength : unit.headingPath.length ≤ heading.length := by
          by_contra hlong
          exact hsame ⟨htake, by omega⟩
        have heq := hdown.eq_of_length_le hlength
        rw [heq]
        split <;> rfl
    · have hne : heading ≠ [] := by
        rintro rfl
        exact hdown List.nil_prefix
      rw [if_neg hdown, if_neg, if_neg hne]
      intro htaken
      exact hdown (List.prefix_iff_eq_take.mpr htaken.1.symm)
  have hfirst : Outline.deepen [] first.headingPath = first.headingPath :=
    Outline.deepen_of_prefix List.nil_prefix
  have hagain : Outline.deepen first.headingPath first.headingPath = first.headingPath :=
    Outline.deepen_of_prefix List.prefix_rfl
  unfold groupHeading Outline.deepest
  simp only [hstep, List.foldl_cons, List.map_cons, List.foldl_map, hfirst, hagain]

/-- A group's path is right from some unit on exactly when it is the last one's. -/
theorem attributed_iff_eq_last {paths : List LogicalUnit} {last : LogicalUnit} :
    Attributed (Outline.deepest ((paths ++ [last]).map LogicalUnit.headingPath))
        (paths ++ [last]) ↔
      Outline.deepest ((paths ++ [last]).map LogicalUnit.headingPath) = last.headingPath := by
  rw [List.map_append, List.map_singleton, Outline.deepest_snoc]
  generalize Outline.deepest (paths.map LogicalUnit.headingPath) = reached
  constructor
  · intro h
    obtain ⟨before, unit, after, hsplit, -, hall⟩ := h
    have hmem : last ∈ unit :: after := by
      have hlast := congrArg List.getLast? hsplit
      rw [List.getLast?_append_of_ne_nil _ (List.cons_ne_nil unit after)] at hlast
      simp only [List.getLast?_append, List.getLast?_singleton] at hlast
      exact List.mem_of_getLast? hlast.symm
    have hdown := (Outline.prefix_deepen reached last.headingPath).trans (hall last hmem)
    exact Outline.deepen_of_prefix hdown
  · intro heq
    refine ⟨paths, last, [], rfl, heq.symm, fun later hlater => ?_⟩
    rw [List.mem_singleton.mp hlater, heq]

/-- When that path leads to every unit of the group. -/
theorem attributed_iff_staysOnPath (first : LogicalUnit) (rest : List LogicalUnit) :
    Attributed (groupHeading first (first :: rest)) (first :: rest) ↔
      StaysOnPath (first :: rest) := by
  obtain ⟨units, last, hsplit⟩ : ∃ units last, first :: rest = units ++ [last] :=
    ⟨_, _, (List.dropLast_append_getLast (List.cons_ne_nil first rest)).symm⟩
  rw [groupHeading_eq, hsplit, attributed_iff_eq_last, List.map_append, List.map_singleton,
    Outline.deepest_eq_iff]
  simp [StaysOnPath]

/-! ## Chunks and their groups -/

/-- `chunk` is what `chunk_hybrid` makes of `group`. -/
def ChunkOf (doc : CanonicalDocument) (maxChars : Nat) (chunk : ChunkDraft)
    (group : List LogicalUnit) : Prop :=
  group ∈ pack (expandedUnits doc maxChars) maxChars ∧ ∃ first rest, group = first :: rest ∧
    draftOfGroup doc maxChars chunk.ordinal first rest = some chunk

/-- A chunk has the heading of its group. -/
theorem draftOfGroup_eq_some {doc : CanonicalDocument} {maxChars ordinal : Nat}
    {first : LogicalUnit} {rest : List LogicalUnit} {chunk : ChunkDraft}
    (h : draftOfGroup doc maxChars ordinal first rest = some chunk) :
    chunk.ordinal = ordinal ∧ chunk.headingPath = groupHeading first (first :: rest) := by
  unfold draftOfGroup at h
  dsimp only at h
  split at h
  · cases h
  · obtain rfl := Option.some.inj h
    exact ⟨rfl, rfl⟩

/-- Every chunk is made of one of the groups. -/
theorem mem_foldl_addChunk {doc : CanonicalDocument} {maxChars : Nat}
    {groups : List (List LogicalUnit)} {before : List ChunkDraft} {chunk : ChunkDraft}
    (h : chunk ∈ groups.foldl (addChunk doc maxChars) before) :
    chunk ∈ before ∨ ∃ group ∈ groups, ∃ first rest, group = first :: rest ∧
      draftOfGroup doc maxChars chunk.ordinal first rest = some chunk := by
  induction groups generalizing before with
  | nil => exact .inl h
  | cons group groups ih =>
      rcases ih h with hadded | ⟨other, hother, hmade⟩
      · cases group with
        | nil => exact .inl hadded
        | cons first rest =>
            rcases List.mem_append.mp hadded with hbefore | hnew
            · exact .inl hbefore
            · have hdraft := Option.mem_toList.mp hnew
              refine .inr ⟨first :: rest, List.mem_cons_self, first, rest, rfl, ?_⟩
              rw [(draftOfGroup_eq_some hdraft).1]
              exact hdraft
      · exact .inr ⟨other, List.mem_cons_of_mem group hother, hmade⟩

/-- **Attribution.**  Of every document and for every budget, a chunk is
attributed to a section that all its text from some unit on is in exactly when
its units stay on the path to the last one's section. -/
theorem chunk_attributed_iff (doc : CanonicalDocument) (maxChars : Nat) (hmax : 1 ≤ maxChars) :
    ∃ chunks, chunkHybrid doc maxChars = .ok chunks ∧ ∀ chunk ∈ chunks,
      (∃ group, ChunkOf doc maxChars chunk group) ∧
      ∀ group, ChunkOf doc maxChars chunk group →
        (Attributed chunk.headingPath group ↔ StaysOnPath group) := by
  refine ⟨_, if_neg (by omega), fun chunk hchunk => ⟨?_, ?_⟩⟩
  · rcases mem_foldl_addChunk hchunk with hnone | ⟨group, hgroup, hmade⟩
    · cases hnone
    · exact ⟨group, hgroup, hmade⟩
  · intro group hof
    obtain ⟨-, first, rest, rfl, hdraft⟩ := hof
    rw [(draftOfGroup_eq_some hdraft).2]
    exact attributed_iff_staysOnPath first rest

/-- Two sections in one chunk. -/
theorem chunk_attributed_iff_notes :
    ∃ chunks, chunkHybrid (normalizeToCanonical "# a\n\nx\n\n## b\n\ny".toList) 20 =
        .ok chunks ∧ ∀ chunk ∈ chunks,
      (∃ group, ChunkOf (normalizeToCanonical "# a\n\nx\n\n## b\n\ny".toList) 20 chunk group) ∧
      ∀ group, ChunkOf (normalizeToCanonical "# a\n\nx\n\n## b\n\ny".toList) 20 chunk group →
        (Attributed chunk.headingPath group ↔ StaysOnPath group) :=
  chunk_attributed_iff _ 20 (by decide)

/-- A chunk that goes from `# a` down to `## b` and on to `# c` and its text is
attributed to `a`, `b`. -/
theorem chunk_attributed_late :
    ∃ chunks chunk group,
      chunkHybrid (normalizeToCanonical "# a\n\n## b\n\nx\n\n# c\n\ny".toList) 1200 =
        .ok chunks ∧ chunk ∈ chunks ∧
      ChunkOf (normalizeToCanonical "# a\n\n## b\n\nx\n\n# c\n\ny".toList) 1200 chunk group ∧
      chunk.headingPath = [['a'], ['b']] ∧ ¬ Attributed chunk.headingPath group := by
  have hpaths : (pack (expandedUnits
        (normalizeToCanonical "# a\n\n## b\n\nx\n\n# c\n\ny".toList) 1200) 1200).map
      (List.map LogicalUnit.headingPath) =
        [[[['a']], [['a'], ['b']], [['a'], ['b']], [['c']], [['c']]]] := by
    decide +kernel
  have hone : ((pack (expandedUnits
        (normalizeToCanonical "# a\n\n## b\n\nx\n\n# c\n\ny".toList) 1200) 1200).foldl
      (addChunk (normalizeToCanonical "# a\n\n## b\n\nx\n\n# c\n\ny".toList) 1200) []).length =
        1 := by
    decide +kernel
  generalize normalizeToCanonical "# a\n\n## b\n\nx\n\n# c\n\ny".toList = doc at hpaths hone ⊢
  obtain ⟨chunk, hchunks⟩ := List.length_eq_one_iff.mp hone
  obtain ⟨group, hpack⟩ : ∃ group, pack (expandedUnits doc 1200) 1200 = [group] := by
    apply List.length_eq_one_iff.mp
    simpa using congrArg List.length hpaths
  rw [hpack, List.map_singleton, List.singleton_inj] at hpaths
  have hmem : chunk ∈ (pack (expandedUnits doc 1200) 1200).foldl (addChunk doc 1200) [] := by
    simp [hchunks]
  rcases mem_foldl_addChunk hmem with hnone | ⟨other, hother, first, rest, rfl, hdraft⟩
  · cases hnone
  have hgroup : first :: rest = group := by simpa [hpack] using hother
  subst hgroup
  have hheading : chunk.headingPath = [['a'], ['b']] := by
    rw [(draftOfGroup_eq_some hdraft).2, groupHeading_eq, hpaths]
    decide
  refine ⟨_, chunk, first :: rest, if_neg (by decide), hmem, ⟨by simp [hpack], first, rest, rfl,
    hdraft⟩, hheading, ?_⟩
  rw [(draftOfGroup_eq_some hdraft).2, attributed_iff_staysOnPath]
  intro hstays
  have hlast : ((first :: rest).map LogicalUnit.headingPath).getLast? = some [['c']] := by
    rw [hpaths]
    rfl
  rw [List.getLast?_map] at hlast
  obtain ⟨last, hgetLast, hpath⟩ := Option.map_eq_some_iff.mp hlast
  have hkeeps := hstays last hgetLast
  rw [hpaths, hpath] at hkeeps
  -- the first unit already leads off the way to `# c`
  have hoff : [['a']] <+: [['c']] := hkeeps [] _ _ rfl (by simp)
  exact absurd hoff (by decide)

end ChallengeForge
