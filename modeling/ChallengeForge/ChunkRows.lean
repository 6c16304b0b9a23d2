import ChallengeForge.ChunkCover
import ChallengeForge.DocumentChunks

/-!
# Chunk sets as rows

The constraints of `document_chunks` and the chunks that `chunk_hybrid` yields.
The line numbers come from two binary searches in one list of line starts, and
the search is monotone in its offset whatever the list holds.

* `spanLines_ordered` — the lines of a span start at 1 and are ordered;
* `replaceForJob_ne_none` — no constraint refuses the chunks of a document, so
  that the transaction that stores them does not abort.
-/

namespace ChallengeForge

open Keyed

/-! ## The line numbers -/

section Lines

variable {starts : List Nat} {offset offset' fuel lo hi ans : Nat}

/-- The search answers a line between the last it has accepted and the last it
looks at. -/
theorem lineSearch_bounds (hans : ans ≤ lo) :
    ans ≤ lineSearch starts offset fuel lo hi ans ∧
      lineSearch starts offset fuel lo hi ans ≤ max ans hi := by
  induction fuel generalizing lo hi ans with
  | zero => exact ⟨Nat.le_refl ans, Nat.le_max_left ans hi⟩
  | succ fuel ih =>
      rw [lineSearch]
      dsimp only
      by_cases hle : lo ≤ hi
      · rw [if_pos hle]
        by_cases hmid : starts.getD ((lo + hi) / 2) 0 ≤ offset
        · rw [if_pos hmid]
          have hright := @ih ((lo + hi) / 2 + 1) hi ((lo + hi) / 2) (by omega)
          omega
        · rw [if_neg hmid]
          have hleft := @ih lo ((lo + hi) / 2 - 1) ans hans
          omega
      · rw [if_neg hle]
        omega

/-- A later offset is in the same line or a later one.  Where the searches part,
the first goes below the middle and the second has accepted it. -/
theorem lineSearch_mono (hoffset : offset ≤ offset') (hans : ans ≤ lo) :
    lineSearch starts offset fuel lo hi ans ≤ lineSearch starts offset' fuel lo hi ans := by
  induction fuel generalizing lo hi ans with
  | zero => exact Nat.le_refl ans
  | succ fuel ih =>
      rw [lineSearch, lineSearch]
      dsimp only
      by_cases hle : lo ≤ hi
      · rw [if_pos hle, if_pos hle]
        by_cases hmid : starts.getD ((lo + hi) / 2) 0 ≤ offset
        · rw [if_pos hmid, if_pos (hmid.trans hoffset)]
          exact ih (by omega)
        · rw [if_neg hmid]
          by_cases hmid' : starts.getD ((lo + hi) / 2) 0 ≤ offset'
          · rw [if_pos hmid']
            have hleft := (@lineSearch_bounds starts offset fuel lo ((lo + hi) / 2 - 1) ans
              hans).2
            have hright := (@lineSearch_bounds starts offset' fuel ((lo + hi) / 2 + 1) hi
              ((lo + hi) / 2) (by omega)).1
            omega
          · rw [if_neg hmid']
            exact ih hans
      · rw [if_neg hle, if_neg hle]

end Lines

/-- The lines of a span count from 1, and the first is not after the last. -/
theorem spanLines_ordered (text : List Char) (charStart charEnd : Nat) :
    1 ≤ (spanLines text charStart charEnd).1 ∧
      (spanLines text charStart charEnd).1 ≤ (spanLines text charStart charEnd).2 := by
  unfold spanLines
  split
  · exact ⟨Nat.le_refl 1, Nat.le_refl 1⟩
  · exact ⟨(lineSearch_bounds (Nat.le_refl 1)).1,
      lineSearch_mono (Nat.le_max_left charStart (charEnd - 1)) (Nat.le_refl 1)⟩

/-! ## The chunks of a document -/

/-- What the table asks of a chunk. -/
structure ChunkDraft.Storable (draft : ChunkDraft) : Prop where
  chars : draft.charStart ≤ draft.charEnd
  lines : 1 ≤ draft.lineStart ∧ draft.lineStart ≤ draft.lineEnd

section Drafts

variable {doc : CanonicalDocument} {maxChars ordinal : Nat} {first : LogicalUnit}
  {rest : List LogicalUnit} {draft : ChunkDraft}

theorem lines_of_draftOfGroup (h : draftOfGroup doc maxChars ordinal first rest = some draft) :
    1 ≤ draft.lineStart ∧ draft.lineStart ≤ draft.lineEnd := by
  unfold draftOfGroup at h
  dsimp only at h
  split at h
  · cases h
  · cases h
    exact spanLines_ordered _ _ _

theorem lines_of_foldl_addChunk {groups : List (List LogicalUnit)} {before : List ChunkDraft}
    (hbefore : ∀ draft ∈ before, 1 ≤ draft.lineStart ∧ draft.lineStart ≤ draft.lineEnd) :
    ∀ draft ∈ groups.foldl (addChunk doc maxChars) before,
      1 ≤ draft.lineStart ∧ draft.lineStart ≤ draft.lineEnd := by
  induction groups generalizing before with
  | nil => exact hbefore
  | cons group groups ih =>
      rw [List.foldl_cons]
      apply ih
      intro draft hdraft
      cases group with
      | nil => exact hbefore draft hdraft
      | cons first rest =>
          rcases List.mem_append.mp hdraft with hold | hnew
          · exact hbefore draft hold
          · exact lines_of_draftOfGroup (Option.mem_toList.mp hnew)

end Drafts

/-- **The chunks of a document** have different ordinals, and meet the checks. -/
theorem storable_of_chunkHybrid {rawText : List Char} {maxChars : Nat} {drafts : List ChunkDraft}
    (h : chunkHybrid (normalizeToCanonical rawText) maxChars = .ok drafts) :
    (drafts.map ChunkDraft.ordinal).Nodup ∧ ∀ draft ∈ drafts, draft.Storable := by
  obtain ⟨hfold, hordinals, hchunks, -⟩ := chunkHybrid_spec h
  refine ⟨?_, ?_⟩
  · rw [hordinals]
    exact List.nodup_range'
  · intro draft hdraft
    have hbounds := hchunks.bounds draft.span (List.mem_map_of_mem hdraft)
    rw [hfold] at hdraft
    exact ⟨Nat.le_of_lt hbounds.2.1,
      lines_of_foldl_addChunk (fun _ hnone => absurd hnone List.not_mem_nil) draft hdraft⟩

namespace DocumentChunks

/-- **Chunks can be stored.**  The transaction that replaces the chunks of a job
by those of a document does not abort. -/
theorem replaceForJob_ne_none {chunks : DocumentChunks} {rawText : List Char} {maxChars : Nat}
    {drafts : List ChunkDraft}
    (hdrafts : chunkHybrid (normalizeToCanonical rawText) maxChars = .ok drafts)
    (firstId jobId submissionId : UUID) (artifactKey : ArtifactKey)
    (parserVersion chunkerVersion : String) (now : Timestamp) :
    chunks.replaceForJob firstId jobId submissionId artifactKey parserVersion chunkerVersion
      drafts now ≠ none := by
  obtain ⟨hordinals, hstorable⟩ := storable_of_chunkHybrid hdrafts
  unfold replaceForJob
  dsimp only
  have hvalid : (newRows firstId jobId submissionId artifactKey parserVersion chunkerVersion
      drafts now).all DocumentChunkRow.valid = true := by
    refine List.all_eq_true.mpr (fun row hrow => ?_)
    obtain ⟨i, hi, rfl⟩ := List.mem_mapIdx.mp hrow
    have hdraft := hstorable drafts[i] (List.getElem_mem hi)
    simpa [DocumentChunkRow.valid] using ⟨hdraft.chars, hdraft.lines⟩
  rw [if_pos hvalid]
  apply Table.insertAll_ne_none
  · have hpositions : (newRows firstId jobId submissionId artifactKey parserVersion
        chunkerVersion drafts now).map DocumentChunkRow.position =
          (drafts.map ChunkDraft.ordinal).map (fun ordinal => (jobId, ordinal)) := by
      conv_rhs => rw [← @map_newRows firstId jobId submissionId artifactKey parserVersion
        chunkerVersion drafts now]
      rw [List.map_map, List.map_map]
      apply List.map_congr_left
      intro row hrow
      exact Prod.ext (ingestionJobId_of_mem_newRows hrow) rfl
    rw [hpositions]
    exact hordinals.map (fun _ _ hsame => (Prod.mk.inj hsame).2)
  · intro row hrow other hother hsame
    have hkept : other.ingestionJobId ≠ jobId := by
      simpa using (Table.mem_delete.mp hother).2
    have hjob : other.ingestionJobId = row.ingestionJobId := (Prod.mk.inj hsame).1
    exact hkept (hjob.trans (ingestionJobId_of_mem_newRows hrow))

end DocumentChunks

end ChallengeForge
