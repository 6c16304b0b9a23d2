import ChallengeForge.ArtifactStorage
import ChallengeForge.Chunking
import ChallengeForge.KeyedTable

/-!
# The document chunk repository

The `document_chunks` table: chunk sets keyed by their ingestion job, replaced
and deleted as a whole.  The key of the table is its unique constraint, a job
and an ordinal; the ids of the rows are drawn by the caller.
-/

namespace ChallengeForge

open Keyed

/-- A durable retrieval chunk; the columns of `ChunkDraft` keep their names. -/
structure DocumentChunkRow extends ChunkDraft where
  id : UUID
  ingestionJobId : UUID
  submissionId : UUID
  artifactKey : ArtifactKey
  parserVersion : String
  chunkerVersion : String
  createdAt : Timestamp
  deriving DecidableEq

/-- The columns take the draft: no text holds U+0000, and every number is an `integer`,
which ends below 2³¹. -/
def ChunkDraft.storable (draft : ChunkDraft) : Bool :=
  !draft.content.contains '\x00' &&
    draft.headingPath.all (fun heading => !heading.contains '\x00') &&
    decide (max draft.ordinal (max draft.charEnd draft.lineEnd) < 2147483648)

namespace DocumentChunkRow

/-- `uq_document_chunks_job_ordinal`. -/
def position (row : DocumentChunkRow) : UUID × Nat := (row.ingestionJobId, row.ordinal)

/-- The check constraints that a row of natural numbers can still violate. -/
def valid (row : DocumentChunkRow) : Bool :=
  row.charStart ≤ row.charEnd ∧ 1 ≤ row.lineStart ∧ row.lineStart ≤ row.lineEnd

end DocumentChunkRow

/-- The table `document_chunks`, with its unique index on the job and the place. -/
abbrev DocumentChunks := Table DocumentChunkRow DocumentChunkRow.position

namespace DocumentChunks

/-- The chunks of a job, in table order. -/
def chunksOf (chunks : DocumentChunks) (jobId : UUID) : List ChunkDraft :=
  (chunks.select (fun row => row.ingestionJobId = jobId)).map DocumentChunkRow.toChunkDraft

/-- `DELETE … WHERE ingestion_job_id = :job_id`. -/
def deleteForJob (chunks : DocumentChunks) (jobId : UUID) : DocumentChunks :=
  chunks.delete (fun row => row.ingestionJobId = jobId)

/-- The rows of a chunk set, with ids from `firstId` on. -/
def newRows (firstId jobId submissionId : UUID) (artifactKey : ArtifactKey)
    (parserVersion chunkerVersion : String) (drafts : List ChunkDraft) (now : Timestamp) :
    List DocumentChunkRow :=
  drafts.mapIdx (fun i draft =>
    { toChunkDraft := draft
      id := firstId + i
      ingestionJobId := jobId
      submissionId := submissionId
      artifactKey := artifactKey
      parserVersion := parserVersion
      chunkerVersion := chunkerVersion
      createdAt := now })

/-- Replace all chunks of a job; the transaction aborts on a constraint.  What the columns
themselves refuse (`ChunkDraft.storable`) is left to the caller: the exception ends its
worker, whose next step is then to die. -/
def replaceForJob (chunks : DocumentChunks) (firstId jobId submissionId : UUID)
    (artifactKey : ArtifactKey) (parserVersion chunkerVersion : String)
    (drafts : List ChunkDraft) (now : Timestamp) : Option DocumentChunks :=
  let rows := newRows firstId jobId submissionId artifactKey parserVersion chunkerVersion
    drafts now
  if rows.all DocumentChunkRow.valid then (chunks.deleteForJob jobId).insertAll rows else none

variable {chunks chunks' : DocumentChunks} {firstId jobId other submissionId : UUID}
  {artifactKey : ArtifactKey} {parserVersion chunkerVersion : String}
  {drafts : List ChunkDraft} {now : Timestamp}

/-- Deleting the chunks of one job leaves those of the others. -/
theorem chunksOf_deleteForJob_of_ne (hne : other ≠ jobId) :
    (chunks.deleteForJob jobId).chunksOf other = chunks.chunksOf other := by
  have hsame : ∀ row : DocumentChunkRow,
      (decide (row.ingestionJobId = other) && !decide (row.ingestionJobId = jobId)) =
        decide (row.ingestionJobId = other) := by
    intro row
    by_cases hrow : row.ingestionJobId = other
    · simp [hrow, hne]
    · simp [hrow]
  simp [chunksOf, deleteForJob, Table.select, Table.delete, List.filter_filter, hsame]

theorem chunksOf_deleteForJob_self : (chunks.deleteForJob jobId).chunksOf jobId = [] := by
  simp [chunksOf, deleteForJob, Table.select, Table.delete, List.filter_filter]

/-- Deleting the chunks of a job changes nothing only if it has none. -/
theorem deleteForJob_eq_self_iff :
    chunks.deleteForJob jobId = chunks ↔ ∀ row ∈ chunks, row.ingestionJobId ≠ jobId := by
  simp [deleteForJob, Table.delete_eq_self_iff]

theorem ingestionJobId_of_mem_newRows {row : DocumentChunkRow}
    (hrow : row ∈ newRows firstId jobId submissionId artifactKey parserVersion chunkerVersion
      drafts now) : row.ingestionJobId = jobId := by
  obtain ⟨i, hi, rfl⟩ := List.mem_mapIdx.mp hrow
  rfl

/-- The ids of a chunk set are drawn from `firstId` on, one for each chunk. -/
theorem id_of_mem_newRows {row : DocumentChunkRow}
    (hrow : row ∈ newRows firstId jobId submissionId artifactKey parserVersion chunkerVersion
      drafts now) : firstId ≤ row.id ∧ row.id < firstId + drafts.length := by
  obtain ⟨i, hi, rfl⟩ := List.mem_mapIdx.mp hrow
  exact ⟨Nat.le_add_right firstId i, Nat.add_lt_add_left hi firstId⟩

theorem map_newRows :
    (newRows firstId jobId submissionId artifactKey parserVersion chunkerVersion drafts
      now).map DocumentChunkRow.toChunkDraft = drafts := by
  simp [newRows, List.mapIdx_eq_zipIdx_map, Function.comp_def]

/-- The new rows add their drafts to the chunks of their job. -/
theorem chunksOf_of_rows (h : chunks'.rows = chunks.rows ++ newRows firstId jobId submissionId
    artifactKey parserVersion chunkerVersion drafts now) :
    chunks'.chunksOf other = chunks.chunksOf other ++ if other = jobId then drafts else [] := by
  have hnew : (newRows firstId jobId submissionId artifactKey parserVersion chunkerVersion
      drafts now).filter (fun row => row.ingestionJobId = other) =
        if other = jobId then newRows firstId jobId submissionId artifactKey parserVersion
          chunkerVersion drafts now else [] := by
    split
    · rename_i heq
      refine List.filter_eq_self.mpr (fun row hrow => ?_)
      simp [ingestionJobId_of_mem_newRows hrow, heq]
    · rename_i hne
      refine List.filter_eq_nil_iff.mpr (fun row hrow => ?_)
      simp [ingestionJobId_of_mem_newRows hrow, Ne.symm hne]
  rw [chunksOf, Table.select, h, List.filter_append, List.map_append, hnew, apply_ite
    (List.map DocumentChunkRow.toChunkDraft), map_newRows, List.map_nil]
  rfl

theorem rows_of_replaceForJob
    (h : chunks.replaceForJob firstId jobId submissionId artifactKey parserVersion
      chunkerVersion drafts now = some chunks') :
    chunks'.rows = (chunks.deleteForJob jobId).rows ++ newRows firstId jobId submissionId
      artifactKey parserVersion chunkerVersion drafts now := by
  simp only [replaceForJob] at h
  split at h
  · exact Table.rows_of_insertAll h
  · cases h

/-- A replacement changes nothing only if there was no chunk, and there is none:
the ids of new rows are new. -/
theorem eq_self_of_replaceForJob_iff
    (h : chunks.replaceForJob firstId jobId submissionId artifactKey parserVersion
      chunkerVersion drafts now = some chunks') (hfresh : ∀ row ∈ chunks, row.id < firstId) :
    chunks' = chunks ↔ (∀ row ∈ chunks, row.ingestionJobId ≠ jobId) ∧ drafts = [] := by
  have hrows := rows_of_replaceForJob h
  constructor
  · intro hsame
    rw [hsame] at hrows
    have hnone : newRows firstId jobId submissionId artifactKey parserVersion chunkerVersion
        drafts now = [] := by
      refine List.eq_nil_iff_forall_not_mem.mpr (fun row hrow => ?_)
      have hlow : row.id < firstId := hfresh row (by
        rw [Table.mem_iff, hrows]
        exact List.mem_append_right _ hrow)
      exact absurd (id_of_mem_newRows hrow).1 (Nat.not_le.mpr hlow)
    rw [hnone, List.append_nil] at hrows
    refine ⟨deleteForJob_eq_self_iff.mp (Table.ext hrows.symm), ?_⟩
    have hlength := congrArg List.length hnone
    simpa [newRows] using hlength
  · rintro ⟨hnone, rfl⟩
    rw [deleteForJob_eq_self_iff.mpr hnone] at hrows
    exact Table.ext (hrows.trans (List.append_nil _))

/-- A replaced chunk set is exactly the drafts. -/
theorem chunksOf_replaceForJob_self
    (h : chunks.replaceForJob firstId jobId submissionId artifactKey parserVersion
      chunkerVersion drafts now = some chunks') : chunks'.chunksOf jobId = drafts := by
  rw [chunksOf_of_rows (rows_of_replaceForJob h), chunksOf_deleteForJob_self, if_pos rfl,
    List.nil_append]

/-- Replacing the chunks of one job leaves those of the others. -/
theorem chunksOf_replaceForJob_of_ne
    (h : chunks.replaceForJob firstId jobId submissionId artifactKey parserVersion
      chunkerVersion drafts now = some chunks') (hne : other ≠ jobId) :
    chunks'.chunksOf other = chunks.chunksOf other := by
  rw [chunksOf_of_rows (rows_of_replaceForJob h), chunksOf_deleteForJob_of_ne hne,
    if_neg hne, List.append_nil]

end DocumentChunks

end ChallengeForge
