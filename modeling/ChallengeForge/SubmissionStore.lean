import ChallengeForge.EvaluationStore
import ChallengeForge.IngestionStore
import ChallengeForge.PythonText

/-!
# The submission repository

The `submissions` table, the reads and writes of `SubmissionRepository`, and
the flush of an edited row: the session writes the columns that differ from
what it loaded, by primary key, whatever the row holds by then.
-/

namespace ChallengeForge

open Keyed

/-- The value of the enumeration. -/
def SubmissionStatus.value : SubmissionStatus → String
  | .created => "created"
  | .submitted => "submitted"
  | .cancelled => "cancelled"
  | .failed => "failed"

/-- A row of the `submissions` table. -/
structure SubmissionRow where
  id : UUID
  challengeId : UUID
  participantId : UUID
  status : SubmissionStatus
  metadata : JsonDict
  artifactKey : Option ArtifactKey
  idempotencyKey : Option String
  requestFingerprint : Option String
  createdAt : Timestamp
  updatedAt : Timestamp
  deriving DecidableEq

/-- The `submissions` table. -/
abbrev Submissions := Table SubmissionRow SubmissionRow.id

/-- The arguments of `SubmissionRepository.add`, but for the artifact key. -/
structure NewSubmission where
  challengeId : UUID
  participantId : UUID
  metadata : JsonDict
  idempotencyKey : Option String
  requestFingerprint : Option String
  deriving DecidableEq

/-- The columns of a row that nothing writes after its INSERT. -/
structure SubmissionIdentity where
  id : UUID
  challengeId : UUID
  participantId : UUID
  idempotencyKey : Option String
  requestFingerprint : Option String
  deriving DecidableEq

/-- The columns that a new row takes from its request. -/
def NewSubmission.identity (new : NewSubmission) (id : UUID) : SubmissionIdentity :=
  ⟨id, new.challengeId, new.participantId, new.idempotencyKey, new.requestFingerprint⟩

namespace SubmissionRow

/-- The columns that nothing rewrites. -/
def identity (row : SubmissionRow) : SubmissionIdentity :=
  ⟨row.id, row.challengeId, row.participantId, row.idempotencyKey, row.requestFingerprint⟩

/-- The row of the partial unique index on participant and idempotency key. -/
def hasIdempotencyKey (participantId : UUID) (idempotencyKey : String) (row : SubmissionRow) :
    Bool :=
  row.participantId = participantId ∧ row.idempotencyKey = some idempotencyKey

/-- The row after the session writes what an edit changed since it loaded. -/
def writeChanges (row loaded edited : SubmissionRow) (now : Timestamp) : SubmissionRow :=
  { row with
    metadata := if edited.metadata = loaded.metadata then row.metadata else edited.metadata
    artifactKey :=
      if edited.artifactKey = loaded.artifactKey then row.artifactKey else edited.artifactKey
    updatedAt := now }

/-- A flush leaves the id. -/
@[simp] theorem writeChanges_id (row loaded edited : SubmissionRow) (now : Timestamp) :
    (row.writeChanges loaded edited now).id = row.id := rfl

/-- A flush leaves the status. -/
@[simp] theorem writeChanges_status (row loaded edited : SubmissionRow) (now : Timestamp) :
    (row.writeChanges loaded edited now).status = row.status := rfl

/-- The metadata are written if the request changed them. -/
@[simp] theorem writeChanges_metadata (row loaded edited : SubmissionRow) (now : Timestamp) :
    (row.writeChanges loaded edited now).metadata =
      if edited.metadata = loaded.metadata then row.metadata else edited.metadata := rfl

/-- So is the artifact key. -/
@[simp] theorem writeChanges_artifactKey (row loaded edited : SubmissionRow) (now : Timestamp) :
    (row.writeChanges loaded edited now).artifactKey =
      if edited.artifactKey = loaded.artifactKey then row.artifactKey
      else edited.artifactKey := rfl

end SubmissionRow

namespace Submissions

/-- `find_by_idempotency(participant_id, idempotency_key)`. -/
def findByIdempotency (submissions : Submissions) (participantId : UUID)
    (idempotencyKey : String) : Option SubmissionRow :=
  submissions.rows.find? (SubmissionRow.hasIdempotencyKey participantId idempotencyKey)

/-- The participant has used the request's idempotency key before. -/
def findExisting (submissions : Submissions) (new : NewSubmission) : Option SubmissionRow :=
  new.idempotencyKey.bind (submissions.findByIdempotency new.participantId)

/-- The row that `add` inserts. -/
def newRow (id : UUID) (new : NewSubmission) (artifactKey : Option ArtifactKey)
    (now : Timestamp) : SubmissionRow where
  id := id
  challengeId := new.challengeId
  participantId := new.participantId
  status := .created
  metadata := new.metadata
  artifactKey := artifactKey
  idempotencyKey := new.idempotencyKey
  requestFingerprint := new.requestFingerprint
  createdAt := now
  updatedAt := now

/-- Insert a CREATED row, unless that violates the unique index. -/
def add (submissions : Submissions) (id : UUID) (new : NewSubmission)
    (artifactKey : Option ArtifactKey) (now : Timestamp) : Option Submissions :=
  if (submissions.findExisting new).isSome then none
  else submissions.insert (newRow id new artifactKey now)

/-- Atomically transition one owned CREATED row and return the winner. -/
def transitionIfCreated (submissions : Submissions) (submissionId participantId : UUID)
    (target : SubmissionStatus) (updatedAt : Timestamp) :
    Option (SubmissionRow × Submissions) :=
  (submissions.find? submissionId).bind fun row =>
    if row.participantId = participantId ∧ row.status = .created then
      some ({ row with status := target, updatedAt := updatedAt },
        submissions.update (fun other => decide (other.id = submissionId))
          (fun other => { other with status := target, updatedAt := updatedAt })
          (fun _ => rfl))
    else none

/-- The flush of an edited row. -/
def flushEdit (submissions : Submissions) (loaded edited : SubmissionRow) (now : Timestamp) :
    Submissions :=
  submissions.update (fun row => decide (row.id = loaded.id))
    (fun row => row.writeChanges loaded edited now)
    (fun row => row.writeChanges_id loaded edited now)

/-! ## What the writes do to the rows -/

variable {submissions submissions' : Submissions}

/-- An insert adds one row. -/
theorem mem_of_add {id : UUID} {new : NewSubmission} {artifactKey : Option ArtifactKey}
    {now : Timestamp} (hadd : submissions.add id new artifactKey now = some submissions')
    {row : SubmissionRow} :
    row ∈ submissions' ↔ row ∈ submissions ∨ row = newRow id new artifactKey now := by
  unfold add at hadd
  split at hadd
  · simp at hadd
  · exact Table.mem_of_insert hadd

/-- A found row is of the same participant and under the same key. -/
theorem findExisting_eq_some {new : NewSubmission} {row : SubmissionRow}
    (h : submissions.findExisting new = some row) :
    row ∈ submissions ∧ row.participantId = new.participantId ∧
      ∃ key, new.idempotencyKey = some key ∧ row.idempotencyKey = some key := by
  obtain ⟨key, hkey, hfound⟩ := Option.bind_eq_some_iff.mp h
  have hmatch : row.hasIdempotencyKey new.participantId key = true := List.find?_some hfound
  obtain ⟨howner, hrow⟩ := of_decide_eq_true hmatch
  exact ⟨List.mem_of_find?_eq_some hfound, howner, key, hkey, hrow⟩

/-- Where none is found, no row of the participant is under the key. -/
theorem findExisting_eq_none {new : NewSubmission} (h : submissions.findExisting new = none)
    {key : String} (hkey : new.idempotencyKey = some key) {row : SubmissionRow}
    (hrow : row ∈ submissions) (howner : row.participantId = new.participantId) :
    row.idempotencyKey ≠ some key := by
  intro hsame
  rw [findExisting, hkey, Option.bind_some] at h
  have hnot := List.find?_eq_none.mp h row hrow
  exact hnot (decide_eq_true ⟨howner, hsame⟩)

/-- An insert passes the unique index only where no such row is. -/
theorem findExisting_of_add {id : UUID} {new : NewSubmission}
    {artifactKey : Option ArtifactKey} {now : Timestamp}
    (hadd : submissions.add id new artifactKey now = some submissions') :
    (submissions.findExisting new).isSome = false := by
  unfold add at hadd
  split at hadd
  · simp at hadd
  · rename_i hnone
    simpa using hnone

/-- The id of an inserted row was not in use. -/
theorem find?_of_add {id : UUID} {new : NewSubmission} {artifactKey : Option ArtifactKey}
    {now : Timestamp} (hadd : submissions.add id new artifactKey now = some submissions') :
    submissions.find? id = none ∧
      submissions'.find? id = some (newRow id new artifactKey now) := by
  unfold add at hadd
  split at hadd
  · cases hadd
  · have hid : (newRow id new artifactKey now).id = id := rfl
    refine ⟨(Table.insert_eq_some_iff.mp hadd).1, ?_⟩
    rw [Table.find?_of_insert hadd, if_pos hid]

/-- A transition rewrites the status of one CREATED row. -/
theorem mem_of_transition {submissionId participantId : UUID} {target : SubmissionStatus}
    {now : Timestamp} {winner : SubmissionRow}
    (h : submissions.transitionIfCreated submissionId participantId target now =
      some (winner, submissions')) :
    (∀ row ∈ submissions, row.id = submissionId → row.status = .created) ∧
    ∀ row', row' ∈ submissions' ↔ ∃ row ∈ submissions,
      (if row.id = submissionId then { row with status := target, updatedAt := now }
        else row) = row' := by
  obtain ⟨found, hfound, h⟩ := Option.bind_eq_some_iff.mp h
  obtain ⟨hmem, hid⟩ := Table.find?_eq_some_iff.mp hfound
  split at h
  · rename_i hcreated
    obtain ⟨-, rfl⟩ := Prod.mk.inj (Option.some.inj h)
    constructor
    · intro row hrow hkey
      obtain rfl := Table.eq_of_key_eq hrow hmem (hkey.trans hid.symm)
      exact hcreated.2
    · intro row'
      simp [Table.mem_update]
  · simp at h

/-- **A transition.**  It needs an owned CREATED row, and rewrites that row only. -/
theorem transition_eq_some {submissionId participantId : UUID} {target : SubmissionStatus}
    {now : Timestamp} {winner : SubmissionRow}
    (h : submissions.transitionIfCreated submissionId participantId target now =
      some (winner, submissions')) :
    ∃ row ∈ submissions, row.id = submissionId ∧ row.participantId = participantId ∧
      row.status = .created ∧ winner = { row with status := target, updatedAt := now } ∧
      ∀ row', row' ∈ submissions' ↔
        (row' ∈ submissions ∧ row'.id ≠ submissionId) ∨ row' = winner := by
  have hmem := (mem_of_transition h).2
  obtain ⟨found, hfound, h⟩ := Option.bind_eq_some_iff.mp h
  obtain ⟨hin, hid⟩ := Table.find?_eq_some_iff.mp hfound
  split at h
  · rename_i hcreated
    obtain ⟨rfl, -⟩ := Prod.mk.inj (Option.some.inj h)
    refine ⟨found, hin, hid, hcreated.1, hcreated.2, rfl, ?_⟩
    intro row'
    rw [hmem]
    constructor
    · rintro ⟨row, hrow, rfl⟩
      by_cases hkey : row.id = submissionId
      · obtain rfl := Table.eq_of_key_eq hrow hin (hkey.trans hid.symm)
        exact Or.inr (by simp [hkey])
      · exact Or.inl (by simp [hkey, hrow])
    · rintro (⟨hrow, hkey⟩ | rfl)
      · exact ⟨row', hrow, by simp [hkey]⟩
      · exact ⟨found, hin, by simp [hid]⟩
  · cases h

/-- An owned CREATED row can be moved on. -/
theorem transition_isSome {submissionId participantId : UUID} {target : SubmissionStatus}
    {now : Timestamp} {row : SubmissionRow} (hrow : row ∈ submissions) (hid : row.id = submissionId)
    (howner : row.participantId = participantId) (hstatus : row.status = .created) :
    ∃ winner rows, submissions.transitionIfCreated submissionId participantId target now =
      some (winner, rows) := by
  subst hid
  rw [transitionIfCreated, Table.find?_of_mem hrow, Option.bind_some,
    if_pos ⟨howner, hstatus⟩]
  exact ⟨_, _, rfl⟩

/-- A transition keeps the artifact of every row. -/
theorem origin_of_transition {submissionId participantId : UUID} {target : SubmissionStatus}
    {now : Timestamp} {winner row' : SubmissionRow}
    (h : submissions.transitionIfCreated submissionId participantId target now =
      some (winner, submissions')) (hrow' : row' ∈ submissions') :
    ∃ row ∈ submissions, row.id = row'.id ∧ row.artifactKey = row'.artifactKey := by
  obtain ⟨row, hrow, rfl⟩ := ((mem_of_transition h).2 row').mp hrow'
  refine ⟨row, hrow, ?_, ?_⟩
  · split <;> rfl
  · split <;> rfl

/-- What identifies the rows, in table order. -/
def identities (submissions : Submissions) : List SubmissionIdentity :=
  submissions.rows.map SubmissionRow.identity

/-- An identity is that of a row. -/
theorem mem_identities {submission : SubmissionIdentity} :
    submission ∈ submissions.identities ↔ ∃ row ∈ submissions, row.identity = submission :=
  List.mem_map

/-- An insert adds the identity of its row at the end. -/
theorem identities_of_add {id : UUID} {new : NewSubmission} {artifactKey : Option ArtifactKey}
    {now : Timestamp} (hadd : submissions.add id new artifactKey now = some submissions') :
    submissions'.identities = submissions.identities ++ [new.identity id] := by
  unfold add at hadd
  split at hadd
  · cases hadd
  · rw [identities, (Table.insert_eq_some_iff.mp hadd).2, List.map_append]
    rfl

/-- An UPDATE of other columns. -/
theorem identities_update {p : SubmissionRow → Bool} {f : SubmissionRow → SubmissionRow}
    {hkey : ∀ row, (f row).id = row.id} (hf : ∀ row, (f row).identity = row.identity) :
    identities (submissions.update p f hkey) = submissions.identities := by
  unfold identities Table.update
  rw [List.map_map]
  apply List.map_congr_left
  intro row _
  dsimp only [Function.comp]
  split
  · exact hf row
  · rfl

/-- A transition leaves the identities. -/
theorem identities_of_transition {submissionId participantId : UUID} {target : SubmissionStatus}
    {now : Timestamp} {winner : SubmissionRow}
    (h : submissions.transitionIfCreated submissionId participantId target now =
      some (winner, submissions')) : submissions'.identities = submissions.identities := by
  obtain ⟨found, _, h⟩ := Option.bind_eq_some_iff.mp h
  split at h
  · obtain ⟨-, rfl⟩ := Prod.mk.inj (Option.some.inj h)
    exact identities_update (fun _ => rfl)
  · cases h

/-- A flush leaves the identities. -/
theorem identities_flushEdit {loaded edited : SubmissionRow} {now : Timestamp} :
    (submissions.flushEdit loaded edited now).identities = submissions.identities :=
  identities_update (fun _ => rfl)

/-- A flush writes to one row. -/
theorem mem_flushEdit {loaded edited row' : SubmissionRow} {now : Timestamp} :
    row' ∈ submissions.flushEdit loaded edited now ↔ ∃ row ∈ submissions,
      (if row.id = loaded.id then row.writeChanges loaded edited now else row) = row' := by
  simp [flushEdit, Table.mem_update]

/-- After a flush a row carries its old key, or the key the edit has changed to. -/
theorem artifactKey_of_flush {loaded edited row : SubmissionRow} {now : Timestamp}
    {key : ArtifactKey}
    (hkey : (if row.id = loaded.id then row.writeChanges loaded edited now
      else row).artifactKey = some key) :
    row.artifactKey = some key ∨
      row.id = loaded.id ∧ edited.artifactKey = some key ∧
        edited.artifactKey ≠ loaded.artifactKey := by
  split at hkey
  · rename_i hid
    rw [SubmissionRow.writeChanges_artifactKey] at hkey
    split at hkey
    · exact Or.inl hkey
    · rename_i hchanged
      exact Or.inr ⟨hid, hkey, hchanged⟩
  · exact Or.inl hkey

end Submissions

end ChallengeForge
