import ChallengeForge.ArtifactStorage
import ChallengeForge.KeyedTable

/-!
# The ingestion job repository

The `ingestion_jobs` table and the operations of `IngestionJobRepository`, each
as one transaction.  A claim skips the rows that other transactions have
locked, so it takes those as an argument.  The writes of a worker are one
`UPDATE` each, guarded by `(id, status, worker_id)`.
-/

namespace ChallengeForge

open Keyed

/-- A row of the `ingestion_jobs` table. -/
structure IngestionJobRow where
  id : UUID
  submissionId : UUID
  artifactKey : ArtifactKey
  status : IngestionStatus
  attemptCount : Nat
  workerId : Option String
  availableAt : Timestamp
  startedAt : Option Timestamp
  completedAt : Option Timestamp
  errorCode : Option String
  errorMessage : Option String
  resultKey : Option BlobKey
  createdAt : Timestamp
  updatedAt : Timestamp
  deriving DecidableEq

/-- The `ingestion_jobs` table. -/
abbrev IngestionJobs := Table IngestionJobRow IngestionJobRow.id

namespace IngestionJobRow

/-- `ORDER BY created_at, id`. -/
def fifoLe (a b : IngestionJobRow) : Prop :=
  a.createdAt < b.createdAt ∨ (a.createdAt = b.createdAt ∧ a.id ≤ b.id)

instance : DecidableRel fifoLe := fun _ _ =>
  inferInstanceAs (Decidable (_ ∨ _))

/-- `ORDER BY started_at`, among rows that have been started. -/
def startedLe (a b : IngestionJobRow) : Prop :=
  a.startedAt.getD 0 ≤ b.startedAt.getD 0

instance : DecidableRel startedLe := fun _ _ =>
  inferInstanceAs (Decidable (_ ≤ _))

/-- The guard `id = … AND status = 'running' AND worker_id = …`. -/
def ownedBy (jobId : UUID) (workerId : String) (row : IngestionJobRow) : Bool :=
  row.id = jobId ∧ row.status = .running ∧ row.workerId = some workerId

/-- When a worker owns a job. -/
@[simp] theorem ownedBy_iff {jobId : UUID} {workerId : String} {row : IngestionJobRow} :
    row.ownedBy jobId workerId = true ↔
      row.id = jobId ∧ row.status = .running ∧ row.workerId = some workerId := by
  simp [ownedBy]

/-- A job a claim may take: queued, due, and not locked by another claim. -/
def claimable (now : Timestamp) (locked : List UUID) (row : IngestionJobRow) : Bool :=
  row.status = .queued ∧ row.availableAt ≤ now ∧ row.id ∉ locked

/-- What a claim assigns to the row it takes. -/
def startRunning (row : IngestionJobRow) (workerId : String) (now : Timestamp) :
    IngestionJobRow :=
  { row with
    status := .running
    attemptCount := row.attemptCount + 1
    workerId := some workerId
    startedAt := some now
    updatedAt := now
    errorCode := none
    errorMessage := none }

/-- `started_at IS NOT NULL AND started_at < stale_before`, while running. -/
def isStale (staleBefore : Timestamp) (row : IngestionJobRow) : Bool :=
  row.status = .running ∧ row.startedAt.any (fun t => decide (t < staleBefore)) = true

/-- What stale recovery makes of a stale row. -/
def recover (maxAttempts : Nat) (now : Timestamp) (row : IngestionJobRow) : IngestionJobRow :=
  if row.attemptCount ≥ maxAttempts then
    { row with
      status := .failed
      completedAt := some now
      updatedAt := now
      errorCode := some "stale_exhausted"
      errorMessage := some
        "Stale RUNNING ingestion job exhausted attempts (worker crash recovery)."
      workerId := none }
  else
    { row with
      status := .queued
      workerId := none
      startedAt := none
      availableAt := now
      updatedAt := now
      errorCode := some "stale_requeued"
      errorMessage := some "Requeued after stale RUNNING (worker crash)." }

/-- Recovery leaves the id. -/
@[simp] theorem recover_id (maxAttempts : Nat) (now : Timestamp) (row : IngestionJobRow) :
    (row.recover maxAttempts now).id = row.id := by
  unfold recover
  split <;> rfl

/-- Recovery leaves the artifact. -/
@[simp] theorem recover_artifactKey (maxAttempts : Nat) (now : Timestamp)
    (row : IngestionJobRow) : (row.recover maxAttempts now).artifactKey = row.artifactKey := by
  unfold recover
  split <;> rfl

/-- A recovered job has failed or is queued again. -/
theorem recover_status (maxAttempts : Nat) (now : Timestamp) (row : IngestionJobRow) :
    (row.recover maxAttempts now).status = .failed ∨
      (row.recover maxAttempts now).status = .queued := by
  unfold recover
  split
  · exact Or.inl rfl
  · exact Or.inr rfl

end IngestionJobRow

namespace IngestionJobs

/-- The row that `enqueue` inserts. -/
def newJob (id submissionId : UUID) (artifactKey : ArtifactKey) (now : Timestamp) :
    IngestionJobRow where
  id := id
  submissionId := submissionId
  artifactKey := artifactKey
  status := .queued
  attemptCount := 0
  workerId := none
  availableAt := now
  startedAt := none
  completedAt := none
  errorCode := none
  errorMessage := none
  resultKey := none
  createdAt := now
  updatedAt := now

/-- Insert a QUEUED job. -/
def enqueue (jobs : IngestionJobs) (id submissionId : UUID) (artifactKey : ArtifactKey)
    (now : Timestamp) : Option IngestionJobs :=
  jobs.insert (newJob id submissionId artifactKey now)

/-- A job is added. -/
theorem mem_of_enqueue {jobs jobs' : IngestionJobs} {id submissionId : UUID}
    {artifactKey : ArtifactKey} {now : Timestamp}
    (h : jobs.enqueue id submissionId artifactKey now = some jobs') {job : IngestionJobRow} :
    job ∈ jobs' ↔ job ∈ jobs ∨ job = newJob id submissionId artifactKey now :=
  Table.mem_of_insert h

/-- A fresh id is not refused. -/
theorem enqueue_ne_none {jobs : IngestionJobs} {id : UUID} (hfresh : ∀ job ∈ jobs, job.id < id)
    (submissionId : UUID) (artifactKey : ArtifactKey) (now : Timestamp) :
    jobs.enqueue id submissionId artifactKey now ≠ none :=
  Table.insert_ne_none (fun job hjob => (hfresh job hjob).ne)

/-- Claim the oldest due job whose row is not locked. -/
def claimNext (jobs : IngestionJobs) (workerId : String) (locked : List UUID)
    (now : Timestamp) : Option (IngestionJobRow × IngestionJobs) :=
  match jobs.orderBy IngestionJobRow.fifoLe (IngestionJobRow.claimable now locked) with
  | [] => none
  | row :: _ =>
      some (row.startRunning workerId now,
        jobs.update (fun other => decide (other.id = row.id))
          (fun other => other.startRunning workerId now) (fun _ => rfl))

/-- A claim takes a queued job. -/
theorem queued_of_claimNext {jobs jobs' : IngestionJobs} {workerId : String} {locked : List UUID}
    {now : Timestamp} {job : IngestionJobRow}
    (h : jobs.claimNext workerId locked now = some (job, jobs')) :
    ∃ row ∈ jobs, row.status = .queued ∧ job = row.startRunning workerId now ∧
      jobs' = jobs.update (fun other => decide (other.id = row.id))
        (fun other => other.startRunning workerId now) (fun _ => rfl) := by
  unfold claimNext at h
  split at h
  · cases h
  · rename_i row rest hqueue
    cases h
    have hmem : row ∈ jobs.orderBy IngestionJobRow.fifoLe
        (IngestionJobRow.claimable now locked) := hqueue ▸ List.mem_cons_self
    obtain ⟨hrow, hclaimable⟩ := Table.mem_orderBy.mp hmem
    exact ⟨row, hrow, (of_decide_eq_true hclaimable).1, rfl, rfl⟩

/-- The guarded row exists, so that `RETURNING` yields it. -/
def owns (jobs : IngestionJobs) (jobId : UUID) (workerId : String) : Bool :=
  jobs.rows.any (IngestionJobRow.ownedBy jobId workerId)

/-- `mark_succeeded`, guarded by ownership. -/
def markSucceeded (jobs : IngestionJobs) (jobId : UUID) (workerId : String)
    (resultKey : BlobKey) (now : Timestamp) : IngestionJobs :=
  jobs.update (IngestionJobRow.ownedBy jobId workerId)
    (fun row =>
      { row with
        status := .succeeded
        resultKey := some resultKey
        completedAt := some now
        updatedAt := now
        errorCode := none
        errorMessage := none })
    (fun _ => rfl)

/-- `error_message[:2000]`. -/
def clipMessage (errorMessage : String) : String :=
  String.ofList (errorMessage.toList.take 2000)

/-- `mark_failed`, guarded by ownership. -/
def markFailed (jobs : IngestionJobs) (jobId : UUID) (workerId : String)
    (errorCode errorMessage : String) (now : Timestamp) : IngestionJobs :=
  jobs.update (IngestionJobRow.ownedBy jobId workerId)
    (fun row =>
      { row with
        status := .failed
        completedAt := some now
        updatedAt := now
        errorCode := some errorCode
        errorMessage := some (clipMessage errorMessage) })
    (fun _ => rfl)

/-- RUNNING → QUEUED for transient failures (attempts already counted). -/
def releaseForRetry (jobs : IngestionJobs) (jobId : UUID) (workerId : String)
    (errorCode errorMessage : String) (delay : Int) (now : Timestamp) : IngestionJobs :=
  jobs.update (IngestionJobRow.ownedBy jobId workerId)
    (fun row =>
      { row with
        status := .queued
        workerId := none
        startedAt := none
        availableAt := now + max 0 delay
        updatedAt := now
        errorCode := some errorCode
        errorMessage := some (clipMessage errorMessage) })
    (fun _ => rfl)

/-- Requeue or fail the stale jobs; the recovered rows, oldest start first. -/
def recoverStaleRunning (jobs : IngestionJobs) (staleBefore : Timestamp) (maxAttempts : Nat)
    (now : Timestamp) : List IngestionJobRow × IngestionJobs :=
  ((jobs.orderBy IngestionJobRow.startedLe (IngestionJobRow.isStale staleBefore)).map
      (IngestionJobRow.recover maxAttempts now),
    jobs.update (IngestionJobRow.isStale staleBefore) (IngestionJobRow.recover maxAttempts now)
      (IngestionJobRow.recover_id maxAttempts now))

end IngestionJobs

end ChallengeForge
