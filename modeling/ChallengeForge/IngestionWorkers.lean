import ChallengeForge.ArtifactProcessing
import ChallengeForge.DocumentChunks
import ChallengeForge.LabelledSystem

/-!
# Ingestion workers

Workers that share the `ingestion_jobs` and `document_chunks` tables and one
blob store.  Every string names a worker, most of them idle for ever, so that
the ids of different workers differ by construction.

A step is one transaction or one call to the storage.  Between the steps of one
worker any other may move; a worker may die at any point and start again.  The
clock, the outcome of a storage call and the text of its exception are part of
the action.
-/

namespace ChallengeForge

open Keyed Labelled

/-- The two blobs `process_artifact` writes for a job. -/
inductive Output
  | canonical
  | result
  deriving DecidableEq

/-- The key of the blob. -/
def Output.key : Output → UUID → BlobKey
  | canonical, jobId => .canonical jobId
  | result, jobId => .result jobId

/-- One call of a cleanup. -/
inductive CleanupCall
  | deleteBlob (output : Output) (jobId : UUID)
  | deleteChunks (jobId : UUID)

/-- `cleanup_partial_result`: the blobs, each best-effort. -/
def cleanupPartialResult (jobId : UUID) : List CleanupCall :=
  [.deleteBlob .result jobId, .deleteBlob .canonical jobId]

/-- `_cleanup_job_outputs`: the blobs, then the chunk rows in a transaction. -/
def cleanupJobOutputs (jobId : UUID) : List CleanupCall :=
  cleanupPartialResult jobId ++ [.deleteChunks jobId]

/-- Where a worker stands in `recover_stale` and `run_once`. -/
inductive WorkerPhase
  | idle
  /-- The claim is committed. -/
  | claimed (job : IngestionJobRow)
  /-- `process_artifact` has chunked the artifact. -/
  | parsed (job : IngestionJobRow) (artifact : ParsedArtifact)
  /-- `canonical.txt` is published. -/
  | canonicalStored (job : IngestionJobRow) (artifact : ParsedArtifact)
  /-- `process_artifact` has returned. -/
  | processed (job : IngestionJobRow) (result : IngestResult)
  /-- A `DeterministicIngestError` is being handled. -/
  | failing (job : IngestionJobRow) (code message : String)
  /-- `_handle_retryable` is about to run. -/
  | retrying (job : IngestionJobRow) (code message : String)
  /-- The calls of a cleanup that are left. -/
  | cleaning (todo : List CleanupCall)

namespace WorkerPhase

/-- The phase that makes the calls of a cleanup. -/
def cleanup : List CleanupCall → WorkerPhase
  | [] => idle
  | todo => cleaning todo

/-- Which handler of `run_once` catches an error. -/
def handling (job : IngestionJobRow) : IngestError → WorkerPhase
  | .deterministic code message => failing job code message
  | .transient code message => retrying job code message
  | .unexpected message => retrying job "executor_error" message

/-- The job a worker works on. -/
def job? : WorkerPhase → Option IngestionJobRow
  | claimed job | parsed job _ | canonicalStored job _ | processed job _
  | failing job _ _ | retrying job _ _ => some job
  | idle | cleaning _ => none

/-- The chunks a worker holds for its job. -/
def chunks? : WorkerPhase → Option (List ChunkDraft)
  | parsed _ artifact | canonicalStored _ artifact => some artifact.chunks
  | processed _ result => some result.chunks
  | _ => none

/-- The worker has written this output of the job. -/
def hasWritten (jobId : UUID) (output : Output) : WorkerPhase → Bool
  | canonicalStored job _ => job.id = jobId ∧ output = .canonical
  | processed job _ => job.id = jobId
  | _ => false

end WorkerPhase

/-- The shared tables and storage, and every worker. -/
structure Ingestion where
  jobs : IngestionJobs
  chunks : DocumentChunks
  storage : Storage
  phase : String → WorkerPhase
  nextUuid : UUID

/-- No job, no chunk and no blob yet. -/
def emptyIngestion : Ingestion := ⟨Table.empty, Table.empty, Storage.empty, fun _ => .idle, 0⟩

/-- What may happen next, and to whom. -/
inductive WorkerAction
  /-- The service publishes an artifact under a fresh key. -/
  | upload (key : ArtifactKey) (blob : Blob)
  /-- The service commits a job. -/
  | enqueue (submissionId : UUID) (key : ArtifactKey) (now : Timestamp)
  | claim (workerId : String) (locked : List UUID) (now : Timestamp)
  /-- Read and chunk the artifact; `raised` is an exception that is not the
  artifact's own. -/
  | parse (workerId : String) (raised : Option String)
  | putCanonical (workerId : String) (outcome : CallOutcome) (message : String)
  | putResult (workerId : String) (outcome : CallOutcome) (message : String)
  /-- The transaction of `replace_for_job` and `mark_succeeded`. -/
  | succeed (workerId : String) (now : Timestamp)
  /-- The transaction that answers a deterministic error. -/
  | fail (workerId : String) (now : Timestamp)
  /-- The transaction of `_handle_retryable`. -/
  | retry (workerId : String) (now : Timestamp)
  /-- The transaction of `recover_stale`, which reads the clock twice. -/
  | recover (workerId : String) (clock now : Timestamp)
  /-- The next call of a cleanup. -/
  | cleanup (workerId : String) (outcome : CallOutcome)
  | die (workerId : String)

namespace Ingestion

/-- A worker moves on. -/
def goto (s : Ingestion) (workerId : String) (phase : WorkerPhase) : Ingestion :=
  { s with phase := Function.update s.phase workerId phase }

/-- An artifact is published; its key was not in use. -/
def upload (s : Ingestion) (key : ArtifactKey) (blob : Blob) : Option Ingestion :=
  if s.storage.blobExists (.artifact key) then none
  else some { s with storage := s.storage.put (.artifact key) blob }

/-- A job is committed for an artifact. -/
def enqueue (s : Ingestion) (submissionId : UUID) (key : ArtifactKey) (now : Timestamp) :
    Option Ingestion :=
  (s.jobs.enqueue s.nextUuid submissionId key now).map (fun jobs =>
    { s with jobs := jobs, nextUuid := s.nextUuid + 1 })

/-- The transaction of `claim_next`. -/
def claim (s : Ingestion) (workerId : String) (locked : List UUID) (now : Timestamp) :
    Option Ingestion :=
  match s.phase workerId with
  | .idle =>
      (s.jobs.claimNext workerId locked now).map (fun claimed =>
        { s with jobs := claimed.2 }.goto workerId (.claimed claimed.1))
  | _ => none

/-- `process_artifact`, up to its first write. -/
def parse (settings : IngestionSettings) (s : Ingestion) (workerId : String)
    (raised : Option String) : Option Ingestion :=
  match s.phase workerId, raised with
  | .claimed job, some message => some (s.goto workerId (.handling job (.unexpected message)))
  | .claimed job, none =>
      match parseArtifact settings job (s.storage.get (.artifact job.artifactKey)) with
      | .error error => some (s.goto workerId (.handling job error))
      | .ok artifact => some (s.goto workerId (.parsed job artifact))
  | _, _ => none

/-- A worker publishes an output; an exception of the storage is retryable. -/
def put (s : Ingestion) (workerId : String) (job : IngestionJobRow) (output : Output)
    (blob : Blob) (outcome : CallOutcome) (message : String) (next : WorkerPhase) : Ingestion :=
  { s with
    storage := if outcome.applied then s.storage.put (output.key job.id) blob
      else s.storage }.goto workerId
    (if outcome = CallOutcome.ok then next else .handling job (.unexpected message))

/-- The write of `canonical.txt`. -/
def putCanonical (s : Ingestion) (workerId : String) (outcome : CallOutcome)
    (message : String) : Option Ingestion :=
  match s.phase workerId with
  | .parsed job artifact =>
      some (s.put workerId job .canonical (canonicalBlob artifact) outcome message
        (.canonicalStored job artifact))
  | _ => none

/-- The write of `result.json`, with which `process_artifact` returns. -/
def putResult (settings : IngestionSettings) (s : Ingestion) (workerId : String)
    (outcome : CallOutcome) (message : String) : Option Ingestion :=
  match s.phase workerId with
  | .canonicalStored job artifact =>
      some (s.put workerId job .result (resultBlob settings job artifact) outcome message
        (.processed job (ingestResult settings job artifact)))
  | _ => none

/-- The transaction aborts when the chunks are refused, and its exception ends
the worker. -/
def succeed (s : Ingestion) (workerId : String) (now : Timestamp) : Option Ingestion :=
  match s.phase workerId with
  | .processed job result =>
      match s.chunks.replaceForJob s.nextUuid job.id job.submissionId job.artifactKey
        result.parserVersion result.chunkerVersion result.chunks now with
      | none => some (s.goto workerId .idle)
      | some chunks =>
          some ({ s with
            chunks := chunks
            jobs := s.jobs.markSucceeded job.id workerId result.resultKey now
            nextUuid := s.nextUuid + result.chunks.length }.goto workerId .idle)
  | _ => none

/-- A failure path: the chunk rows are deleted whoever owns the job, the row is
written if it is owned, and the blobs are cleaned up after the commit. -/
def giveUp (s : Ingestion) (workerId : String) (job : IngestionJobRow) (jobs : IngestionJobs) :
    Ingestion :=
  { s with chunks := s.chunks.deleteForJob job.id, jobs := jobs }.goto workerId
    (.cleanup (cleanupPartialResult job.id))

/-- The transaction of the deterministic handler, and the start of its cleanup. -/
def fail (s : Ingestion) (workerId : String) (now : Timestamp) : Option Ingestion :=
  match s.phase workerId with
  | .failing job code message =>
      some (s.giveUp workerId job (s.jobs.markFailed job.id workerId code message now))
  | _ => none

/-- The transaction of `_handle_retryable`, and the start of its cleanup. -/
def retry (settings : IngestionSettings) (s : Ingestion) (workerId : String)
    (now : Timestamp) : Option Ingestion :=
  match s.phase workerId with
  | .retrying job code message =>
      some (s.giveUp workerId job
        (if job.attemptCount ≥ settings.maxAttempts then
          s.jobs.markFailed job.id workerId code (message ++ " (attempts exhausted)") now
        else
          s.jobs.releaseForRetry job.id workerId code message settings.retryDelay now))
  | _ => none

/-- The transaction of `recover_stale`, and the start of the cleanups of what it requeued.
-/
def recover (settings : IngestionSettings) (s : Ingestion) (workerId : String)
    (clock now : Timestamp) : Option Ingestion :=
  match s.phase workerId with
  | .idle =>
      let recovered := s.jobs.recoverStaleRunning (clock - settings.staleAfter)
        settings.maxAttempts now
      let requeued := recovered.1.filter (fun job => job.status = .queued)
      some ({ s with jobs := recovered.2 }.goto workerId
        (.cleanup ((requeued.map IngestionJobRow.id).flatMap cleanupJobOutputs)))
  | _ => none

/-- The next call of a cleanup.  What a blob delete raises is swallowed; what
the chunk transaction raises ends the worker. -/
def cleanup (s : Ingestion) (workerId : String) (outcome : CallOutcome) : Option Ingestion :=
  match s.phase workerId with
  | .cleaning (.deleteBlob output jobId :: rest) =>
      some ({ s with
        storage := if outcome.applied then s.storage.delete (output.key jobId)
          else s.storage }.goto workerId (.cleanup rest))
  | .cleaning (.deleteChunks jobId :: rest) =>
      some ({ s with
        chunks := if outcome.applied then s.chunks.deleteForJob jobId
          else s.chunks }.goto workerId
        (if outcome = CallOutcome.ok then .cleanup rest else .idle))
  | _ => none

/-- One step; none where the worker stands elsewhere. -/
def step (settings : IngestionSettings) (s : Ingestion) : WorkerAction → Option Ingestion
  | .upload key blob => s.upload key blob
  | .enqueue submissionId key now => s.enqueue submissionId key now
  | .claim workerId locked now => s.claim workerId locked now
  | .parse workerId raised => s.parse settings workerId raised
  | .putCanonical workerId outcome message => s.putCanonical workerId outcome message
  | .putResult workerId outcome message => s.putResult settings workerId outcome message
  | .succeed workerId now => s.succeed workerId now
  | .fail workerId now => s.fail workerId now
  | .retry workerId now => s.retry settings workerId now
  | .recover workerId clock now => s.recover settings workerId clock now
  | .cleanup workerId outcome => s.cleanup workerId outcome
  | .die workerId => some (s.goto workerId .idle)

end Ingestion

/-- The workers, from an empty system on. -/
def ingestionWorkers (settings : IngestionSettings) : System Ingestion WorkerAction where
  start := fun s => s = emptyIngestion
  step := fun s a => s.step settings a

end ChallengeForge
