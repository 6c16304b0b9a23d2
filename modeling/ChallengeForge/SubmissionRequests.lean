import ChallengeForge.LabelledSystem
import ChallengeForge.PythonNumbers
import ChallengeForge.SubmissionStore

/-!
# The submission service

The requests of `SubmissionService` as a system of concurrent processes over
one database and one blob store.  A request that writes runs in steps:

* it reads and checks its row, or looks its idempotency key up, and answers at
  once if there is nothing to do;
* it publishes its blob, if it has one;
* it flushes and commits the row;
* after an exception it deletes the blob again, and after a successful replace
  it deletes the previous one;
* it enqueues the ingestion job of a new artifact in a commit of its own.

Between any two steps other requests run, and the process may die.  Each step
is one call to the database or to the storage, and carries the call's outcome.
`submit` and `cancel` are one conditional UPDATE and its commit.

`uuid4()` is a counter, so that no id is drawn twice.
-/

namespace ChallengeForge

open Keyed Labelled

/-- The settings the service reads, and the encodings it applies to metadata. -/
structure SubmissionConfig where
  metadataMaxBytes : Nat
  artifactMaxBytes : Nat
  ingestionEnabled : Bool
  evaluationProgressiveMode : EvaluationMode
  /-- The length of the compact JSON encoding. -/
  encodedLength : JsonDict → Nat
  /-- The digest of a creation request. -/
  requestFingerprint : UUID → JsonDict → String

/-- An artifact as a request brings it, with the suffix of its file name. -/
structure Upload where
  data : List UInt8
  contentType : Option String
  suffix : String
  deriving DecidableEq

/-- `artifact_content_type or "application/octet-stream"`. -/
def Upload.blob (upload : Upload) : Blob where
  data := upload.data
  contentType :=
    match upload.contentType with
    | none => "application/octet-stream"
    | some contentType =>
        if contentType = "" then "application/octet-stream" else contentType

/-- What a request wants to commit, beside the key of its artifact: a new row,
or new metadata for the row it loaded. -/
inductive Work
  | insert (new : NewSubmission)
  | rewrite (loaded : SubmissionRow) (metadata : JsonDict)
  deriving DecidableEq

/-- The artifact key of the row as it was loaded. -/
def Work.previousKey : Work → Option ArtifactKey
  | .insert _ => none
  | .rewrite loaded _ => loaded.artifactKey

/-- The call a request makes next. -/
inductive Phase
  | publishing
  | committing
  | compensating (integrity : Bool)
  | dropping (submissionId : UUID)
  | enqueueing (submissionId : UUID)
  deriving DecidableEq, Repr

/-- A request in progress. -/
structure Request where
  id : UUID
  work : Work
  upload : Option (ArtifactKey × Blob)
  phase : Phase
  deriving DecidableEq

namespace Request

/-- The key the request publishes its blob under. -/
def newKey (request : Request) : Option ArtifactKey := request.upload.map Prod.fst

/-- The key of the blob the request replaces. -/
def replacedKey (request : Request) : Option ArtifactKey :=
  request.newKey.bind fun new =>
    request.work.previousKey.filter (fun previous => decide (previous ≠ new))

/-- A replaced key was loaded, and is not the new one. -/
theorem previousKey_of_replacedKey {request : Request} {key : ArtifactKey}
    (h : request.replacedKey = some key) :
    request.work.previousKey = some key ∧ ∃ new, request.newKey = some new ∧ new ≠ key := by
  obtain ⟨new, hnew, hfilter⟩ := Option.bind_eq_some_iff.mp h
  obtain ⟨hprevious, hne⟩ := Option.filter_eq_some_iff.mp hfilter
  exact ⟨hprevious, new, hnew, (of_decide_eq_true hne).symm⟩

/-- The row of an edit as the session holds it before the flush. -/
def edited (request : Request) (loaded : SubmissionRow) (metadata : JsonDict) : SubmissionRow :=
  { loaded with
    metadata := metadata
    artifactKey := request.newKey.or loaded.artifactKey }

/-- An edit brings the metadata it was given. -/
@[simp] theorem edited_metadata (request : Request) (loaded : SubmissionRow)
    (metadata : JsonDict) : (request.edited loaded metadata).metadata = metadata := rfl

/-- An edit keeps the artifact key it loaded, unless its request brings one. -/
@[simp] theorem edited_artifactKey (request : Request) (loaded : SubmissionRow)
    (metadata : JsonDict) : (request.edited loaded metadata).artifactKey =
      request.newKey.or loaded.artifactKey := rfl

/-- An edit changes the artifact key only to the new key of its request. -/
theorem newKey_of_edited {request : Request} {loaded : SubmissionRow} {metadata : JsonDict}
    {key : ArtifactKey} (hkey : (request.edited loaded metadata).artifactKey = some key)
    (hne : (request.edited loaded metadata).artifactKey ≠ loaded.artifactKey) :
    request.newKey = some key := by
  rw [edited_artifactKey] at hkey hne
  cases hnew : request.newKey with
  | none => exact absurd (by rw [hnew, Option.none_or]) hne
  | some new => simpa [hnew] using hkey

/-- After the row is committed and the previous blob dropped. -/
def afterDrop (cfg : SubmissionConfig) (request : Request) (submissionId : UUID) :
    Option Phase :=
  if request.newKey.isSome ∧ cfg.ingestionEnabled then some (.enqueueing submissionId) else none

/-- After the row is committed. -/
def afterCommit (cfg : SubmissionConfig) (request : Request) (submissionId : UUID) :
    Option Phase :=
  if request.replacedKey.isSome then some (.dropping submissionId)
  else request.afterDrop cfg submissionId

/-- After a commit that the server has applied. -/
def afterWrite (cfg : SubmissionConfig) (request : Request) (outcome : CallOutcome)
    (submissionId : UUID) : Option Phase :=
  if outcome = .lost then some (.compensating false)
  else request.afterCommit cfg submissionId

/-- After the drop only the enqueueing is left. -/
theorem afterDrop_eq_some {cfg : SubmissionConfig} {request : Request} {submissionId : UUID}
    {next : Phase} (h : request.afterDrop cfg submissionId = some next) :
    next = .enqueueing submissionId := by
  unfold afterDrop at h
  split at h
  · exact (Option.some.inj h).symm
  · cases h

/-- After the commit a request has nothing left to commit. -/
theorem afterWrite_cases {cfg : SubmissionConfig} {request : Request} {outcome : CallOutcome}
    {submissionId : UUID} {next : Phase}
    (h : request.afterWrite cfg outcome submissionId = some next) :
    next = .compensating false ∨ next = .dropping submissionId ∨
      next = .enqueueing submissionId := by
  unfold afterWrite afterCommit afterDrop at h
  repeat' split at h
  all_goals simp_all

end Request

/-- What a client is answered. -/
inductive Reply
  | created (submissionId : UUID) (replayed : Bool)
  | updated (submissionId : UUID)
  | submitted (submissionId evaluationId : UUID)
  | cancelled (submissionId : UUID)
  | refused (error : DomainError)
  | raised
  deriving DecidableEq, Repr

/-- The reply to a request whose row is committed and whose job is queued. -/
def Request.successReply (request : Request) (submissionId : UUID) : Reply :=
  match request.work with
  | .insert _ => .created submissionId false
  | .rewrite _ _ => .updated submissionId

/-- The database, the storage, the requests in progress and the replies sent. -/
structure Service where
  submissions : Submissions
  evaluations : EvaluationDb
  ingestionJobs : IngestionJobs
  storage : Storage
  requests : Table Request Request.id
  replies : List (UUID × Reply)
  nextUuid : UUID

/-- Nothing stored, nothing in progress. -/
def emptyService : Service where
  submissions := Table.empty
  evaluations := ⟨Table.empty, none⟩
  ingestionJobs := Table.empty
  storage := Storage.empty
  requests := Table.empty
  replies := []
  nextUuid := 0

/-! ## Checks -/

/-- Missing metadata is the empty object; its encoding must fit the limit. -/
def validateMetadata (cfg : SubmissionConfig) (metadata : Option JsonDict) :
    Except DomainError JsonDict :=
  let payload := metadata.getD []
  if cfg.encodedLength payload > cfg.metadataMaxBytes then
    .error (.validationFailed "Submission metadata exceeds the size limit.")
  else .ok payload

/-- The metadata of an edited row: validated where the request brings some. -/
def editedMetadata (cfg : SubmissionConfig) (row : SubmissionRow) :
    Option JsonDict → Except DomainError JsonDict
  | some metadata => validateMetadata cfg (some metadata)
  | none => .ok row.metadata

/-- An upload must fit the limit; a request without one passes. -/
def checkArtifactSize (cfg : SubmissionConfig) (upload : Option Upload) :
    Except DomainError Unit :=
  if upload.any (fun u => decide (u.data.length > cfg.artifactMaxBytes)) then
    .error (.validationFailed "Artifact exceeds the size limit.")
  else .ok ()

/-- `(idempotency_key or "").strip() or None`. -/
def normalizedKey (idempotencyKey : Option String) : Option String :=
  let key := String.ofList (strip (idempotencyKey.getD "").toList)
  if key = "" then none else some key

/-- A key that is in use is replayed to the same request and refused to any other.  Rows
without a stored fingerprint are compared by the one of their contents. -/
def replayOrConflict (cfg : SubmissionConfig) (existing : SubmissionRow)
    (requestFingerprint : String) : Reply :=
  let stored := existing.requestFingerprint.getD
    (cfg.requestFingerprint existing.challengeId existing.metadata)
  if stored ≠ requestFingerprint then
    .refused (.conflict
      "Idempotency-Key is already associated with a different submission request.")
  else .created existing.id true

/-- The declared class, or LIGHT for whatever is no class. -/
def parseWorkloadClass (raw : Option Json) : WorkloadClass :=
  match raw with
  | some (.str text) =>
      let word := String.ofList ((strip text.toList).map Char.toLower)
      if word = "medium" then .medium else if word = "heavy" then .heavy else .light
  | _ => .light

/-- The evaluation mode a submission's metadata asks for, or the configured one. -/
def evaluationModeFor (cfg : SubmissionConfig) (raw : Option Json) : EvaluationMode :=
  match raw with
  | some (.str "legacy") => .legacy
  | some (.str "always_expensive") => .alwaysExpensive
  | some (.str "fixed_progressive") => .fixedProgressive
  | some (.str "resource_aware_adaptive") => .resourceAwareAdaptive
  | some (.str "synthetic_execution") => .syntheticExecution
  | _ => cfg.evaluationProgressiveMode

/-- `utcnow() + timedelta(seconds=float(raw))` of a raw deadline that is not `None`;
a `TypeError` or `ValueError` on the way is caught. -/
def deadlineAt (raw : Option Json) (now : Timestamp) : Except CoercionError (Option Timestamp) :=
  match raw with
  | none | some .null => .ok none
  | some value =>
      match floatOf value >>= timedeltaOfSeconds >>= addSpan now with
      | .ok deadline => .ok (some deadline)
      | .error .typeError | .error .valueError => .ok none
      | .error .overflowError => .error .overflowError

/-- `create_queued` for a submission that has just left CREATED, unless the deadline
raises. -/
def queueEvaluation (cfg : SubmissionConfig) (db : EvaluationDb) (evaluationId : UUID)
    (row : SubmissionRow) (now : Timestamp) : Option EvaluationDb :=
  match deadlineAt (row.metadata.get? "evaluation_deadline_seconds") now with
  | .error _ => none
  | .ok deadline =>
      db.createQueued evaluationId row.id
        (parseWorkloadClass (row.metadata.get? "workload_class"))
        (evaluationModeFor cfg (row.metadata.get? "evaluation_mode")) deadline 0 now

/-- A queued evaluation is one that `create_queued` inserts. -/
theorem createQueued_of_queueEvaluation {cfg : SubmissionConfig} {db db' : EvaluationDb}
    {evaluationId : UUID} {row : SubmissionRow} {now : Timestamp}
    (h : queueEvaluation cfg db evaluationId row now = some db') :
    ∃ deadline, db.createQueued evaluationId row.id
      (parseWorkloadClass (row.metadata.get? "workload_class"))
      (evaluationModeFor cfg (row.metadata.get? "evaluation_mode")) deadline 0 now =
        some db' := by
  unfold queueEvaluation at h
  split at h
  · cases h
  · rename_i deadline _
    exact ⟨deadline, h⟩

namespace Service

/-- A created submission's row, for its owner. -/
def getEditable (s : Service) (actor : Actor) (submissionId : UUID) :
    Except DomainError SubmissionRow :=
  match s.submissions.find? submissionId with
  | none => .error (.notFound "Submission not found.")
  | some row =>
      if row.participantId ≠ actor.id then
        .error (.permissionDenied "You cannot modify this submission.")
      else if row.status ≠ .created then
        .error (.validationFailed "Only submissions in CREATED can be updated.")
      else .ok row

/-! ## Bookkeeping of requests -/

/-- A request that is answered at once. -/
def answer (s : Service) (reply : Reply) : Service :=
  { s with
    replies := (s.nextUuid, reply) :: s.replies
    nextUuid := s.nextUuid + 1 }

/-- The key a request that starts now draws for its artifact. -/
def drawKey (s : Service) (challengeId actorId : UUID) (upload : Upload) : ArtifactKey where
  challengeId := challengeId
  actorId := actorId
  uploadId := s.nextUuid + 1
  suffix := upload.suffix

/-- A request that goes on to write. -/
def startRequest (s : Service) (work : Work) (upload : Option (ArtifactKey × Blob)) :
    Option Service :=
  (s.requests.insert
    { id := s.nextUuid
      work := work
      upload := upload
      phase := if upload.isSome then .publishing else .committing }).map
    fun requests => { s with requests := requests, nextUuid := s.nextUuid + 2 }

/-- The request moves on to its next call, or is over with a reply. -/
def proceed (s : Service) (request : Request) (phase : Option Phase) (reply : Reply) :
    Service :=
  match phase with
  | some phase =>
      { s with
        requests := s.requests.update (fun other => decide (other.id = request.id))
          (fun other => { other with phase := phase }) (fun _ => rfl) }
  | none =>
      { s with
        requests := s.requests.delete (fun other => decide (other.id = request.id))
        replies := (request.id, reply) :: s.replies }

/-! ## The first step of each request -/

/-- The checks of `create`, up to the row it would insert. -/
def checkCreate (cfg : SubmissionConfig) (s : Service) (actor : Actor) (challengeId : UUID)
    (metadata : Option JsonDict) (idempotencyKey : Option String) (upload : Option Upload)
    (gate : Except DomainError Unit) : Except Reply NewSubmission := do
  (requireParticipant actor).mapError Reply.refused
  let payload ← (validateMetadata cfg metadata).mapError Reply.refused
  let key := normalizedKey idempotencyKey
  let fingerprint := key.map (fun _ => cfg.requestFingerprint challengeId payload)
  match key.bind (s.submissions.findByIdempotency actor.id) with
  | some existing =>
      throw (replayOrConflict cfg existing (cfg.requestFingerprint challengeId payload))
  | none =>
      -- what the locking read of the challenge and its hackathon decides
      gate.mapError Reply.refused
      (checkArtifactSize cfg upload).mapError Reply.refused
      return { challengeId := challengeId
               participantId := actor.id
               metadata := payload
               idempotencyKey := key
               requestFingerprint := fingerprint }

/-- `create`: the checks, the key lookup, and the start of a request that inserts. -/
def create (cfg : SubmissionConfig) (s : Service) (actor : Actor) (challengeId : UUID)
    (metadata : Option JsonDict) (idempotencyKey : Option String) (upload : Option Upload)
    (gate : Except DomainError Unit) : Option Service :=
  match s.checkCreate cfg actor challengeId metadata idempotencyKey upload gate with
  | .error reply => some (s.answer reply)
  | .ok new =>
      s.startRequest (.insert new) (upload.map fun u => (s.drawKey challengeId actor.id u, u.blob))

/-- The checks of an edit: the row as loaded, and its metadata as edited. -/
def checkUpdate (cfg : SubmissionConfig) (s : Service) (actor : Actor) (submissionId : UUID)
    (metadata : Option JsonDict) (upload : Option Upload) :
    Except DomainError (SubmissionRow × JsonDict) := do
  let row ← s.getEditable actor submissionId
  let payload ← editedMetadata cfg row metadata
  checkArtifactSize cfg upload
  return (row, payload)

/-- `update_created`: the checks, and the start of a request that rewrites the row. -/
def updateCreated (cfg : SubmissionConfig) (s : Service) (actor : Actor) (submissionId : UUID)
    (metadata : Option JsonDict) (upload : Option Upload) : Option Service :=
  match s.checkUpdate cfg actor submissionId metadata upload with
  | .error e => some (s.answer (.refused e))
  | .ok (loaded, payload) =>
      s.startRequest (.rewrite loaded payload)
        (upload.map fun u => (s.drawKey loaded.challengeId actor.id u, u.blob))

/-- Finalize a staged upload into a durable artifact key (blob-first). -/
def attachIncoming (cfg : SubmissionConfig) (s : Service) (actor : Actor) (submissionId : UUID)
    (incoming : Upload) : Option Service :=
  match s.checkUpdate cfg actor submissionId none (some incoming) with
  | .error e => some (s.answer (.refused e))
  | .ok (loaded, payload) =>
      s.startRequest (.rewrite loaded payload)
        (some (s.drawKey loaded.challengeId actor.id incoming, incoming.blob))

/-- CREATED → SUBMITTED and a QUEUED evaluation, in one transaction. -/
def submit (cfg : SubmissionConfig) (s : Service) (actor : Actor) (submissionId : UUID)
    (outcome : CallOutcome) (now : Timestamp) : Option Service :=
  match requireParticipant actor with
  | .error e => some (s.answer (.refused e))
  | .ok () =>
      match s.submissions.transitionIfCreated submissionId actor.id .submitted now with
      | some (row, submissions) =>
          let evaluationId := s.nextUuid + 1
          let queued := queueEvaluation cfg s.evaluations evaluationId row now
          match queued, outcome with
          | none, _ => some (s.answer .raised)
          | some _, .failed => some (s.answer .raised)
          | some evaluations, outcome =>
              let reply := if outcome = .ok then .submitted row.id evaluationId else .raised
              some
                { s.answer reply with
                  submissions := submissions
                  evaluations := evaluations
                  nextUuid := s.nextUuid + 2 }
      | none =>
          match s.submissions.find? submissionId with
          | none => some (s.answer (.refused (.notFound "Submission not found.")))
          | some current =>
              if current.participantId ≠ actor.id then
                some (s.answer
                  (.refused (.permissionDenied "You cannot change this submission.")))
              else if current.status = .submitted then
                match s.evaluations.evaluations.rows.find?
                    (fun row => decide (row.submissionId = submissionId)) with
                | none => some (s.answer (.refused (.conflict
                    ("Submission is submitted but has no evaluation; " ++
                      "this violates the product invariant."))))
                | some evaluation => some (s.answer (.submitted current.id evaluation.id))
              else
                some (s.answer (.refused (.invalidStateTransition
                  ("Cannot transition submission from " ++ current.status.value ++ " to " ++
                    SubmissionStatus.submitted.value ++ "."))))

/-- CREATED → CANCELLED. -/
def cancel (s : Service) (actor : Actor) (submissionId : UUID) (outcome : CallOutcome)
    (now : Timestamp) : Option Service :=
  match s.submissions.transitionIfCreated submissionId actor.id .cancelled now, outcome with
  | some _, .failed => some (s.answer .raised)
  | some (row, submissions), outcome =>
      let reply := if outcome = .ok then .cancelled row.id else .raised
      some { s.answer reply with submissions := submissions }
  | none, _ =>
      match s.submissions.find? submissionId with
      | none => some (s.answer (.refused (.notFound "Submission not found.")))
      | some current =>
          if current.participantId ≠ actor.id then
            some (s.answer (.refused (.permissionDenied "You cannot change this submission.")))
          else
            some (s.answer (.refused (.invalidStateTransition
              ("Cannot transition submission from " ++ current.status.value ++ " to " ++
                SubmissionStatus.cancelled.value ++ "."))))

/-! ## The later steps -/

/-- `storage.put` of the new blob. -/
def publish (s : Service) (request : Request) (outcome : CallOutcome) : Option Service :=
  match request.phase, request.upload with
  | .publishing, some (key, blob) =>
      let storage := if outcome.applied then s.storage.put (.artifact key) blob else s.storage
      let next := if outcome = CallOutcome.ok then some Phase.committing else none
      some ({ s with storage := storage }.proceed request next .raised)
  | _, _ => none

/-- The flush and the commit of the row. -/
def commit (cfg : SubmissionConfig) (s : Service) (request : Request) (outcome : CallOutcome)
    (now : Timestamp) : Option Service :=
  if request.phase ≠ .committing then none
  else if outcome = .failed then
    some (s.proceed request (some (.compensating false)) .raised)
  else
    match request.work with
    | .insert new =>
        match s.submissions.add s.nextUuid new request.newKey now with
        | none => some (s.proceed request (some (.compensating true)) .raised)
        | some submissions =>
            some ({ s with submissions := submissions, nextUuid := s.nextUuid + 1 }.proceed
              request (request.afterWrite cfg outcome s.nextUuid)
              (request.successReply s.nextUuid))
    | .rewrite loaded metadata =>
        some ({ s with
            submissions :=
              s.submissions.flushEdit loaded (request.edited loaded metadata) now }.proceed
          request (request.afterWrite cfg outcome loaded.id) (request.successReply loaded.id))

/-- `compensate_delete` of a key, if there is one. -/
def deleteArtifact (s : Service) (key : Option ArtifactKey) (outcome : CallOutcome) : Service :=
  match key, outcome.applied with
  | some key, true => { s with storage := s.storage.delete (.artifact key) }
  | _, _ => s

/-- What a request answers once its commit has raised and its blob is deleted. -/
def failureReply (cfg : SubmissionConfig) (s : Service) (request : Request)
    (integrity : Bool) : Reply :=
  match request.work, integrity with
  | .insert new, true =>
      match s.submissions.findExisting new with
      | some existing =>
          replayOrConflict cfg existing (cfg.requestFingerprint new.challengeId new.metadata)
      | none => .raised
  | _, _ => .raised

/-- The compensating delete after an exception. -/
def compensate (cfg : SubmissionConfig) (s : Service) (request : Request)
    (outcome : CallOutcome) : Option Service :=
  match request.phase with
  | .compensating integrity =>
      some ((s.deleteArtifact request.newKey outcome).proceed request none
        (s.failureReply cfg request integrity))
  | _ => none

/-- Successful replace: drop the previous blob (best-effort). -/
def drop (cfg : SubmissionConfig) (s : Service) (request : Request) (outcome : CallOutcome) :
    Option Service :=
  match request.phase with
  | .dropping submissionId =>
      some ((s.deleteArtifact request.replacedKey outcome).proceed request
        (request.afterDrop cfg submissionId) (request.successReply submissionId))
  | _ => none

/-- The ingestion job of the new artifact, in a commit of its own. -/
def enqueue (s : Service) (request : Request) (outcome : CallOutcome) (now : Timestamp) :
    Option Service :=
  match request.phase, request.newKey with
  | .enqueueing submissionId, some key =>
      match s.ingestionJobs.enqueue s.nextUuid submissionId key now, outcome with
      | none, _ => some (s.proceed request none .raised)
      | some _, .failed => some (s.proceed request none .raised)
      | some jobs, outcome =>
          let reply := if outcome = CallOutcome.ok then request.successReply submissionId
            else .raised
          some ({ s with ingestionJobs := jobs, nextUuid := s.nextUuid + 1 }.proceed request none
            reply)
  | _, _ => none

/-- The process serving the request dies. -/
def die (s : Service) (request : Request) : Service :=
  { s with requests := s.requests.delete (fun other => decide (other.id = request.id)) }

end Service

/-- A request arrives, or a request in progress makes its next call, or its
process dies. -/
inductive ServiceAction
  | create (actor : Actor) (challengeId : UUID) (metadata : Option JsonDict)
      (idempotencyKey : Option String) (upload : Option Upload)
      (gate : Except DomainError Unit)
  | updateCreated (actor : Actor) (submissionId : UUID) (metadata : Option JsonDict)
      (upload : Option Upload)
  | attachIncoming (actor : Actor) (submissionId : UUID) (incoming : Upload)
  | submit (actor : Actor) (submissionId : UUID) (outcome : CallOutcome) (now : Timestamp)
  | cancel (actor : Actor) (submissionId : UUID) (outcome : CallOutcome) (now : Timestamp)
  | publish (requestId : UUID) (outcome : CallOutcome)
  | commit (requestId : UUID) (outcome : CallOutcome) (now : Timestamp)
  | compensate (requestId : UUID) (outcome : CallOutcome)
  | drop (requestId : UUID) (outcome : CallOutcome)
  | enqueue (requestId : UUID) (outcome : CallOutcome) (now : Timestamp)
  | die (requestId : UUID)

namespace Service

/-- A call of a client, or the next call of a request in progress. -/
def step (cfg : SubmissionConfig) (s : Service) : ServiceAction → Option Service
  | .create actor challengeId metadata idempotencyKey upload gate =>
      s.create cfg actor challengeId metadata idempotencyKey upload gate
  | .updateCreated actor submissionId metadata upload =>
      s.updateCreated cfg actor submissionId metadata upload
  | .attachIncoming actor submissionId incoming =>
      s.attachIncoming cfg actor submissionId incoming
  | .submit actor submissionId outcome now => s.submit cfg actor submissionId outcome now
  | .cancel actor submissionId outcome now => s.cancel actor submissionId outcome now
  | .publish id outcome => (s.requests.find? id).bind (fun r => s.publish r outcome)
  | .commit id outcome now => (s.requests.find? id).bind (fun r => s.commit cfg r outcome now)
  | .compensate id outcome => (s.requests.find? id).bind (fun r => s.compensate cfg r outcome)
  | .drop id outcome => (s.requests.find? id).bind (fun r => s.drop cfg r outcome)
  | .enqueue id outcome now => (s.requests.find? id).bind (fun r => s.enqueue r outcome now)
  | .die id => (s.requests.find? id).map s.die

end Service

/-! ## What a step does -/

namespace Service

variable {cfg : SubmissionConfig} {s s' : Service}

section DeleteArtifact

variable {key : Option ArtifactKey} {outcome : CallOutcome}

/-- Deleting a blob leaves the rows alone. -/
@[simp] theorem deleteArtifact_submissions :
    (s.deleteArtifact key outcome).submissions = s.submissions := by
  unfold deleteArtifact
  split <;> rfl

/-- Deleting a blob leaves the ingestion jobs alone. -/
@[simp] theorem deleteArtifact_ingestionJobs :
    (s.deleteArtifact key outcome).ingestionJobs = s.ingestionJobs := by
  unfold deleteArtifact
  split <;> rfl

/-- Deleting a blob leaves the requests alone. -/
@[simp] theorem deleteArtifact_requests :
    (s.deleteArtifact key outcome).requests = s.requests := by
  unfold deleteArtifact
  split <;> rfl

/-- Deleting a blob draws no id. -/
@[simp] theorem deleteArtifact_nextUuid :
    (s.deleteArtifact key outcome).nextUuid = s.nextUuid := by
  unfold deleteArtifact
  split <;> rfl

/-- A delete leaves every other blob. -/
theorem blobExists_deleteArtifact {other : ArtifactKey} (hne : key ≠ some other) :
    (s.deleteArtifact key outcome).storage.blobExists (.artifact other) =
      s.storage.blobExists (.artifact other) := by
  unfold deleteArtifact
  split
  · rename_i key' _
    refine Storage.blobExists_delete_of_ne (fun hsame => hne ?_)
    rw [BlobKey.artifact.inj hsame]
  · rfl

/-- After a delete that took effect the blob is gone. -/
theorem not_blobExists_deleteArtifact {deleted : ArtifactKey} (happlied : outcome ≠ .failed) :
    (s.deleteArtifact (some deleted) outcome).storage.blobExists (.artifact deleted) = false := by
  have htrue : outcome.applied = true := by
    cases outcome <;> simp [CallOutcome.applied] at happlied ⊢
  simp [deleteArtifact, htrue]

end DeleteArtifact

section Proceed

variable {request other : Request} {phase : Option Phase} {reply : Reply}

/-- Moving a request on leaves the rows alone. -/
@[simp] theorem proceed_submissions :
    (s.proceed request phase reply).submissions = s.submissions := by
  cases phase <;> rfl

/-- Moving a request on leaves the ingestion jobs alone. -/
@[simp] theorem proceed_ingestionJobs :
    (s.proceed request phase reply).ingestionJobs = s.ingestionJobs := by
  cases phase <;> rfl

/-- Moving a request on leaves the storage alone. -/
@[simp] theorem proceed_storage :
    (s.proceed request phase reply).storage = s.storage := by
  cases phase <;> rfl

/-- Moving a request on draws no id. -/
@[simp] theorem proceed_nextUuid :
    (s.proceed request phase reply).nextUuid = s.nextUuid := by
  cases phase <;> rfl

/-- The requests in progress after one of them has moved on. -/
theorem mem_proceed (hrequest : request ∈ s.requests) :
    other ∈ (s.proceed request phase reply).requests ↔
      (other ∈ s.requests ∧ other.id ≠ request.id) ∨
      ∃ next, phase = some next ∧ other = { request with phase := next } := by
  cases phase with
  | none => simp [proceed]
  | some next =>
      simp only [proceed, Table.mem_update, Option.some.injEq, exists_eq_left']
      constructor
      · intro hmoved
        obtain ⟨before, hbefore, hother⟩ := hmoved
        by_cases hid : before.id = request.id
        · obtain rfl := Table.eq_of_key_eq hbefore hrequest hid
          right
          simpa using hother.symm
        · left
          simp only [hid, decide_false, Bool.false_eq_true, if_false] at hother
          exact hother ▸ ⟨hbefore, hid⟩
      · intro hcases
        rcases hcases with ⟨hother, hid⟩ | rfl
        · exact ⟨other, hother, by simp [hid]⟩
        · exact ⟨request, hrequest, by simp⟩

/-- The requests in progress after one has started. -/
theorem mem_startRequest {work : Work} {upload : Option (ArtifactKey × Blob)}
    (hstart : s.startRequest work upload = some s') :
    (∀ other, other ∈ s'.requests ↔ other ∈ s.requests ∨
      other = ⟨s.nextUuid, work, upload,
        if upload.isSome then .publishing else .committing⟩) ∧
    s'.submissions = s.submissions ∧ s'.ingestionJobs = s.ingestionJobs ∧
    s'.storage = s.storage ∧ s'.nextUuid = s.nextUuid + 2 := by
  obtain ⟨requests, hinsert, rfl⟩ := Option.map_eq_some_iff.mp hstart
  exact ⟨fun other => Table.mem_of_insert hinsert, rfl, rfl, rfl, rfl⟩

end Proceed

/-- What a step of the service can do. -/
inductive Effect (cfg : SubmissionConfig) (s : Service) : ServiceAction → Service → Prop
  /-- A request is answered at once. -/
  | answered {a} (reply : Reply) : Effect cfg s a (s.answer reply)
  /-- A request starts, with the row it has loaded and a key of its own. -/
  | started {a s' work upload} (hstart : s.startRequest work upload = some s')
      (hloaded : ∀ loaded metadata, work = .rewrite loaded metadata → loaded ∈ s.submissions)
      (hfresh : ∀ key blob, upload = some (key, blob) → key.uploadId = s.nextUuid + 1) :
      Effect cfg s a s'
  /-- A submission leaves CREATED. -/
  | transitioned {a s' row submissionId participantId target now}
      (hrow : s.submissions.transitionIfCreated submissionId participantId target now =
        some (row, s'.submissions))
      (htarget : target ≠ .created) (hjobs : s'.ingestionJobs = s.ingestionJobs)
      (hstorage : s'.storage = s.storage) (hrequests : s'.requests = s.requests)
      (huuid : s.nextUuid ≤ s'.nextUuid) : Effect cfg s a s'
  | published {request key blob outcome} (hrequest : request ∈ s.requests)
      (hphase : request.phase = .publishing) (hupload : request.upload = some (key, blob)) :
      Effect cfg s (.publish request.id outcome)
        ({ s with
            storage :=
              if outcome.applied then s.storage.put (.artifact key) blob
              else s.storage }.proceed request
          (if outcome = CallOutcome.ok then some .committing else none) .raised)
  /-- A commit raises and nothing is applied. -/
  | rejected {request outcome now} (integrity : Bool) (hrequest : request ∈ s.requests)
      (hphase : request.phase = .committing)
      (hnot : outcome = .failed ∨ ∃ new, request.work = .insert new ∧
        s.submissions.add s.nextUuid new request.newKey now = none) :
      Effect cfg s (.commit request.id outcome now)
        (s.proceed request (some (.compensating integrity)) .raised)
  | inserted {request outcome now new submissions} (hrequest : request ∈ s.requests)
      (hphase : request.phase = .committing) (happlied : outcome ≠ .failed)
      (hwork : request.work = .insert new)
      (hadd : s.submissions.add s.nextUuid new request.newKey now = some submissions) :
      Effect cfg s (.commit request.id outcome now)
        ({ s with submissions := submissions, nextUuid := s.nextUuid + 1 }.proceed request
          (request.afterWrite cfg outcome s.nextUuid) (request.successReply s.nextUuid))
  | flushed {request outcome now loaded metadata} (hrequest : request ∈ s.requests)
      (hphase : request.phase = .committing) (happlied : outcome ≠ .failed)
      (hwork : request.work = .rewrite loaded metadata) :
      Effect cfg s (.commit request.id outcome now)
        ({ s with
            submissions :=
              s.submissions.flushEdit loaded (request.edited loaded metadata) now }.proceed
          request (request.afterWrite cfg outcome loaded.id) (request.successReply loaded.id))
  | compensated {request outcome integrity} (reply : Reply) (hrequest : request ∈ s.requests)
      (hphase : request.phase = .compensating integrity) :
      Effect cfg s (.compensate request.id outcome)
        ((s.deleteArtifact request.newKey outcome).proceed request none reply)
  | dropped {request outcome submissionId} (hrequest : request ∈ s.requests)
      (hphase : request.phase = .dropping submissionId) :
      Effect cfg s (.drop request.id outcome)
        ((s.deleteArtifact request.replacedKey outcome).proceed request
          (request.afterDrop cfg submissionId) (request.successReply submissionId))
  | enqueued {request outcome now key submissionId jobs} (reply : Reply)
      (hrequest : request ∈ s.requests) (hkey : request.newKey = some key)
      (hjobs : s.ingestionJobs.enqueue s.nextUuid submissionId key now = some jobs) :
      Effect cfg s (.enqueue request.id outcome now)
        ({ s with ingestionJobs := jobs, nextUuid := s.nextUuid + 1 }.proceed request none reply)
  | unqueued {request outcome now key submissionId} (hrequest : request ∈ s.requests)
      (hkey : request.newKey = some key)
      (hnot : outcome = .failed ∨
        s.ingestionJobs.enqueue s.nextUuid submissionId key now = none) :
      Effect cfg s (.enqueue request.id outcome now) (s.proceed request none .raised)
  | died {request} (hrequest : request ∈ s.requests) :
      Effect cfg s (.die request.id) (s.die request)

/-- A row that passes the checks of an edit is in the table, and the actor's. -/
theorem of_getEditable {actor : Actor} {submissionId : UUID} {row : SubmissionRow}
    (h : s.getEditable actor submissionId = .ok row) :
    row ∈ s.submissions ∧ row.participantId = actor.id := by
  unfold getEditable at h
  split at h
  · simp at h
  · rename_i found hfound
    split at h
    · simp at h
    rename_i howner
    split at h
    · simp at h
    obtain rfl := Except.ok.inj h
    exact ⟨Table.mem_of_find? hfound, not_not.mp howner⟩

/-- What the checks of an edit let through is a stored row of the actor's. -/
theorem of_checkUpdate {actor : Actor} {submissionId : UUID} {metadata : Option JsonDict}
    {upload : Option Upload} {loaded : SubmissionRow} {payload : JsonDict}
    (h : s.checkUpdate cfg actor submissionId metadata upload = .ok (loaded, payload)) :
    loaded ∈ s.submissions ∧ loaded.participantId = actor.id := by
  unfold checkUpdate at h
  obtain ⟨row, hrow, h⟩ := except_bind_eq_ok h
  obtain ⟨payload', -, h⟩ := except_bind_eq_ok h
  obtain ⟨u, -, h⟩ := except_bind_eq_ok h
  obtain ⟨rfl, -⟩ := Prod.mk.inj (Except.ok.inj h)
  exact of_getEditable hrow

/-- A creation answers at once, or starts a request. -/
theorem create_effect {actor : Actor} {challengeId : UUID} {metadata : Option JsonDict}
    {idempotencyKey : Option String} {upload : Option Upload} {gate : Except DomainError Unit}
    {a : ServiceAction}
    (h : s.create cfg actor challengeId metadata idempotencyKey upload gate = some s') :
    Effect cfg s a s' := by
  unfold create at h
  split at h
  · obtain rfl := Option.some.inj h
    exact .answered _
  · refine .started h (by simp) ?_
    intro key blob hupload
    obtain ⟨u, -, hdrawn⟩ := Option.map_eq_some_iff.mp hupload
    cases hdrawn
    rfl

/-- So does an edit. -/
theorem updateCreated_effect {actor : Actor} {submissionId : UUID}
    {metadata : Option JsonDict} {upload : Option Upload} {a : ServiceAction}
    (h : s.updateCreated cfg actor submissionId metadata upload = some s') :
    Effect cfg s a s' := by
  unfold updateCreated at h
  split at h
  · obtain rfl := Option.some.inj h
    exact .answered _
  · rename_i loaded payload hcheck
    refine .started h ?_ ?_
    · intro loaded' metadata' hwork
      obtain ⟨rfl, -⟩ := Work.rewrite.inj hwork
      exact (of_checkUpdate hcheck).1
    · intro key blob hupload
      obtain ⟨u, -, hdrawn⟩ := Option.map_eq_some_iff.mp hupload
      cases hdrawn
      rfl

/-- And so does attaching a file. -/
theorem attachIncoming_effect {actor : Actor} {submissionId : UUID} {incoming : Upload}
    {a : ServiceAction} (h : s.attachIncoming cfg actor submissionId incoming = some s') :
    Effect cfg s a s' := by
  unfold attachIncoming at h
  split at h
  · obtain rfl := Option.some.inj h
    exact .answered _
  · rename_i loaded payload hcheck
    refine .started h ?_ ?_
    · intro loaded' metadata' hwork
      obtain ⟨rfl, -⟩ := Work.rewrite.inj hwork
      exact (of_checkUpdate hcheck).1
    · intro key blob hupload
      cases hupload
      rfl

/-- A submit is answered at once, or commits the row and its evaluation. -/
theorem submit_cases {actor : Actor} {submissionId : UUID} {outcome : CallOutcome}
    {now : Timestamp} (h : s.submit cfg actor submissionId outcome now = some s') :
    (∃ reply, s' = s.answer reply) ∨
      ∃ row submissions evaluations reply,
        s.submissions.transitionIfCreated submissionId actor.id .submitted now =
          some (row, submissions) ∧
        queueEvaluation cfg s.evaluations (s.nextUuid + 1) row now = some evaluations ∧
        s' = { s.answer reply with
          submissions := submissions
          evaluations := evaluations
          nextUuid := s.nextUuid + 2 } := by
  unfold submit at h
  split at h
  · exact Or.inl ⟨_, (Option.some.inj h).symm⟩
  split at h
  · rename_i row submissions hrow
    dsimp only at h
    split at h
    · exact Or.inl ⟨_, (Option.some.inj h).symm⟩
    · exact Or.inl ⟨_, (Option.some.inj h).symm⟩
    · rename_i evaluations hqueued _
      exact Or.inr ⟨row, submissions, evaluations, _, hrow, hqueued, (Option.some.inj h).symm⟩
  · repeat' split at h
    all_goals exact Or.inl ⟨_, (Option.some.inj h).symm⟩

/-- A cancel is answered at once, or commits the row. -/
theorem cancel_cases {actor : Actor} {submissionId : UUID} {outcome : CallOutcome}
    {now : Timestamp} (h : s.cancel actor submissionId outcome now = some s') :
    (∃ reply, s' = s.answer reply) ∨
      ∃ row submissions reply,
        s.submissions.transitionIfCreated submissionId actor.id .cancelled now =
          some (row, submissions) ∧
        s' = { s.answer reply with submissions := submissions } := by
  unfold cancel at h
  split at h
  · exact Or.inl ⟨_, (Option.some.inj h).symm⟩
  · rename_i row submissions hrow _
    exact Or.inr ⟨row, submissions, _, hrow, (Option.some.inj h).symm⟩
  · repeat' split at h
    all_goals exact Or.inl ⟨_, (Option.some.inj h).symm⟩

/-- A submit answers, and changes the row and the queue when it commits. -/
theorem submit_effect {actor : Actor} {submissionId : UUID} {outcome : CallOutcome}
    {now : Timestamp} {a : ServiceAction}
    (h : s.submit cfg actor submissionId outcome now = some s') : Effect cfg s a s' := by
  rcases submit_cases h with ⟨reply, rfl⟩ | ⟨row, submissions, evaluations, reply, hrow, _, rfl⟩
  · exact .answered reply
  · exact .transitioned hrow (by decide) rfl rfl rfl (Nat.le_add_right _ 2)

/-- A cancel answers, and changes the row when it commits. -/
theorem cancel_effect {actor : Actor} {submissionId : UUID} {outcome : CallOutcome}
    {now : Timestamp} {a : ServiceAction}
    (h : s.cancel actor submissionId outcome now = some s') : Effect cfg s a s' := by
  rcases cancel_cases h with ⟨reply, rfl⟩ | ⟨row, submissions, reply, hrow, rfl⟩
  · exact .answered reply
  · exact .transitioned hrow (by decide) rfl rfl rfl (Nat.le_add_right _ 1)

/-- A request that publishes stores its blob and moves on, or ends. -/
theorem publish_effect {request : Request} {outcome : CallOutcome}
    (hrequest : request ∈ s.requests) (h : s.publish request outcome = some s') :
    Effect cfg s (.publish request.id outcome) s' := by
  unfold publish at h
  split at h
  · rename_i key blob hphase hupload
    obtain rfl := Option.some.inj h
    exact .published hrequest hphase hupload
  · simp at h

/-- A request that commits writes its row and moves on, or starts to compensate. -/
theorem commit_effect {request : Request} {outcome : CallOutcome} {now : Timestamp}
    (hrequest : request ∈ s.requests) (h : s.commit cfg request outcome now = some s') :
    Effect cfg s (.commit request.id outcome now) s' := by
  unfold commit at h
  split at h
  · simp at h
  rename_i hphase
  rw [not_not] at hphase
  split at h
  · rename_i hfailed
    obtain rfl := Option.some.inj h
    exact .rejected false hrequest hphase (Or.inl hfailed)
  rename_i happlied
  split at h
  · rename_i new hwork
    split at h
    · rename_i hadd
      obtain rfl := Option.some.inj h
      exact .rejected true hrequest hphase (Or.inr ⟨new, hwork, hadd⟩)
    · rename_i submissions hadd
      obtain rfl := Option.some.inj h
      exact .inserted hrequest hphase happlied hwork hadd
  · rename_i loaded metadata hwork
    obtain rfl := Option.some.inj h
    exact .flushed hrequest hphase happlied hwork

/-- A request that enqueues queues its job, and ends. -/
theorem enqueue_effect {request : Request} {outcome : CallOutcome} {now : Timestamp}
    (hrequest : request ∈ s.requests) (h : s.enqueue request outcome now = some s') :
    Effect cfg s (.enqueue request.id outcome now) s' := by
  unfold enqueue at h
  split at h
  · rename_i submissionId key hphase hkey
    split at h
    · rename_i hjobs
      obtain rfl := Option.some.inj h
      exact .unqueued hrequest hkey (Or.inr hjobs)
    · rename_i hjobs
      obtain rfl := Option.some.inj h
      have hnot : CallOutcome.failed = .failed ∨
          s.ingestionJobs.enqueue s.nextUuid submissionId key now = none := Or.inl rfl
      exact .unqueued hrequest hkey hnot
    · rename_i hjobs _
      obtain rfl := Option.some.inj h
      exact .enqueued _ hrequest hkey hjobs
  · simp at h

/-- A compensating step deletes the new blob and ends the request. -/
theorem compensate_eq_some {request : Request} {outcome : CallOutcome}
    (h : s.compensate cfg request outcome = some s') :
    ∃ integrity, request.phase = .compensating integrity ∧
      s' = (s.deleteArtifact request.newKey outcome).proceed request none
        (s.failureReply cfg request integrity) := by
  unfold compensate at h
  split at h
  · rename_i integrity hphase
    exact ⟨integrity, hphase, (Option.some.inj h).symm⟩
  · simp at h

/-- **Inversion.**  Every step of the service is one of the effects. -/
theorem step_effect {a : ServiceAction} (h : s.step cfg a = some s') : Effect cfg s a s' := by
  cases a with
  | create actor challengeId metadata idempotencyKey upload gate => exact create_effect h
  | updateCreated actor submissionId metadata upload => exact updateCreated_effect h
  | attachIncoming actor submissionId incoming => exact attachIncoming_effect h
  | submit actor submissionId outcome now => exact submit_effect h
  | cancel actor submissionId outcome now => exact cancel_effect h
  | publish id outcome =>
      obtain ⟨request, hfound, hstep⟩ := Option.bind_eq_some_iff.mp h
      obtain ⟨hrequest, rfl⟩ := Table.find?_eq_some_iff.mp hfound
      exact publish_effect hrequest hstep
  | commit id outcome now =>
      obtain ⟨request, hfound, hstep⟩ := Option.bind_eq_some_iff.mp h
      obtain ⟨hrequest, rfl⟩ := Table.find?_eq_some_iff.mp hfound
      exact commit_effect hrequest hstep
  | compensate id outcome =>
      obtain ⟨request, hfound, hstep⟩ := Option.bind_eq_some_iff.mp h
      obtain ⟨hrequest, rfl⟩ := Table.find?_eq_some_iff.mp hfound
      obtain ⟨integrity, hphase, rfl⟩ := compensate_eq_some hstep
      exact .compensated _ hrequest hphase
  | drop id outcome =>
      obtain ⟨request, hfound, hstep⟩ := Option.bind_eq_some_iff.mp h
      obtain ⟨hrequest, rfl⟩ := Table.find?_eq_some_iff.mp hfound
      unfold drop at hstep
      split at hstep
      · rename_i submissionId hphase
        obtain rfl := Option.some.inj hstep
        exact .dropped hrequest hphase
      · simp at hstep
  | enqueue id outcome now =>
      obtain ⟨request, hfound, hstep⟩ := Option.bind_eq_some_iff.mp h
      obtain ⟨hrequest, rfl⟩ := Table.find?_eq_some_iff.mp hfound
      exact enqueue_effect hrequest hstep
  | die id =>
      obtain ⟨request, hfound, rfl⟩ := Option.map_eq_some_iff.mp h
      obtain ⟨hrequest, rfl⟩ := Table.find?_eq_some_iff.mp hfound
      exact .died hrequest

end Service

/-- The service, from an empty database and an empty store. -/
def submissionService (cfg : SubmissionConfig) : System Service ServiceAction where
  start := fun s => s = emptyService
  step := Service.step cfg

/-- A configuration with the default limits, for metadata of at most one member
of thirteen bytes. -/
def defaultConfig : SubmissionConfig where
  metadataMaxBytes := 32768
  artifactMaxBytes := 5242880
  ingestionEnabled := true
  evaluationProgressiveMode := .legacy
  encodedLength := fun metadata => 2 + 13 * metadata.length
  requestFingerprint := fun _ _ => "digest"

/-- The client of the examples. -/
def participant : Actor := ⟨7, .participant⟩

/-- A text file of five bytes. -/
def textUpload : Upload := ⟨[104, 101, 108, 108, 111], some "text/plain", ".txt"⟩

end ChallengeForge
