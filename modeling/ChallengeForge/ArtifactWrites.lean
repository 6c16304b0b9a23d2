import ChallengeForge.OrphanReclaim
import ChallengeForge.StorageFaults
import ChallengeForge.SubmissionRequests

/-!
# Artifact writes that fail

`create`, `update_created` and `attach_incoming` from end to end over the database
and the files of the storage, where the operating system may fail any call of the
publication, and the database any flush or commit with nothing applied.

A request first reads the rows as `s` has them; by the time it commits they may be
others, `rows`, because other requests have committed in between.

* `failed_write_iff` — what raises leaves neither row nor file behind exactly when
  it is refused, stops before its first file, or fails to commit its row;
* `failed_write_leaves_temporary` — a replace that fails.
-/

namespace ChallengeForge

open Directory Keyed

/-- What the database fails of a request, with nothing applied: a commit whose
acknowledgement alone is lost is not among these. -/
structure DbFaults where
  /-- The flush or the commit of the row. -/
  row : Bool
  /-- The flush or the commit of the ingestion job. -/
  job : Bool

/-- The committed rows and the files that a request leaves, and its reply. -/
structure WriteOutcome where
  submissions : Submissions
  ingestionJobs : IngestionJobs
  disk : Disk
  reply : Reply

/-- The reply is an exception. -/
def Reply.raises : Reply → Bool
  | .refused _ | .raised => true
  | .created .. | .updated _ | .submitted .. | .cancelled _ => false

/-- `compensate_delete`: what the storage raises is swallowed. -/
def compensateDelete (disk : Disk) (key : Option ArtifactKey) : Disk :=
  match key with
  | none => disk
  | some key =>
      match disk.delete key.path with
      | .ok (disk, _) => disk
      | .error _ => disk

/-- What a request goes on to write once its checks have passed, and where the bytes
of its artifact come from. -/
structure WritePlan where
  work : Work
  upload : Option (ArtifactKey × Blob × Disk.Publication)

namespace Service

variable (cfg : SubmissionConfig) (s : Service) (rows : Submissions)

/-- The request as it enters its later steps. -/
def planned (plan : WritePlan) : Request where
  id := s.nextUuid
  work := plan.work
  upload := plan.upload.map (fun upload => (upload.1, upload.2.1))
  phase := .publishing

/-- The flush and the commit of the row: its id, or whether an `IntegrityError` was
raised. -/
def commitRow (request : Request) (fails : Bool) (now : Timestamp) :
    Except Bool (Submissions × UUID) :=
  if fails then .error false
  else
    match request.work with
    | .insert new =>
        match rows.add (s.nextUuid + 2) new request.newKey now with
        | none => .error true
        | some written => .ok (written, s.nextUuid + 2)
    | .rewrite loaded metadata =>
        .ok (rows.flushEdit loaded (request.edited loaded metadata) now, loaded.id)

/-- A request whose artifact is published: the commit of the row, the compensation
or the drop of the replaced blob, and the ingestion job. -/
def commitAndEnqueue (disk : Disk) (request : Request) (db : DbFaults) (now : Timestamp) :
    WriteOutcome :=
  match commitRow s rows request db.row now with
  | .error integrity =>
      { submissions := rows
        ingestionJobs := s.ingestionJobs
        disk := compensateDelete disk request.newKey
        reply := { s with submissions := rows }.failureReply cfg request integrity }
  | .ok (written, submissionId) =>
      let disk := compensateDelete disk request.replacedKey
      match request.newKey, request.afterDrop cfg submissionId with
      | some key, some _ =>
          match s.ingestionJobs.enqueue (s.nextUuid + 3) submissionId key now, db.job with
          | some jobs, false => ⟨written, jobs, disk, request.successReply submissionId⟩
          | _, _ => ⟨written, s.ingestionJobs, disk, .raised⟩
      | _, _ => ⟨written, s.ingestionJobs, disk, request.successReply submissionId⟩

/-- A request whose checks have passed. -/
def carryOut (disk : Disk) (plan : WritePlan) (faults : Disk.Faults) (db : DbFaults)
    (now : Timestamp) (clock : Rat) : WriteOutcome :=
  match plan.upload with
  | none => s.commitAndEnqueue cfg rows disk (s.planned plan) db now
  | some (key, blob, publication) =>
      match disk.publish faults key.path blob.contentType clock publication with
      | .error failure => ⟨rows, s.ingestionJobs, failure.disk, .raised⟩
      | .ok disk => s.commitAndEnqueue cfg rows disk (s.planned plan) db now

/-- What the checks of `create` let through. -/
def planCreate (actor : Actor) (challengeId : UUID) (metadata : Option JsonDict)
    (idempotencyKey : Option String) (upload : Option Upload)
    (gate : Except DomainError Unit) : Except Reply WritePlan :=
  match s.checkCreate cfg actor challengeId metadata idempotencyKey upload gate with
  | .error reply => .error reply
  | .ok new =>
      .ok { work := .insert new
            upload := upload.map
              (fun u => (s.drawKey challengeId actor.id u, u.blob, .bytes u.data)) }

/-- What the checks of `update_created` let through. -/
def planUpdate (actor : Actor) (submissionId : UUID) (metadata : Option JsonDict)
    (upload : Option Upload) : Except Reply WritePlan :=
  match s.checkUpdate cfg actor submissionId metadata upload with
  | .error e => .error (.refused e)
  | .ok (loaded, payload) =>
      .ok { work := .rewrite loaded payload
            upload := upload.map
              (fun u => (s.drawKey loaded.challengeId actor.id u, u.blob, .bytes u.data)) }

/-- What the checks of `attach_incoming` let through. -/
def planAttach (actor : Actor) (submissionId : UUID) (incoming : Upload)
    (stagingPath : Path) : Except Reply WritePlan :=
  match s.checkUpdate cfg actor submissionId none (some incoming) with
  | .error e => .error (.refused e)
  | .ok (loaded, payload) =>
      .ok { work := .rewrite loaded payload
            upload := some (s.drawKey loaded.challengeId actor.id incoming, incoming.blob,
              .staged stagingPath) }

end Service

/-- A request that writes an artifact. -/
inductive ArtifactWrite
  | create (actor : Actor) (challengeId : UUID) (metadata : Option JsonDict)
      (idempotencyKey : Option String) (upload : Option Upload) (gate : Except DomainError Unit)
  | updateCreated (actor : Actor) (submissionId : UUID) (metadata : Option JsonDict)
      (upload : Option Upload)
  | attachIncoming (actor : Actor) (submissionId : UUID) (incoming : Upload)
      (stagingPath : Path)

namespace ArtifactWrite

/-- The checks of a request. -/
def plan (cfg : SubmissionConfig) (s : Service) : ArtifactWrite → Except Reply WritePlan
  | .create actor challengeId metadata idempotencyKey upload gate =>
      s.planCreate cfg actor challengeId metadata idempotencyKey upload gate
  | .updateCreated actor submissionId metadata upload =>
      s.planUpdate cfg actor submissionId metadata upload
  | .attachIncoming actor submissionId incoming stagingPath =>
      s.planAttach cfg actor submissionId incoming stagingPath

/-- A request from end to end. -/
def run (cfg : SubmissionConfig) (s : Service) (rows : Submissions) (disk : Disk)
    (faults : Disk.Faults) (db : DbFaults) (now : Timestamp) (clock : Rat)
    (write : ArtifactWrite) : WriteOutcome :=
  match write.plan cfg s with
  | .error reply => ⟨rows, s.ingestionJobs, disk, reply⟩
  | .ok plan => s.carryOut cfg rows disk plan faults db now clock

/-- The key the request draws for its artifact. -/
def newKey (cfg : SubmissionConfig) (s : Service) (write : ArtifactWrite) : Option ArtifactKey :=
  match write.plan cfg s with
  | .error _ => none
  | .ok plan => plan.upload.map Prod.fst

end ArtifactWrite

/-! ## The stepwise requests -/

namespace Service

variable {cfg : SubmissionConfig} {s : Service}

/-- The first step of a request answers what the checks refuse, and starts what
they let through. -/
def startPlanned (s : Service) : Except Reply WritePlan → Option Service
  | .error reply => some (s.answer reply)
  | .ok plan => s.startRequest plan.work (plan.upload.map (fun upload => (upload.1, upload.2.1)))

theorem create_eq_startPlanned (actor : Actor) (challengeId : UUID) (metadata : Option JsonDict)
    (idempotencyKey : Option String) (upload : Option Upload)
    (gate : Except DomainError Unit) :
    s.create cfg actor challengeId metadata idempotencyKey upload gate =
      s.startPlanned
        (s.planCreate cfg actor challengeId metadata idempotencyKey upload gate) := by
  unfold create planCreate
  cases s.checkCreate cfg actor challengeId metadata idempotencyKey upload gate with
  | error reply => rfl
  | ok new => cases upload <;> rfl

theorem updateCreated_eq_startPlanned (actor : Actor) (submissionId : UUID)
    (metadata : Option JsonDict) (upload : Option Upload) :
    s.updateCreated cfg actor submissionId metadata upload =
      s.startPlanned (s.planUpdate cfg actor submissionId metadata upload) := by
  unfold updateCreated planUpdate
  cases s.checkUpdate cfg actor submissionId metadata upload with
  | error e => rfl
  | ok checked => cases upload <;> rfl

theorem attachIncoming_eq_startPlanned (actor : Actor) (submissionId : UUID)
    (incoming : Upload) (stagingPath : Path) :
    s.attachIncoming cfg actor submissionId incoming =
      s.startPlanned (s.planAttach cfg actor submissionId incoming stagingPath) := by
  unfold attachIncoming planAttach
  cases s.checkUpdate cfg actor submissionId none (some incoming) <;> rfl

end Service

/-! ## What a failed write leaves -/

/-- Ids are drawn once: nothing is stored under the new key, no row that the request
reads carries its id, and none has the id of the new row. -/
structure DrawnOnce (s : Service) (rows : Submissions) (disk : Disk) (key : ArtifactKey) :
    Prop where
  vacant : ∀ p, Disk.resolve key.path = .ok p → Disk.Vacant disk p
  upload : ∀ row ∈ s.submissions, ∀ previous, row.artifactKey = some previous →
    uuidText previous.uploadId ≠ uuidText key.uploadId
  row : rows.find? (s.nextUuid + 2) = none

/-- The rows are those committed before, and none of the three files of the new key
is there. -/
def LeavesNothing (cfg : SubmissionConfig) (s : Service) (rows : Submissions)
    (write : ArtifactWrite) (left : WriteOutcome) : Prop :=
  left.submissions = rows ∧
    ∀ key, write.newKey cfg s = some key → ∀ p, Disk.resolve key.path = .ok p →
      Disk.Bare left.disk p

/-- The row is not committed: the database fails it, or the participant has used
the idempotency key before. -/
def RowFails (rows : Submissions) (work : Work) (db : DbFaults) : Prop :=
  db.row = true ∨ ∃ new, work = .insert new ∧ (rows.findExisting new).isSome = true

/-- The publication stops before it has made a file, or comes to its end and the
row is not committed. -/
def FailsEarly (cfg : SubmissionConfig) (s : Service) (rows : Submissions) (disk : Disk)
    (faults : Disk.Faults) (db : DbFaults) (write : ArtifactWrite) : Prop :=
  ∀ plan, write.plan cfg s = .ok plan → ∀ key blob publication,
    plan.upload = some (key, blob, publication) → ∀ p, Disk.resolve key.path = .ok p →
      publication.stopsAt faults disk p = some .nothing ∨
        publication.stopsAt faults disk p = none ∧ RowFails rows plan.work db

section Lemmas

variable {cfg : SubmissionConfig} {s : Service} {rows : Submissions} {disk : Disk}

/-- The compensation deletes the blob and its sidecar. -/
theorem read_compensateDelete {key : ArtifactKey} {p : Path}
    (hkey : Disk.resolve key.path = .ok p) (q : Path) :
    (compensateDelete disk (some key)).read q =
      if q = p ∨ Disk.sidecar p = some q then none else disk.read q := by
  obtain ⟨deleted, removed, hdelete, hread⟩ := Disk.delete_spec disk hkey
  unfold compensateDelete
  simp only [hdelete]
  exact hread q

/-- Dropping the blob of another upload leaves the new one. -/
theorem read_compensateDelete_of_ne {previous : Option ArtifactKey} {key : ArtifactKey}
    {p : Path} (hkey : Disk.resolve key.path = .ok p)
    (hother : ∀ old, previous = some old → uuidText old.uploadId ≠ uuidText key.uploadId) :
    (compensateDelete disk previous).read p = disk.read p := by
  cases previous with
  | none => rfl
  | some old =>
      cases hold : Disk.resolve old.path with
      | error e =>
          have hfailed : disk.delete old.path = .error e := by
            rw [Disk.delete, hold]
            rfl
          unfold compensateDelete
          simp only [hfailed]
      | ok p₀ =>
          have htext := Disk.uploadText_of_resolve hkey
          have holdText := Disk.uploadText_of_resolve hold
          have hne : ∀ x, Disk.uploadText x = Disk.uploadText p₀ → p ≠ x := by
            rintro x hx rfl
            rw [htext, holdText] at hx
            exact hother old rfl (String.toList_injective (Option.some.inj hx)).symm
          rw [read_compensateDelete hold, if_neg]
          rintro (hsame | hsidecar)
          · exact hne p₀ rfl hsame
          · refine hne p ?_ rfl
            rw [holdText]
            exact Disk.uploadText_of_isSibling (Or.inr hsidecar) holdText (length_uuidText _)

/-- An edit starts from a row that the request has read. -/
theorem loaded_of_checkUpdate {actor : Actor} {submissionId : UUID} {metadata : Option JsonDict}
    {upload : Option Upload} {loaded : SubmissionRow} {payload : JsonDict}
    (h : s.checkUpdate cfg actor submissionId metadata upload = .ok (loaded, payload)) :
    loaded ∈ s.submissions := by
  obtain ⟨row, hrow, h⟩ := except_bind_eq_ok h
  obtain ⟨edited, -, h⟩ := except_bind_eq_ok h
  obtain ⟨-, -, h⟩ := except_bind_eq_ok h
  cases h
  unfold Service.getEditable at hrow
  split at hrow
  · cases hrow
  · rename_i found hfound
    split at hrow
    · cases hrow
    · split at hrow
      · cases hrow
      · cases hrow
        exact Table.mem_of_find? hfound

/-- The blob a plan replaces is that of a row the request has read. -/
theorem previousKey_of_plan {write : ArtifactWrite} {plan : WritePlan} {previous : ArtifactKey}
    (hplan : write.plan cfg s = .ok plan) (hprevious : plan.work.previousKey = some previous) :
    ∃ row ∈ s.submissions, row.artifactKey = some previous := by
  cases write with
  | create actor challengeId metadata idempotencyKey upload gate =>
      simp only [ArtifactWrite.plan, Service.planCreate] at hplan
      split at hplan
      · cases hplan
      · cases hplan
        cases hprevious
  | updateCreated actor submissionId metadata upload =>
      simp only [ArtifactWrite.plan, Service.planUpdate] at hplan
      split at hplan
      · cases hplan
      · rename_i loaded payload hchecked
        cases hplan
        exact ⟨loaded, loaded_of_checkUpdate hchecked, hprevious⟩
  | attachIncoming actor submissionId incoming stagingPath =>
      simp only [ArtifactWrite.plan, Service.planAttach] at hplan
      split at hplan
      · cases hplan
      · rename_i loaded payload hchecked
        cases hplan
        exact ⟨loaded, loaded_of_checkUpdate hchecked, hprevious⟩

/-- The row is refused exactly when it fails, its id being new. -/
theorem commitRow_error_iff {request : Request} {db : DbFaults} {now : Timestamp}
    (hrow : rows.find? (s.nextUuid + 2) = none) :
    (∃ integrity, s.commitRow rows request db.row now = .error integrity) ↔
      RowFails rows request.work db := by
  unfold Service.commitRow RowFails
  cases hfails : db.row with
  | true => simp
  | false =>
      cases hwork : request.work with
      | rewrite loaded metadata => simp
      | insert new =>
          simp only [Bool.false_eq_true, if_false, false_or]
          cases hadd : rows.add (s.nextUuid + 2) new request.newKey now with
          | none =>
              simp only [Except.error.injEq, exists_eq', true_iff]
              refine ⟨new, rfl, ?_⟩
              unfold Submissions.add at hadd
              split at hadd
              · assumption
              · exact absurd hadd (Table.insert_ne_none
                  (fun row hmem => Table.find?_eq_none_iff.mp hrow row hmem))
          | some written =>
              have hnone := Submissions.findExisting_of_add hadd
              simp [hnone]

/-- A request whose row is not committed gives its blob up. -/
theorem commitAndEnqueue_of_error {request : Request} {db : DbFaults} {now : Timestamp}
    {integrity : Bool} (h : s.commitRow rows request db.row now = .error integrity) :
    (s.commitAndEnqueue cfg rows disk request db now).submissions = rows ∧
      (s.commitAndEnqueue cfg rows disk request db now).disk =
        compensateDelete disk request.newKey := by
  unfold Service.commitAndEnqueue
  rw [h]
  exact ⟨rfl, rfl⟩

/-- A request that raises after its row is committed has dropped the replaced blob,
and still has its own. -/
theorem commitAndEnqueue_of_ok {request : Request} {db : DbFaults} {now : Timestamp}
    {written : Submissions × UUID} (h : s.commitRow rows request db.row now = .ok written)
    (hraises : (s.commitAndEnqueue cfg rows disk request db now).reply.raises = true) :
    request.newKey.isSome = true ∧
      (s.commitAndEnqueue cfg rows disk request db now).disk =
        compensateDelete disk request.replacedKey := by
  have hsuccess : (request.successReply written.2).raises = false := by
    unfold Request.successReply
    split <;> rfl
  unfold Service.commitAndEnqueue at hraises ⊢
  rw [h] at hraises ⊢
  dsimp only at hraises ⊢
  cases hkey : request.newKey with
  | none =>
      rw [hkey] at hraises
      exact absurd (hsuccess.symm.trans hraises) Bool.false_ne_true
  | some key =>
      cases hnext : request.afterDrop cfg written.2 with
      | none =>
          rw [hkey, hnext] at hraises
          exact absurd (hsuccess.symm.trans hraises) Bool.false_ne_true
      | some next =>
          rw [hkey, hnext] at hraises
          dsimp only at hraises ⊢
          refine ⟨rfl, ?_⟩
          split <;> rfl

/-- A publication that raises ends its request, with what it has left. -/
theorem carryOut_of_error {plan : WritePlan} {key : ArtifactKey} {blob : Blob}
    {publication : Disk.Publication} {faults : Disk.Faults} {db : DbFaults} {now : Timestamp}
    {clock : Rat} {failure : StorageFailure} (hupload : plan.upload = some (key, blob, publication))
    (h : disk.publish faults key.path blob.contentType clock publication = .error failure) :
    s.carryOut cfg rows disk plan faults db now clock =
      ⟨rows, s.ingestionJobs, failure.disk, .raised⟩ := by
  simp only [Service.carryOut, hupload, h]

theorem carryOut_of_ok {plan : WritePlan} {key : ArtifactKey} {blob : Blob}
    {publication : Disk.Publication} {faults : Disk.Faults} {db : DbFaults} {now : Timestamp}
    {clock : Rat} {published : Disk} (hupload : plan.upload = some (key, blob, publication))
    (h : disk.publish faults key.path blob.contentType clock publication = .ok published) :
    s.carryOut cfg rows disk plan faults db now clock =
      s.commitAndEnqueue cfg rows published (s.planned plan) db now := by
  simp only [Service.carryOut, hupload, h]

/-- A published blob goes with its request's row: both are given up, or both stay. -/
theorem commitAndEnqueue_leaves_iff {request : Request} {db : DbFaults} {now : Timestamp}
    {key : ArtifactKey} {p tmp side : Path} (hrow : rows.find? (s.nextUuid + 2) = none)
    (hkey : request.newKey = some key) (hpath : Disk.resolve key.path = .ok p)
    (hsiblings : Disk.Siblings p tmp side)
    (hpublished : Disk.AtStage disk p tmp side .blobAndSidecar)
    (hother : ∀ old, request.replacedKey = some old →
      uuidText old.uploadId ≠ uuidText key.uploadId)
    (hraises : (s.commitAndEnqueue cfg rows disk request db now).reply.raises = true) :
    ((s.commitAndEnqueue cfg rows disk request db now).submissions = rows ∧
        Disk.Bare (s.commitAndEnqueue cfg rows disk request db now).disk p) ↔
      RowFails rows request.work db := by
  have hfails : (∃ integrity, s.commitRow rows request db.row now = .error integrity) ↔
      RowFails rows request.work db := commitRow_error_iff hrow
  rw [← hfails]
  cases hcommit : s.commitRow rows request db.row now with
  | error integrity =>
      obtain ⟨hsubmissions, hdisk⟩ :
          (s.commitAndEnqueue cfg rows disk request db now).submissions = rows ∧
            (s.commitAndEnqueue cfg rows disk request db now).disk =
              compensateDelete disk request.newKey := commitAndEnqueue_of_error hcommit
      refine iff_of_true ⟨hsubmissions, ?_⟩ ⟨integrity, rfl⟩
      rw [hdisk, hkey]
      have hreads : ∀ q, (compensateDelete disk (some key)).read q =
          if q = p ∨ Disk.sidecar p = some q then none else disk.read q :=
        read_compensateDelete hpath
      refine ⟨?_, fun x hx => ?_⟩
      · rw [Tree.isFile, hreads, if_pos (Or.inl rfl)]
        rfl
      · rcases hsiblings.of_isSibling hx with rfl | rfl
        · have hnone : disk.isFile x = false := by
            simpa using mt hpublished.temporary.mp
          rw [Tree.isFile, hreads]
          split
          · rfl
          · exact hnone
        · have hdeleted : Disk.sidecar p = some x := hsiblings.sidecar
          rw [Tree.isFile, hreads, if_pos (Or.inr hdeleted)]
          rfl
  | ok written =>
      obtain ⟨-, hdisk⟩ := commitAndEnqueue_of_ok hcommit hraises
      refine iff_of_false ?_ ?_
      · intro hbare
        have hplace := hbare.2.1
        have hblob : disk.isFile p = true := hpublished.blob.mpr (Or.inr rfl)
        rw [hdisk, Tree.isFile, read_compensateDelete_of_ne hpath hother] at hplace
        exact absurd (hplace.symm.trans hblob) Bool.false_ne_true
      · intro hfailed
        obtain ⟨integrity, herror⟩ := hfailed
        cases herror

section Planned

variable {write : ArtifactWrite} {plan : WritePlan} (hplan : write.plan cfg s = .ok plan)

include hplan

theorem newKey_of_plan : write.newKey cfg s = plan.upload.map Prod.fst := by
  simp only [ArtifactWrite.newKey, hplan]

theorem run_of_plan (faults : Disk.Faults) (db : DbFaults) (now : Timestamp) (clock : Rat) :
    write.run cfg s rows disk faults db now clock =
      s.carryOut cfg rows disk plan faults db now clock := by
  simp only [ArtifactWrite.run, hplan]

/-- Without an artifact only the row can fail. -/
theorem leavesNothing_of_no_upload {db : DbFaults} {now : Timestamp}
    (hupload : plan.upload = none)
    (hraises : (s.commitAndEnqueue cfg rows disk (s.planned plan) db now).reply.raises = true) :
    LeavesNothing cfg s rows write
      (s.commitAndEnqueue cfg rows disk (s.planned plan) db now) := by
  have hnone : (s.planned plan).newKey = none := by
    simp [Service.planned, Request.newKey, hupload]
  refine ⟨?_, fun key hkey => ?_⟩
  · cases hcommit : s.commitRow rows (s.planned plan) db.row now with
    | error integrity => exact (commitAndEnqueue_of_error hcommit).1
    | ok written =>
        obtain ⟨hsome, -⟩ := commitAndEnqueue_of_ok hcommit hraises
        rw [hnone] at hsome
        cases hsome
  · rw [newKey_of_plan hplan, hupload] at hkey
    cases hkey

variable {key : ArtifactKey} {blob : Blob} {publication : Disk.Publication}
  (hupload : plan.upload = some (key, blob, publication))

include hupload

theorem leavesNothing_iff (left : WriteOutcome) : LeavesNothing cfg s rows write left ↔
    left.submissions = rows ∧ ∀ p, Disk.resolve key.path = .ok p → Disk.Bare left.disk p := by
  have hkey : write.newKey cfg s = some key := by
    rw [newKey_of_plan hplan, hupload]
    rfl
  unfold LeavesNothing
  rw [hkey]
  exact and_congr_right' ⟨fun h => h key rfl, fun h other hother => Option.some.inj hother ▸ h⟩

theorem failsEarly_iff (faults : Disk.Faults) (db : DbFaults) :
    FailsEarly cfg s rows disk faults db write ↔ ∀ p, Disk.resolve key.path = .ok p →
      publication.stopsAt faults disk p = some .nothing ∨
        publication.stopsAt faults disk p = none ∧ RowFails rows plan.work db := by
  constructor
  · intro h
    exact h plan hplan key blob publication hupload
  · intro h other hother key' blob' publication' hupload'
    obtain rfl : plan = other := Except.ok.inj (hplan.symm.trans hother)
    rw [hupload] at hupload'
    cases hupload'
    exact h

/-- A publication that stops ends its request, and what it has made stays. -/
theorem run_of_stop {faults : Disk.Faults} {p tmp side : Path} {stage : Disk.Stage}
    (hpath : Disk.resolve key.path = .ok p) (hvacant : Disk.Vacant disk p)
    (hsiblings : Disk.Siblings p tmp side)
    (hstop : publication.stopsAt faults disk p = some stage) (db : DbFaults) (now : Timestamp)
    (clock : Rat) :
    ∃ failure : StorageFailure,
      write.run cfg s rows disk faults db now clock =
        ⟨rows, s.ingestionJobs, failure.disk, .raised⟩ ∧
      Disk.AtStage failure.disk p tmp side stage := by
  have hp : p ≠ [] := (Disk.below_submissions hpath).1.ne_nil (List.cons_ne_nil _ _)
  have hends : Disk.Ends p tmp side (publication.stopsAt faults disk p)
      (disk.publish faults key.path blob.contentType clock publication) :=
    Disk.publish_ends blob.contentType clock publication hpath hp hsiblings hvacant
  rw [hstop] at hends
  cases hresult : disk.publish faults key.path blob.contentType clock publication with
  | ok published =>
      rw [hresult] at hends
      exact absurd hends id
  | error failure =>
      rw [hresult] at hends
      exact ⟨failure, by rw [run_of_plan hplan, carryOut_of_error hupload hresult], hends⟩

/-- A publication that runs through leaves its blob, and the row decides whether the
blob is dropped. -/
theorem run_leaves_iff_of_published {faults : Disk.Faults} {p tmp side : Path}
    (honce : DrawnOnce s rows disk key) (hpath : Disk.resolve key.path = .ok p)
    (hsiblings : Disk.Siblings p tmp side)
    (hstop : publication.stopsAt faults disk p = none) {db : DbFaults} {now : Timestamp}
    {clock : Rat} (hraises : (write.run cfg s rows disk faults db now clock).reply.raises = true) :
    ((write.run cfg s rows disk faults db now clock).submissions = rows ∧
        Disk.Bare (write.run cfg s rows disk faults db now clock).disk p) ↔
      RowFails rows plan.work db := by
  have hp : p ≠ [] := (Disk.below_submissions hpath).1.ne_nil (List.cons_ne_nil _ _)
  have hends : Disk.Ends p tmp side (publication.stopsAt faults disk p)
      (disk.publish faults key.path blob.contentType clock publication) :=
    Disk.publish_ends blob.contentType clock publication hpath hp hsiblings
      (honce.vacant p hpath)
  rw [hstop] at hends
  cases hresult : disk.publish faults key.path blob.contentType clock publication with
  | error failure =>
      rw [hresult] at hends
      exact absurd hends id
  | ok published =>
      rw [hresult] at hends
      rw [run_of_plan hplan, carryOut_of_ok hupload hresult] at hraises ⊢
      have hkey : (s.planned plan).newKey = some key := by
        simp [Service.planned, Request.newKey, hupload]
      have hother : ∀ old, (s.planned plan).replacedKey = some old →
          uuidText old.uploadId ≠ uuidText key.uploadId := by
        intro old hold
        obtain ⟨hprevious, -⟩ := Request.previousKey_of_replacedKey hold
        obtain ⟨row, hrow, hrowKey⟩ := previousKey_of_plan hplan hprevious
        exact honce.upload row hrow old hrowKey
      exact commitAndEnqueue_leaves_iff honce.row hkey hpath hsiblings hends hother hraises

/-- A key that the storage refuses is refused before anything is made. -/
theorem run_of_refused {faults : Disk.Faults} {e : StorageError}
    (hpath : Disk.resolve key.path = .error e) (db : DbFaults) (now : Timestamp) (clock : Rat) :
    (write.run cfg s rows disk faults db now clock).submissions = rows := by
  have hfailed : disk.publish faults key.path blob.contentType clock publication =
      .error ⟨e, disk⟩ := by
    cases publication with
    | bytes data => simp [Disk.publish, Disk.putWith, Disk.lookup, hpath, bind, Except.bind,
        Except.map]
    | staged source => simp [Disk.publish, Disk.putFromPathWith, Disk.lookup, hpath, bind,
        Except.bind, Except.map]
  rw [run_of_plan hplan, carryOut_of_error hupload hfailed]

end Planned

end Lemmas

/-- **A failed artifact write.**  A request that raises leaves the committed rows as
they are, and no file of its new key, if and only if it fails early. -/
theorem failed_write_iff (cfg : SubmissionConfig) (s : Service) (rows : Submissions) (disk : Disk)
    (faults : Disk.Faults) (db : DbFaults) (now : Timestamp) (clock : Rat) (write : ArtifactWrite)
    (hdrawn : ∀ key, write.newKey cfg s = some key → DrawnOnce s rows disk key)
    (hraises : (write.run cfg s rows disk faults db now clock).reply.raises = true) :
    LeavesNothing cfg s rows write (write.run cfg s rows disk faults db now clock) ↔
      FailsEarly cfg s rows disk faults db write := by
  cases hplan : write.plan cfg s with
  | error reply =>
      -- refused by a check: nothing has been written
      have hrun : write.run cfg s rows disk faults db now clock =
          ⟨rows, s.ingestionJobs, disk, reply⟩ := by
        simp only [ArtifactWrite.run, hplan]
      have hnone : write.newKey cfg s = none := by
        simp only [ArtifactWrite.newKey, hplan]
      refine iff_of_true ⟨by rw [hrun], fun key hkey => ?_⟩ (fun plan hother => ?_)
      · rw [hnone] at hkey
        cases hkey
      · rw [hplan] at hother
        cases hother
  | ok plan =>
      cases hupload : plan.upload with
      | none =>
          have hcarried : s.carryOut cfg rows disk plan faults db now clock =
              s.commitAndEnqueue cfg rows disk (s.planned plan) db now := by
            simp only [Service.carryOut, hupload]
          rw [run_of_plan hplan, hcarried] at hraises ⊢
          refine iff_of_true (leavesNothing_of_no_upload hplan hupload hraises) ?_
          intro other hother key blob publication hsome
          obtain rfl : plan = other := Except.ok.inj (hplan.symm.trans hother)
          rw [hupload] at hsome
          cases hsome
      | some upload =>
          obtain ⟨key, blob, publication⟩ := upload
          have honce : DrawnOnce s rows disk key := by
            apply hdrawn
            rw [newKey_of_plan hplan, hupload]
            rfl
          rw [leavesNothing_iff hplan hupload, failsEarly_iff hplan hupload]
          cases hpath : Disk.resolve key.path with
          | error e =>
              refine iff_of_true ⟨run_of_refused hplan hupload hpath db now clock, ?_⟩ ?_
              · intro p hp
                cases hp
              · intro p hp
                cases hp
          | ok p =>
              have hp : p ≠ [] := (Disk.below_submissions hpath).1.ne_nil (List.cons_ne_nil _ _)
              obtain ⟨tmp, side, hsiblings⟩ := Disk.exists_siblings hp
              have hone : ∀ P : Path → Prop,
                  (∀ q, Except.ok (ε := StorageError) p = .ok q → P q) ↔ P p :=
                fun P => ⟨fun h => h p rfl, fun h q hq => Except.ok.inj hq ▸ h⟩
              rw [hone, hone]
              cases hstop : publication.stopsAt faults disk p with
              | some stage =>
                  obtain ⟨failure, hrun, hstage⟩ : ∃ failure : StorageFailure,
                      write.run cfg s rows disk faults db now clock =
                          ⟨rows, s.ingestionJobs, failure.disk, .raised⟩ ∧
                        Disk.AtStage failure.disk p tmp side stage :=
                    run_of_stop hplan hupload hpath (honce.vacant p hpath) hsiblings hstop db now
                      clock
                  rw [hrun]
                  simpa using hstage.bare_iff hsiblings
              | none =>
                  rw [run_leaves_iff_of_published hplan hupload honce hpath hsiblings hstop
                    hraises]
                  simp

/-! ## A creation -/

/-- The upload `report.txt/` of a participant. -/
def reportCreation : ArtifactWrite :=
  .create ⟨2, .participant⟩ 1 none none
    (some { textUpload with suffix := Disk.reportKey.suffix }) (.ok ())

/-- The service that draws the key of that upload next. -/
def reportService : Service := { emptyService with nextUuid := 2 }

theorem plan_reportCreation : ∃ plan, reportCreation.plan defaultConfig reportService = .ok plan ∧
    plan.upload = some (Disk.reportKey, textUpload.blob, .bytes textUpload.data) :=
  ⟨_, rfl, rfl⟩

theorem present_empty {q : Path} (hq : q ≠ []) : Tree.present (Tree.empty : Disk) q = false := by
  simp [Tree.present, Tree.node?_empty hq]

/-- On an empty disk, without rows, every id is new. -/
theorem drawnOnce_empty (key : ArtifactKey) :
    DrawnOnce reportService Table.empty Tree.empty key where
  vacant p hpath := by
    have hp : p ≠ [] := (Disk.below_submissions hpath).1.ne_nil (List.cons_ne_nil _ _)
    obtain ⟨tmp, side, hsiblings⟩ := Disk.exists_siblings hp
    refine ⟨present_empty hp, fun x hx => ?_⟩
    rcases hsiblings.of_isSibling hx with rfl | rfl
    · exact present_empty hsiblings.tmp_parent.1
    · exact present_empty hsiblings.side_parent.1
  upload row hrow := absurd hrow (Table.not_mem_empty row)
  row := rfl

/-- The creation, where the publication stops. -/
theorem run_reportCreation {faults : Disk.Faults} {stage : Disk.Stage}
    (hstop : ∀ p, Disk.resolve Disk.reportKey.path = .ok p →
      (Disk.Publication.bytes textUpload.data).stopsAt faults Tree.empty p = some stage) :
    ∃ p tmp side, Disk.resolve Disk.reportKey.path = .ok p ∧ Disk.Siblings p tmp side ∧
      Disk.AtStage (reportCreation.run defaultConfig reportService Table.empty Tree.empty faults
        ⟨false, false⟩ 10 10).disk p tmp side stage ∧
      (reportCreation.run defaultConfig reportService Table.empty Tree.empty faults
        ⟨false, false⟩ 10 10).reply = .raised := by
  obtain ⟨plan, hplan, hupload⟩ := plan_reportCreation
  obtain ⟨p, hpath, -⟩ := Disk.read_report
  rw [← Disk.path_reportKey] at hpath
  have hp : p ≠ [] := (Disk.below_submissions hpath).1.ne_nil (List.cons_ne_nil _ _)
  obtain ⟨tmp, side, hsiblings⟩ := Disk.exists_siblings hp
  obtain ⟨failure, hrun, hstage⟩ : ∃ failure : StorageFailure,
      reportCreation.run defaultConfig reportService Table.empty Tree.empty faults
          ⟨false, false⟩ 10 10 =
          ⟨Table.empty, reportService.ingestionJobs, failure.disk, .raised⟩ ∧
        Disk.AtStage failure.disk p tmp side stage :=
    run_of_stop hplan hupload hpath ((drawnOnce_empty Disk.reportKey).vacant p hpath) hsiblings
      (hstop p hpath) ⟨false, false⟩ 10 10
  exact ⟨p, tmp, side, hpath, hsiblings, by rw [hrun]; exact hstage, by rw [hrun]⟩

/-- `failed_write_iff` where no directory can be made. -/
theorem failed_write_refused :
    LeavesNothing defaultConfig reportService Table.empty reportCreation
      (reportCreation.run defaultConfig reportService Table.empty Tree.empty
        { Disk.Faults.clear with mkdirs := some 0 } ⟨false, false⟩ 10 10) := by
  have hstop : ∀ (publication : Disk.Publication) p,
      publication.stopsAt { Disk.Faults.clear with mkdirs := some 0 } Tree.empty p =
        some .nothing := fun _ _ => if_pos (Or.inl rfl)
  obtain ⟨-, -, -, -, -, -, hreply⟩ := run_reportCreation (fun p _ => hstop _ p)
  refine (failed_write_iff defaultConfig reportService Table.empty Tree.empty
    { Disk.Faults.clear with mkdirs := some 0 } ⟨false, false⟩ 10 10 reportCreation
    (fun key _ => drawnOnce_empty key) (by rw [hreply]; rfl)).mpr ?_
  intro plan hplan key blob publication hupload p hpath
  exact Or.inl (hstop publication p)

/-- **A failed replace leaves the temporary file.** -/
theorem failed_write_leaves_temporary :
    ¬ ∀ (cfg : SubmissionConfig) (s : Service) (rows : Submissions) (disk : Disk)
      (faults : Disk.Faults) (db : DbFaults) (now : Timestamp) (clock : Rat)
      (write : ArtifactWrite),
      (∀ key, write.newKey cfg s = some key → DrawnOnce s rows disk key) →
      (write.run cfg s rows disk faults db now clock).reply.raises = true →
        LeavesNothing cfg s rows write (write.run cfg s rows disk faults db now clock) := by
  intro hall
  have hstop : ∀ p, Disk.resolve Disk.reportKey.path = .ok p →
      (Disk.Publication.bytes textUpload.data).stopsAt
        { Disk.Faults.clear with replace := true } Tree.empty p = some .temporary := by
    intro p hpath
    have hparent : ¬ Disk.NoParent { Disk.Faults.clear with replace := true } Tree.empty p := by
      rintro (hsome | hnone)
      · cases hsome
      · obtain ⟨made, hmade⟩ : ∃ made, (Tree.empty : Disk).mkdirs [] p.dropLast = some made :=
          Tree.mkdirs_eq_some Tree.isDir_nil (fun q _ _ => Disk.isFile_empty q)
        rw [hmade] at hnone
        cases hnone
    unfold Disk.Publication.stopsAt
    rw [if_neg hparent]
    rfl
  obtain ⟨p, tmp, side, hpath, hsiblings, hstage, hreply⟩ := run_reportCreation hstop
  have hnew : reportCreation.newKey defaultConfig reportService = some Disk.reportKey := by
    obtain ⟨plan, hplan, hupload⟩ := plan_reportCreation
    rw [newKey_of_plan hplan, hupload]
    rfl
  have hleft := hall defaultConfig reportService Table.empty Tree.empty
    { Disk.Faults.clear with replace := true } ⟨false, false⟩ 10 10 reportCreation
    (fun key _ => drawnOnce_empty key) (by rw [hreply]; rfl)
  have hbare := hleft.2 _ hnew p hpath
  cases (hstage.bare_iff hsiblings).mp hbare

end ChallengeForge
