import ChallengeForge.ChallengeLifecycle
import ChallengeForge.RequestProgress

/-!
# The acceptance gate

`SubmissionService.create` beside `publish_challenge` and `close_challenge`.  A
create looks its idempotency key up and then reads its challenge `FOR SHARE`; the
read waits for a close that holds the row, and returns the newest committed row.
The shared lock is held until the submission is committed or rolled back, and
keeps a close from its locked read and a publish from its UPDATE.

`grants` records what the locking reads have returned, `responses` what the
creates were answered and `creations` which create has inserted which row.

* `checkCreate_eq` — lookup and gate together are the checks of
  `Service.create`;
* `Acceptance.moved_of_step` — what a step can do.
-/

namespace ChallengeForge

open Keyed Labelled

/-- A create between its lookup and its locking read. -/
structure WaitingCreate where
  id : UUID
  new : NewSubmission
  upload : Option Upload
  deriving DecidableEq

/-- A create, what it asked for and what it was answered. -/
structure Response where
  requestId : UUID
  new : NewSubmission
  reply : Reply
  deriving DecidableEq

/-- A row, the create that inserted it and what that had asked for. -/
structure Creation where
  submissionId : UUID
  requestId : UUID
  new : NewSubmission
  deriving DecidableEq

/-- The submission service, the challenges, the creations that wait at the gate, and what
was granted and answered. -/
structure Acceptance where
  service : Service
  challenges : UUID → Option ChallengeService
  waiting : Table WaitingCreate WaitingCreate.id
  grants : List (UUID × Option ChallengeStatus)
  responses : List Response
  creations : List Creation

/-- A create arrives, is granted the shared lock, fails or dies before that; another
request of the service moves; a request on a challenge moves. -/
inductive AcceptanceAction
  | create (actor : Actor) (challengeId : UUID) (metadata : Option JsonDict)
      (idempotencyKey : Option String) (upload : Option Upload)
  | grant (id : UUID) (hackathonPublished : Bool)
  | fail (id : UUID)
  | die (id : UUID)
  | service (a : ServiceAction)
  | challenge (id : UUID) (a : StatusAction)

/-- What a create asks for. -/
def requested (cfg : SubmissionConfig) (actor : Actor) (challengeId : UUID)
    (metadata : Option JsonDict) (idempotencyKey : Option String) : NewSubmission where
  challengeId := challengeId
  participantId := actor.id
  metadata := metadata.getD []
  idempotencyKey := normalizedKey idempotencyKey
  requestFingerprint := (normalizedKey idempotencyKey).map
    (fun _ => cfg.requestFingerprint challengeId (metadata.getD []))

/-- `create` up to its locking read. -/
def Service.lookup (cfg : SubmissionConfig) (s : Service) (actor : Actor)
    (metadata : Option JsonDict) (new : NewSubmission) : Except Reply Unit := do
  (requireParticipant actor).mapError Reply.refused
  let _ ← (validateMetadata cfg metadata).mapError Reply.refused
  match s.submissions.findExisting new with
  | some existing =>
      throw (replayOrConflict cfg existing (cfg.requestFingerprint new.challengeId new.metadata))
  | none => return ()

/-- `_lock_open_challenge`, on the status that the locking read returns. -/
def lockOpenChallenge (status : Option ChallengeStatus) (hackathonPublished : Bool) :
    Except DomainError Unit :=
  match status with
  | none => .error (.notFound "Challenge not found.")
  | some .closed => .error (.conflict "Challenge is closed and no longer accepts submissions.")
  | some status =>
      if hackathonPublished ∧ status = .published then .ok ()
      else .error (.notFound "Challenge not found.")

/-- The checks under the shared lock. -/
def checkAccept (cfg : SubmissionConfig) (status : Option ChallengeStatus)
    (hackathonPublished : Bool) (upload : Option Upload) : Except DomainError Unit := do
  lockOpenChallenge status hackathonPublished
  checkArtifactSize cfg upload

/-- A request on a challenge whose next statement needs the row lock. -/
def StatusAction.needsRow : StatusAction → Bool
  | .close actor =>
      match requireOrganizer actor with
      | .ok () => true
      | .error _ => false
  | .commitPublish .. => true
  | _ => false

namespace Acceptance

/-- A create that holds its shared lock. -/
def holdsShare (challengeId : UUID) (request : Request) : Bool :=
  request.phase.pending &&
    match request.work with
    | .insert new => decide (new.challengeId = challengeId)
    | .rewrite _ _ => false

/-- Somebody holds a shared lock of the challenge. -/
def shared (s : Acceptance) (challengeId : UUID) : Bool :=
  s.service.requests.rows.any (holdsShare challengeId)

/-- A create is answered. -/
def respond (s : Acceptance) (id : UUID) (new : NewSubmission) (reply : Reply) : Acceptance :=
  { s with
    service := { s.service with replies := (id, reply) :: s.service.replies }
    responses := ⟨id, new, reply⟩ :: s.responses }

/-- A create stops waiting. -/
def leave (s : Acceptance) (w : WaitingCreate) : Acceptance :=
  { s with waiting := s.waiting.delete (fun other => decide (other.id = w.id)) }

/-- A creation up to the gate: the first key lookup answers it, or it waits. -/
def create (cfg : SubmissionConfig) (s : Acceptance) (actor : Actor) (challengeId : UUID)
    (metadata : Option JsonDict) (idempotencyKey : Option String) (upload : Option Upload) :
    Option Acceptance :=
  let id := s.service.nextUuid
  let new := requested cfg actor challengeId metadata idempotencyKey
  let s := { s with service := { s.service with nextUuid := id + 1 } }
  match s.service.lookup cfg actor metadata new with
  | .error reply => some (s.respond id new reply)
  | .ok () => (s.waiting.insert ⟨id, new, upload⟩).map fun waiting => { s with waiting := waiting }

/-- The request that a create goes on as, under its shared lock. -/
def accepted (s : Acceptance) (w : WaitingCreate) : Request where
  id := w.id
  work := .insert w.new
  upload := w.upload.map fun u =>
    (s.service.drawKey w.new.challengeId w.new.participantId u, u.blob)
  phase := if w.upload.isSome then .publishing else .committing

/-- The locking read is granted. -/
def grant (cfg : SubmissionConfig) (s : Acceptance) (w : WaitingCreate)
    (hackathonPublished : Bool) : Option Acceptance :=
  let challenge := s.challenges w.new.challengeId
  if challenge.any (fun c => c.lock.isSome) then none
  else
    let status := challenge.map (fun c => c.row.status)
    let granted := { s.leave w with grants := (w.id, status) :: s.grants }
    match checkAccept cfg status hackathonPublished w.upload with
    | .error e => some (granted.respond w.id w.new (.refused e))
    | .ok () =>
        (s.service.requests.insert (s.accepted w)).map fun requests =>
          { granted with
            service := { s.service with
              requests := requests
              nextUuid := s.service.nextUuid + 2 } }

/-- A statement before the lock raises. -/
def fail (s : Acceptance) (w : WaitingCreate) : Acceptance :=
  (s.leave w).respond w.id w.new .raised

/-- What a call of the request `q` adds to the records. -/
def record (s : Acceptance) (q : Request) (service : Service) : Acceptance :=
  match q.work with
  | .rewrite _ _ => { s with service := service }
  | .insert new =>
      { s with
        service := service
        responses :=
          (service.replies.take (service.replies.length - s.service.replies.length)).map
            (fun sent => ⟨q.id, new, sent.2⟩) ++ s.responses
        creations :=
          if (service.submissions.find? s.service.nextUuid).isSome ∧
              s.service.submissions.find? s.service.nextUuid = none then
            ⟨s.service.nextUuid, q.id, new⟩ :: s.creations
          else s.creations }

/-- A step of another request of the service. -/
def serviceStep (cfg : SubmissionConfig) (s : Acceptance) (a : ServiceAction) :
    Option Acceptance :=
  match a, a.request with
  | .create .., _ => none
  | _, none => (s.service.step cfg a).map fun service => { s with service := service }
  | _, some id =>
      (s.service.requests.find? id).bind fun q => (s.service.step cfg a).map (s.record q)

/-- A step of a request on a challenge, which waits for the shared locks. -/
def challengeStep (s : Acceptance) (id : UUID) (a : StatusAction) : Option Acceptance :=
  (s.challenges id).bind fun c =>
    if a.needsRow ∧ s.shared id then none
    else
      (c.step a).map fun c => { s with challenges := Function.update s.challenges id (some c) }

/-- What an action does; `none` where it cannot happen. -/
def step (cfg : SubmissionConfig) (s : Acceptance) : AcceptanceAction → Option Acceptance
  | .create actor challengeId metadata idempotencyKey upload =>
      s.create cfg actor challengeId metadata idempotencyKey upload
  | .grant id hackathonPublished =>
      (s.waiting.find? id).bind (fun w => s.grant cfg w hackathonPublished)
  | .fail id => (s.waiting.find? id).map s.fail
  | .die id => (s.waiting.find? id).map s.leave
  | .service a => s.serviceStep cfg a
  | .challenge id a => s.challengeStep id a

end Acceptance

/-- The service and its challenges, from an empty database and challenges nobody is
working on. -/
def acceptance (cfg : SubmissionConfig) : System Acceptance AcceptanceAction where
  start := fun s => s.service = emptyService ∧ s.waiting = Table.empty ∧ s.grants = [] ∧
    s.responses = [] ∧ s.creations = [] ∧
    ∀ id c, s.challenges id = some c → challengeService.start c
  step := Acceptance.step cfg

/-- **The checks of a create**, taken apart at its locking read. -/
theorem checkCreate_eq (cfg : SubmissionConfig) (s : Service) (actor : Actor) (challengeId : UUID)
    (metadata : Option JsonDict) (idempotencyKey : Option String) (upload : Option Upload)
    (status : Option ChallengeStatus) (hackathonPublished : Bool) :
    s.checkCreate cfg actor challengeId metadata idempotencyKey upload
        (lockOpenChallenge status hackathonPublished) =
      (s.lookup cfg actor metadata
          (requested cfg actor challengeId metadata idempotencyKey)).bind fun _ =>
        ((checkAccept cfg status hackathonPublished upload).mapError Reply.refused).map
          fun _ => requested cfg actor challengeId metadata idempotencyKey := by
  unfold Service.checkCreate Service.lookup checkAccept validateMetadata
  cases requireParticipant actor with
  | error e => rfl
  | ok u =>
      dsimp only
      split
      · rfl
      · simp only [Except.mapError, bind, Except.bind, Submissions.findExisting, requested]
        cases hfound : (normalizedKey idempotencyKey).bind
            (s.submissions.findByIdempotency actor.id) with
        | some existing => rfl
        | none =>
            cases lockOpenChallenge status hackathonPublished with
            | error e => rfl
            | ok u => cases checkArtifactSize cfg upload <;> rfl

/-! ## What a step can do -/

/-- The replies that a create may be over with once it holds its lock: an exception,
its own row, or the answer of the second lookup. -/
inductive EndsWith (cfg : SubmissionConfig) (s : Service) (q : Request) (new : NewSubmission) :
    Reply → Prop
  | raised : EndsWith cfg s q new .raised
  | inserted {submissionId} (hphase : q.phase = .dropping submissionId ∨
      q.phase = .enqueueing submissionId) : EndsWith cfg s q new (.created submissionId false)
  | replayed {existing} (hphase : q.phase = .compensating true)
      (hfound : s.submissions.findExisting new = some existing) :
      EndsWith cfg s q new (replayOrConflict cfg existing
        (cfg.requestFingerprint new.challengeId new.metadata))

/-- The call after this one, while no row is inserted. -/
inductive GoesOn (q : Request) : Phase → Prop
  | published (hphase : q.phase = .publishing) : GoesOn q .committing
  | rejected (integrity : Bool) (hphase : q.phase = .committing) :
      GoesOn q (.compensating integrity)
  | dropped {submissionId} (hphase : q.phase = .dropping submissionId) :
      GoesOn q (.enqueueing submissionId)

/-- The same rows, requests and replies. -/
structure SameRows (s t : Service) : Prop where
  submissions : t.submissions = s.submissions
  requests : t.requests = s.requests
  replies : t.replies = s.replies
  nextUuid : s.nextUuid ≤ t.nextUuid

theorem SameRows.of_deleteArtifact {s : Service} {key : Option ArtifactKey}
    {outcome : CallOutcome} : SameRows s (s.deleteArtifact key outcome) := by
  refine ⟨Service.deleteArtifact_submissions, Service.deleteArtifact_requests, ?_, ?_⟩
  · unfold Service.deleteArtifact
    split <;> rfl
  · rw [Service.deleteArtifact_nextUuid]

namespace Acceptance

variable {cfg : SubmissionConfig} {s s' : Acceptance} {a : AcceptanceAction}

/-- A request of the service whose call an action is. -/
structure Serves (s : Acceptance) (a : ServiceAction) (q : Request) : Prop where
  mem : q ∈ s.service.requests
  request : a.request = some q.id

/-- Everything an action can do. -/
inductive Moved (cfg : SubmissionConfig) (s : Acceptance) : AcceptanceAction → Acceptance → Prop
  /-- The first lookup decides, or a check before it. -/
  | answered {actor challengeId metadata idempotencyKey upload new reply}
      (hnew : requested cfg actor challengeId metadata idempotencyKey = new)
      (hlookup : s.service.lookup cfg actor metadata new = .error reply) :
      Moved cfg s (.create actor challengeId metadata idempotencyKey upload)
        ({ s with service := { s.service with nextUuid := s.service.nextUuid + 1 } }.respond
          s.service.nextUuid new reply)
  | arrived {actor challengeId metadata idempotencyKey upload new waiting}
      (hnew : requested cfg actor challengeId metadata idempotencyKey = new)
      (hinsert : s.waiting.insert ⟨s.service.nextUuid, new, upload⟩ = some waiting) :
      Moved cfg s (.create actor challengeId metadata idempotencyKey upload)
        { s with
          service := { s.service with nextUuid := s.service.nextUuid + 1 }
          waiting := waiting }
  | refused {w hackathonPublished} (e : DomainError) (hw : w ∈ s.waiting) :
      Moved cfg s (.grant w.id hackathonPublished)
        ({ s.leave w with
          grants := (w.id, (s.challenges w.new.challengeId).map
              (fun (c : ChallengeService) => c.row.status)) :: s.grants }.respond w.id w.new (.refused e))
  /-- The shared lock of a PUBLISHED challenge. -/
  | granted {w hackathonPublished requests c} (hw : w ∈ s.waiting)
      (hc : s.challenges w.new.challengeId = some c) (hfree : c.lock = none)
      (hopen : c.row.status = .published)
      (hinsert : s.service.requests.insert (s.accepted w) = some requests) :
      Moved cfg s (.grant w.id hackathonPublished)
        { s.leave w with
          grants := (w.id, some .published) :: s.grants
          service := { s.service with
            requests := requests
            nextUuid := s.service.nextUuid + 2 } }
  | failed {w} (hw : w ∈ s.waiting) : Moved cfg s (.fail w.id) (s.fail w)
  | died {w} (hw : w ∈ s.waiting) : Moved cfg s (.die w.id) (s.leave w)
  /-- An edit or a transition. -/
  | other {a service} (hother : Service.Unserved s.service service) :
      Moved cfg s (.service a) { s with service := service }
  | edited {a q loaded metadata service} (hq : s.Serves a q)
      (hwork : q.work = .rewrite loaded metadata)
      (hserved : Service.Served cfg s.service q service) :
      Moved cfg s (.service a) { s with service := service }
  | wentOn {a q new next t} (hq : s.Serves a q) (hwork : q.work = .insert new)
      (hnext : GoesOn q next) (hsame : SameRows s.service t) :
      Moved cfg s (.service a) { s with service := t.proceed q (some next) .raised }
  /-- The row is committed; `next` is what is left to do. -/
  | inserted {a q new outcome now submissions next} (hq : s.Serves a q)
      (hwork : q.work = .insert new) (hphase : q.phase = .committing)
      (hadd : s.service.submissions.add s.service.nextUuid new q.newKey now = some submissions)
      (hnext : q.afterWrite cfg outcome s.service.nextUuid = next) :
      Moved cfg s (.service a)
        { s with
          service := { s.service with
            submissions := submissions
            nextUuid := s.service.nextUuid + 1 }.proceed q next
              (.created s.service.nextUuid false)
          responses :=
            if next = none then ⟨q.id, new, .created s.service.nextUuid false⟩ :: s.responses
            else s.responses
          creations := ⟨s.service.nextUuid, q.id, new⟩ :: s.creations }
  | finished {a q new t reply} (hq : s.Serves a q) (hwork : q.work = .insert new)
      (hends : EndsWith cfg s.service q new reply) (hsame : SameRows s.service t) :
      Moved cfg s (.service a)
        { s with
          service := t.proceed q none reply
          responses := ⟨q.id, new, reply⟩ :: s.responses }
  | abandoned {a q new} (hq : s.Serves a q) (hwork : q.work = .insert new) :
      Moved cfg s (.service a) { s with service := s.service.die q }
  | challenge {id a c c'} (hc : s.challenges id = some c) (hstep : c.step a = some c')
      (hwait : a.needsRow = true → s.shared id = false) :
      Moved cfg s (.challenge id a)
        { s with challenges := Function.update s.challenges id (some c') }

/-! The records after a call. -/

theorem record_rewrite {q : Request} {loaded : SubmissionRow} {metadata : JsonDict}
    {service : Service} (hwork : q.work = .rewrite loaded metadata) :
    s.record q service = { s with service := service } := by
  unfold record
  rw [hwork]

section Insert

variable {q : Request} {new : NewSubmission} {t : Service}

/-- What has been sent is recorded. -/
theorem record_sent {sent : List (UUID × Reply)} (hwork : q.work = .insert new)
    (hreplies : t.replies = sent ++ s.service.replies) :
    (s.record q t).responses = sent.map (fun x => ⟨q.id, new, x.2⟩) ++ s.responses := by
  unfold record
  rw [hwork]
  simp only [hreplies, List.length_append, Nat.add_sub_cancel, List.take_left]

/-- Nothing but the new row is recorded. -/
theorem record_frame (hwork : q.work = .insert new) :
    s.record q t = { s with
      service := t
      responses := (s.record q t).responses
      creations := (s.record q t).creations } := by
  unfold record
  rw [hwork]

theorem record_same {sent : List (UUID × Reply)} (hwork : q.work = .insert new)
    (hrows : t.submissions = s.service.submissions)
    (hreplies : t.replies = sent ++ s.service.replies) :
    s.record q t = { s with
      service := t
      responses := sent.map (fun x => ⟨q.id, new, x.2⟩) ++ s.responses } := by
  have hcreations : (s.record q t).creations = s.creations := by
    unfold record
    rw [hwork]
    dsimp only
    rw [if_neg]
    rintro ⟨hsome, hnone⟩
    rw [hrows, hnone] at hsome
    cases hsome
  rw [record_frame hwork, record_sent hwork hreplies, hcreations]

theorem record_inserted {sent : List (UUID × Reply)} {submissions : Submissions} {now : Timestamp}
    (hwork : q.work = .insert new)
    (hadd : s.service.submissions.add s.service.nextUuid new q.newKey now = some submissions)
    (hrows : t.submissions = submissions) (hreplies : t.replies = sent ++ s.service.replies) :
    s.record q t = { s with
      service := t
      responses := sent.map (fun x => ⟨q.id, new, x.2⟩) ++ s.responses
      creations := ⟨s.service.nextUuid, q.id, new⟩ :: s.creations } := by
  have hcreations : (s.record q t).creations =
      ⟨s.service.nextUuid, q.id, new⟩ :: s.creations := by
    obtain ⟨hfree, hnew⟩ := Submissions.find?_of_add hadd
    unfold record
    rw [hwork]
    dsimp only
    rw [if_pos]
    rw [hrows, hnew]
    exact ⟨rfl, hfree⟩
  rw [record_frame hwork, record_sent hwork hreplies, hcreations]

theorem moved_of_same (sent : List (UUID × Reply)) (hwork : q.work = .insert new)
    (hrows : t.submissions = s.service.submissions)
    (hreplies : t.replies = sent ++ s.service.replies)
    (hmoved : Moved cfg s a { s with
      service := t
      responses := sent.map (fun x => ⟨q.id, new, x.2⟩) ++ s.responses }) :
    Moved cfg s a (s.record q t) :=
  record_same hwork hrows hreplies ▸ hmoved

theorem moved_of_inserted (sent : List (UUID × Reply)) {submissions : Submissions}
    {now : Timestamp} (hwork : q.work = .insert new)
    (hadd : s.service.submissions.add s.service.nextUuid new q.newKey now = some submissions)
    (hrows : t.submissions = submissions) (hreplies : t.replies = sent ++ s.service.replies)
    (hmoved : Moved cfg s a { s with
      service := t
      responses := sent.map (fun x => ⟨q.id, new, x.2⟩) ++ s.responses
      creations := ⟨s.service.nextUuid, q.id, new⟩ :: s.creations }) :
    Moved cfg s a (s.record q t) :=
  record_inserted hwork hadd hrows hreplies ▸ hmoved

end Insert

/-- A call of a create or an edit in progress. -/
theorem moved_of_served {a : ServiceAction} {q : Request} {service : Service}
    (hq : s.Serves a q) (hserved : Service.Served cfg s.service q service) :
    Moved cfg s (.service a) (s.record q service) := by
  cases hwork : q.work with
  | rewrite loaded metadata =>
      rw [record_rewrite hwork]
      exact .edited hq hwork hserved
  | insert new =>
      have hreply : ∀ submissionId, q.successReply submissionId = .created submissionId false := by
        intro submissionId
        unfold Request.successReply
        rw [hwork]
      cases hserved with
      | published storage hphase =>
          exact moved_of_same [] hwork rfl rfl
            (.wentOn hq hwork (.published hphase) ⟨rfl, rfl, rfl, Nat.le_refl _⟩)
      | unpublished storage hphase =>
          exact moved_of_same [(q.id, .raised)] hwork rfl rfl
            (.finished hq hwork .raised ⟨rfl, rfl, rfl, Nat.le_refl _⟩)
      | rejected integrity hphase =>
          exact moved_of_same [] hwork rfl rfl
            (.wentOn hq hwork (.rejected integrity hphase) ⟨rfl, rfl, rfl, Nat.le_refl _⟩)
      | @inserted outcome now new' submissions hphase hwork' hadd =>
          obtain rfl := Work.insert.inj (hwork.symm.trans hwork')
          rw [hreply]
          cases hnext : q.afterWrite cfg outcome s.service.nextUuid with
          | some next =>
              exact moved_of_inserted [] hwork hadd rfl rfl (.inserted hq hwork hphase hadd hnext)
          | none =>
              exact moved_of_inserted [(q.id, _)] hwork hadd rfl rfl
                (.inserted hq hwork hphase hadd hnext)
      | flushed _ hwork' => exact absurd (hwork.symm.trans hwork') (by simp)
      | @compensated integrity outcome hphase =>
          have hsame : SameRows s.service (s.service.deleteArtifact q.newKey outcome) :=
            .of_deleteArtifact
          refine moved_of_same [(q.id, _)] hwork hsame.submissions
            (congrArg (List.cons _) hsame.replies) (.finished hq hwork ?_ hsame)
          unfold Service.failureReply
          rw [hwork]
          cases integrity with
          | false => exact .raised
          | true =>
              dsimp only
              split
              · rename_i existing hfound
                exact .replayed hphase hfound
              · exact .raised
      | @dropped submissionId outcome hphase =>
          have hsame : SameRows s.service (s.service.deleteArtifact q.replacedKey outcome) :=
            .of_deleteArtifact
          rw [hreply]
          cases hnext : q.afterDrop cfg submissionId with
          | some next =>
              obtain rfl := Request.afterDrop_eq_some hnext
              exact moved_of_same [] hwork hsame.submissions hsame.replies
                (.wentOn hq hwork (.dropped hphase) hsame)
          | none =>
              exact moved_of_same [(q.id, _)] hwork hsame.submissions
                (congrArg (List.cons _) hsame.replies)
                (.finished hq hwork (.inserted (Or.inl hphase)) hsame)
      | @enqueued submissionId jobs acknowledged hphase =>
          rw [hreply]
          refine moved_of_same [(q.id, _)] hwork rfl rfl
            (.finished hq hwork ?_ ⟨rfl, rfl, rfl, Nat.le_add_right _ 1⟩)
          cases acknowledged with
          | true => exact .inserted (Or.inr hphase)
          | false => exact .raised
      | unqueued hphase =>
          exact moved_of_same [(q.id, .raised)] hwork rfl rfl
            (.finished hq hwork .raised ⟨rfl, rfl, rfl, Nat.le_refl _⟩)
      | died =>
          exact moved_of_same [] hwork rfl rfl
            (.abandoned hq hwork)

theorem moved_of_serviceStep {a : ServiceAction} (h : s.serviceStep cfg a = some s') :
    Moved cfg s (.service a) s' := by
  have hserves : ∀ {id : UUID}, a.request = some id →
      ((s.service.requests.find? id).bind fun q => (s.service.step cfg a).map (s.record q)) =
        some s' → Moved cfg s (.service a) s' := by
    intro id hid hbind
    obtain ⟨q, hfound, hmap⟩ := Option.bind_eq_some_iff.mp hbind
    obtain ⟨service, hstep, rfl⟩ := Option.map_eq_some_iff.mp hmap
    obtain ⟨hq, hkey⟩ := Table.find?_eq_some_iff.mp hfound
    obtain ⟨q', hq', hkey', hserved⟩ := Service.served_of_step hid hstep
    obtain rfl := Table.eq_of_key_eq hq' hq (hkey'.trans hkey.symm)
    exact moved_of_served ⟨hq, hid.trans (congrArg some hkey.symm)⟩ hserved
  have hother : ∀ {service : Service}, Service.Unserved s.service service →
      { s with service := service } = s' → Moved cfg s (.service a) s' := by
    rintro service hunserved rfl
    exact .other hunserved
  unfold serviceStep at h
  cases a with
  | create => cases h
  | updateCreated actor submissionId metadata upload =>
      obtain ⟨service, hstep, hs'⟩ := Option.map_eq_some_iff.mp h
      exact hother (Service.edit_of_update hstep).unserved hs'
  | attachIncoming actor submissionId incoming =>
      obtain ⟨service, hstep, hs'⟩ := Option.map_eq_some_iff.mp h
      exact hother (Service.edit_of_attach hstep).unserved hs'
  | submit actor submissionId outcome now =>
      obtain ⟨service, hstep, hs'⟩ := Option.map_eq_some_iff.mp h
      exact hother (Service.unserved_of_submit hstep) hs'
  | cancel actor submissionId outcome now =>
      obtain ⟨service, hstep, hs'⟩ := Option.map_eq_some_iff.mp h
      exact hother (Service.unserved_of_cancel hstep) hs'
  | publish => exact hserves rfl h
  | commit => exact hserves rfl h
  | compensate => exact hserves rfl h
  | drop => exact hserves rfl h
  | enqueue => exact hserves rfl h
  | die => exact hserves rfl h

/-- A challenge that passes the gate is PUBLISHED. -/
theorem published_of_checkAccept {status : Option ChallengeStatus} {hackathonPublished : Bool}
    {upload : Option Upload} (h : checkAccept cfg status hackathonPublished upload = .ok ()) :
    status = some .published := by
  obtain ⟨_, hopen, _⟩ := except_bind_eq_ok h
  unfold lockOpenChallenge at hopen
  split at hopen
  · cases hopen
  · cases hopen
  · split at hopen
    · rename_i hpublished
      rw [hpublished.2]
    · cases hopen

theorem moved_of_grant {w : WaitingCreate} {hackathonPublished : Bool} (hw : w ∈ s.waiting)
    (h : s.grant cfg w hackathonPublished = some s') :
    Moved cfg s (.grant w.id hackathonPublished) s' := by
  unfold grant at h
  dsimp only at h
  split at h
  · cases h
  rename_i hfree
  split at h
  · rename_i e _
    obtain rfl := Option.some.inj h
    exact .refused e hw
  · rename_i hcheck
    have hpublished := published_of_checkAccept hcheck
    obtain ⟨c, hc, hopen⟩ := Option.map_eq_some_iff.mp hpublished
    obtain ⟨requests, hinsert, rfl⟩ := Option.map_eq_some_iff.mp h
    have hnolock : c.lock = none := by
      rw [hc, Option.any_some] at hfree
      exact Option.not_isSome_iff_eq_none.mp hfree
    rw [hpublished]
    exact .granted hw hc hnolock hopen hinsert

/-- **Inversion.** -/
theorem moved_of_step (h : s.step cfg a = some s') : Moved cfg s a s' := by
  have hfind : ∀ {id : UUID} {w : WaitingCreate}, s.waiting.find? id = some w →
      w ∈ s.waiting ∧ w.id = id := fun hfound => Table.find?_eq_some_iff.mp hfound
  cases a with
  | create actor challengeId metadata idempotencyKey upload =>
      unfold step create at h
      dsimp only at h
      split at h
      · rename_i reply hlookup
        obtain rfl := Option.some.inj h
        exact .answered rfl hlookup
      · obtain ⟨waiting, hinsert, rfl⟩ := Option.map_eq_some_iff.mp h
        exact .arrived rfl hinsert
  | grant id hackathonPublished =>
      obtain ⟨w, hfound, hgrant⟩ := Option.bind_eq_some_iff.mp h
      obtain ⟨hw, rfl⟩ := hfind hfound
      exact moved_of_grant hw hgrant
  | fail id =>
      obtain ⟨w, hfound, rfl⟩ := Option.map_eq_some_iff.mp h
      obtain ⟨hw, rfl⟩ := hfind hfound
      exact .failed hw
  | die id =>
      obtain ⟨w, hfound, rfl⟩ := Option.map_eq_some_iff.mp h
      obtain ⟨hw, rfl⟩ := hfind hfound
      exact .died hw
  | service a => exact moved_of_serviceStep h
  | challenge id a =>
      obtain ⟨c, hc, h⟩ := Option.bind_eq_some_iff.mp h
      split at h
      · cases h
      rename_i hwait
      obtain ⟨c', hstep, rfl⟩ := Option.map_eq_some_iff.mp h
      refine .challenge hc hstep (fun hneeds => ?_)
      by_contra hshared
      exact hwait ⟨hneeds, (Bool.not_eq_false _).mp hshared⟩

end Acceptance

end ChallengeForge
