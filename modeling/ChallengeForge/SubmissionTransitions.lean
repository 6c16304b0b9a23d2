import ChallengeForge.RequestProgress

/-!
# Leaving CREATED, statement by statement

`SubmissionService.submit` and `cancel` between their statements, beside the
creates and the edits of `SubmissionRequests`.  A transition sends its conditional
UPDATE, which takes the row lock when it matches; under the lock it inserts the
evaluation and commits, or fails and is rolled back.  An UPDATE that matches no row
is followed by a read of the row and, for a submitted one, by a read of its
evaluation, each in a statement of its own.

While a transition holds the row lock, no other UPDATE of that row goes through:
neither another transition's nor the flush of an edit.

`requesters` records who sent each transition and each edit.

* `Delegated.of_step` — what the other requests of the service do to the rows;
* `TransitionService.moved_of_step` — what a step of the whole does.
-/

namespace ChallengeForge

open Keyed Labelled

/-- The state a transition leads to. -/
inductive Target
  | submitted
  | cancelled
  deriving DecidableEq, Repr

/-- The status that a transition aims at. -/
def Target.status : Target → SubmissionStatus
  | submitted => .submitted
  | cancelled => .cancelled

/-- The statement a transition sends next. -/
inductive TransitionPhase
  | updating
  /-- The UPDATE matched: the row lock is held, nothing is committed. -/
  | holding (updatedAt : Timestamp)
  /-- The UPDATE matched no row. -/
  | missed
  /-- The row was read as submitted. -/
  | retrying (current : SubmissionRow)
  deriving DecidableEq

/-- A submit or cancel in progress. -/
structure Transition where
  id : UUID
  actor : Actor
  submissionId : UUID
  target : Target
  phase : TransitionPhase
  deriving DecidableEq

/-- The service, with the transitions that are on their way. -/
structure TransitionService where
  service : Service
  transitions : Table Transition Transition.id
  /-- Who sent the transitions and the edits. -/
  requesters : List (UUID × UUID)

/-- A request arrives, or a transition sends its next statement, fails or dies, or
another request of the service moves. -/
inductive TransitionAction
  | start (actor : Actor) (submissionId : UUID) (target : Target)
  | update (id : UUID) (now : Timestamp)
  | commit (id : UUID) (outcome : CallOutcome) (now : Timestamp)
  | fail (id : UUID)
  | readSubmission (id : UUID)
  | readEvaluation (id : UUID)
  | die (id : UUID)
  | service (a : ServiceAction)

/-- An action that `TransitionService` takes apart into statements. -/
def ServiceAction.isTransition : ServiceAction → Bool
  | submit .. => true
  | cancel .. => true
  | _ => false

namespace TransitionService

/-- A transition holds the lock of the row. -/
def locked (s : TransitionService) (submissionId : UUID) : Bool :=
  s.transitions.rows.any (fun t => decide (t.submissionId = submissionId) &&
    match t.phase with
    | .holding _ => true
    | _ => false)

/-- The transition is over with a reply. -/
def finish (s : TransitionService) (t : Transition) (reply : Reply) : TransitionService :=
  { s with
    service := { s.service with replies := (t.id, reply) :: s.service.replies }
    transitions := s.transitions.delete (fun other => decide (other.id = t.id)) }

/-- The transition goes on. -/
def advance (s : TransitionService) (t : Transition) (phase : TransitionPhase) :
    TransitionService :=
  { s with
    transitions := s.transitions.update (fun other => decide (other.id = t.id))
      (fun other => { other with phase := phase }) (fun _ => rfl) }

/-- `submit` and `cancel` up to their UPDATE. -/
def start (s : TransitionService) (actor : Actor) (submissionId : UUID) (target : Target) :
    Option TransitionService :=
  let checked := match target with
    | .submitted => requireParticipant actor
    | .cancelled => .ok ()
  let id := s.service.nextUuid
  match checked with
  | .error e =>
      some { s with
        service := s.service.answer (.refused e)
        requesters := (id, actor.id) :: s.requesters }
  | .ok () =>
      (s.transitions.insert ⟨id, actor, submissionId, target, .updating⟩).map fun transitions =>
        { service := { s.service with nextUuid := id + 1 }
          transitions := transitions
          requesters := (id, actor.id) :: s.requesters }

/-- The conditional UPDATE.  It waits for the lock of a row that it matches as
committed; the lock released, it looks at the row again. -/
def update (s : TransitionService) (t : Transition) (now : Timestamp) :
    Option TransitionService :=
  if t.phase ≠ .updating then none
  else
    match s.service.submissions.transitionIfCreated t.submissionId t.actor.id t.target.status
        now with
    | some _ => if s.locked t.submissionId then none else some (s.advance t (.holding now))
    | none => some (s.advance t .missed)

/-- The INSERT of the evaluation, for a submit, and the commit. -/
def commit (cfg : SubmissionConfig) (s : TransitionService) (t : Transition)
    (outcome : CallOutcome) (now : Timestamp) : Option TransitionService :=
  match t.phase with
  | .holding updatedAt =>
      match s.service.submissions.transitionIfCreated t.submissionId t.actor.id t.target.status
          updatedAt with
      | none => none
      | some (row, submissions) =>
          if outcome = .failed then some (s.finish t .raised)
          else
            match t.target with
            | .cancelled =>
                some ({ s with service := { s.service with submissions := submissions } }.finish t
                  (if outcome = CallOutcome.ok then .cancelled row.id else .raised))
            | .submitted =>
                let evaluationId := s.service.nextUuid
                match queueEvaluation cfg s.service.evaluations evaluationId row now with
                | none => some (s.finish t .raised)
                | some evaluations =>
                    some ({ s with
                        service := { s.service with
                          submissions := submissions
                          evaluations := evaluations
                          nextUuid := evaluationId + 1 } }.finish t
                      (if outcome = CallOutcome.ok then .submitted row.id evaluationId
                      else .raised))
  | _ => none

/-- A statement or the commit raises: the transaction is rolled back. -/
def fail (s : TransitionService) (t : Transition) : TransitionService := s.finish t .raised

/-- The read after an UPDATE that matched nothing. -/
def readSubmission (s : TransitionService) (t : Transition) : Option TransitionService :=
  match t.phase with
  | .missed =>
      match s.service.submissions.find? t.submissionId with
      | none => some (s.finish t (.refused (.notFound "Submission not found.")))
      | some current =>
          if current.participantId ≠ t.actor.id then
            some (s.finish t
              (.refused (.permissionDenied "You cannot change this submission.")))
          else if t.target = .submitted ∧ current.status = .submitted then
            some (s.advance t (.retrying current))
          else
            some (s.finish t (.refused (.invalidStateTransition
              ("Cannot transition submission from " ++ current.status.value ++ " to " ++
                t.target.status.value ++ "."))))
  | _ => none

/-- The read of the evaluation of a submission that was submitted before. -/
def readEvaluation (s : TransitionService) (t : Transition) : Option TransitionService :=
  match t.phase with
  | .retrying current =>
      match s.service.evaluations.evaluations.rows.find?
          (fun row => decide (row.submissionId = t.submissionId)) with
      | none =>
          some (s.finish t (.refused (.conflict
            ("Submission is submitted but has no evaluation; " ++
              "this violates the product invariant."))))
      | some evaluation => some (s.finish t (.submitted current.id evaluation.id))
  | _ => none

/-- The process serving the transition dies. -/
def die (s : TransitionService) (t : Transition) : TransitionService :=
  { s with transitions := s.transitions.delete (fun other => decide (other.id = t.id)) }

/-- The row whose UPDATE a step of the service sends. -/
def editedRow (s : TransitionService) : ServiceAction → Option UUID
  | .commit id _ _ =>
      (s.service.requests.find? id).bind (fun request =>
        match request.work with
        | .insert _ => none
        | .rewrite loaded _ => some loaded.id)
  | _ => none

/-- A step of another request, which waits for the row lock. -/
def serviceStep (cfg : SubmissionConfig) (s : TransitionService) (a : ServiceAction) :
    Option TransitionService :=
  if a.isTransition ∨ (s.editedRow a).any s.locked then none
  else
    (s.service.step cfg a).map fun service =>
      { s with
        service := service
        requesters := match a.requester with
          | some actorId => (s.service.nextUuid, actorId) :: s.requesters
          | none => s.requesters }

/-- One step of a transition, or of the service beside it. -/
def step (cfg : SubmissionConfig) (s : TransitionService) :
    TransitionAction → Option TransitionService
  | .start actor submissionId target => s.start actor submissionId target
  | .update id now => (s.transitions.find? id).bind (fun t => s.update t now)
  | .commit id outcome now => (s.transitions.find? id).bind (fun t => s.commit cfg t outcome now)
  | .fail id => (s.transitions.find? id).map s.fail
  | .readSubmission id => (s.transitions.find? id).bind s.readSubmission
  | .readEvaluation id => (s.transitions.find? id).bind s.readEvaluation
  | .die id => (s.transitions.find? id).map s.die
  | .service a => s.serviceStep cfg a

end TransitionService

/-- The service with its transitions taken apart, from an empty database. -/
def submissionTransitions (cfg : SubmissionConfig) :
    System TransitionService TransitionAction where
  start := fun s => s = ⟨emptyService, Table.empty, []⟩
  step := TransitionService.step cfg

/-! ## What the other requests do -/

/-- A reply that reports a transition. -/
def Reply.reportsTransition : Reply → Bool
  | submitted .. => true
  | cancelled .. => true
  | _ => false

/-- A step of a create or an edit: it leaves the evaluations alone, reports no
transition, and inserts a row, or rewrites the row its request has loaded, or leaves
the rows alone. -/
structure Delegated (s : Service) (a : ServiceAction) (s' : Service) : Prop where
  evaluations : s'.evaluations = s.evaluations
  replies : ∀ sent ∈ s'.replies, sent ∈ s.replies ∨ sent.2.reportsTransition = false
  rows : s'.submissions = s.submissions ∨
    (∃ id new key now, s.submissions.add id new key now = some s'.submissions) ∨
    ∃ request ∈ s.requests, a.request = some request.id ∧ ∃ loaded metadata now,
      request.work = .rewrite loaded metadata ∧
      s'.submissions = s.submissions.flushEdit loaded (request.edited loaded metadata) now
  requests : ∀ request ∈ s'.requests,
    (∃ before ∈ s.requests, before.id = request.id ∧ before.work = request.work) ∨
    request.id = s.nextUuid ∧ a.requester.isSome ∧ ∀ loaded metadata,
      request.work = .rewrite loaded metadata →
        loaded ∈ s.submissions ∧ a.requester = some loaded.participantId
  nextUuid : s.nextUuid ≤ s'.nextUuid
  drawn : a.requester.isSome → s.nextUuid < s'.nextUuid

namespace Delegated

variable {cfg : SubmissionConfig} {s s' : Service} {a : ServiceAction}

/-- An answer that reports no transition is left to the service. -/
theorem of_answer {reply : Reply} (hreply : reply.reportsTransition = false) :
    Delegated s a (s.answer reply) where
  evaluations := rfl
  replies := by
    intro sent hsent
    rcases List.mem_cons.mp hsent with rfl | hold
    · exact Or.inr hreply
    · exact Or.inl hold
  rows := Or.inl rfl
  requests := fun request hrequest => Or.inl ⟨request, hrequest, rfl, rfl⟩
  nextUuid := Nat.le_add_right _ 1
  drawn := fun _ => Nat.lt_add_one _

/-- So is the start of a request. -/
theorem of_start {work : Work} {upload : Option (ArtifactKey × Blob)}
    (hstart : s.startRequest work upload = some s') (hrequester : a.requester.isSome)
    (hloaded : ∀ loaded metadata, work = .rewrite loaded metadata →
      loaded ∈ s.submissions ∧ a.requester = some loaded.participantId) :
    Delegated s a s' := by
  obtain ⟨requests, hinsert, rfl⟩ := Option.map_eq_some_iff.mp hstart
  refine ⟨rfl, fun sent hsent => Or.inl hsent, Or.inl rfl, ?_, Nat.le_add_right _ 2,
    fun _ => Nat.lt_add_of_pos_right (by decide)⟩
  intro request hrequest
  rcases (Table.mem_of_insert hinsert).mp hrequest with hold | rfl
  · exact Or.inl ⟨request, hold, rfl, rfl⟩
  · exact Or.inr ⟨rfl, hrequester, hloaded⟩

/-- A request leaves the evaluations. -/
theorem proceed_evaluations {request : Request} {phase : Option Phase} {reply : Reply} :
    (s.proceed request phase reply).evaluations = s.evaluations := by
  cases phase <;> rfl

/-- After a request has moved on, the rows and the counter being as in `t`. -/
theorem of_proceed {t : Service} {request : Request} {phase : Option Phase} {reply : Reply}
    (hrequest : request ∈ s.requests) (hreply : reply.reportsTransition = false)
    (hrequester : a.requester = none)
    (hsame : t.evaluations = s.evaluations ∧ t.replies = s.replies ∧ t.requests = s.requests ∧
      s.nextUuid ≤ t.nextUuid)
    (hrows : t.submissions = s.submissions ∨
      (∃ id new key now, s.submissions.add id new key now = some t.submissions) ∨
      ∃ request ∈ s.requests, a.request = some request.id ∧ ∃ loaded metadata now,
        request.work = .rewrite loaded metadata ∧
        t.submissions = s.submissions.flushEdit loaded (request.edited loaded metadata) now) :
    Delegated s a (t.proceed request phase reply) := by
  obtain ⟨hevaluations, hreplies, hrequests, huuid⟩ := hsame
  refine ⟨proceed_evaluations.trans hevaluations, ?_, ?_, ?_, ?_, ?_⟩
  · intro sent hsent
    cases phase with
    | some next => exact Or.inl (hreplies ▸ hsent)
    | none =>
        rcases List.mem_cons.mp hsent with rfl | hold
        · exact Or.inr hreply
        · exact Or.inl (hreplies ▸ hold)
  · rw [Service.proceed_submissions]
    exact hrows
  · intro other hother
    left
    rcases (Service.mem_proceed (hrequests ▸ hrequest)).mp hother with ⟨hold, _⟩ | ⟨next, _, rfl⟩
    · exact ⟨other, hrequests ▸ hold, rfl, rfl⟩
    · exact ⟨request, hrequest, rfl, rfl⟩
  · rw [Service.proceed_nextUuid]
    exact huuid
  · intro hsome
    rw [hrequester] at hsome
    cases hsome

/-- A success of a create or an edit reports no transition. -/
theorem successReply_reports (request : Request) (submissionId : UUID) :
    (request.successReply submissionId).reportsTransition = false := by
  unfold Request.successReply
  split <;> rfl

/-- Neither does a replay or a conflict. -/
theorem replayOrConflict_reports (existing : SubmissionRow) (fingerprint : String) :
    (replayOrConflict cfg existing fingerprint).reportsTransition = false := by
  unfold replayOrConflict
  dsimp only
  split <;> rfl

/-- Nor a refusal of a create. -/
theorem checkCreate_reports {actor : Actor} {challengeId : UUID} {metadata : Option JsonDict}
    {idempotencyKey : Option String} {upload : Option Upload} {gate : Except DomainError Unit}
    {reply : Reply}
    (h : s.checkCreate cfg actor challengeId metadata idempotencyKey upload gate =
      .error reply) : reply.reportsTransition = false := by
  have hrefused : ∀ {α : Type} {x : Except DomainError α} {r : Reply},
      x.mapError Reply.refused = .error r → r.reportsTransition = false := by
    intro α x r hx
    cases x with
    | error e =>
        cases hx
        rfl
    | ok v => cases hx
  unfold Service.checkCreate at h
  rcases except_bind_eq_error h with hrole | ⟨_, _, h⟩
  · exact hrefused hrole
  rcases except_bind_eq_error h with hmetadata | ⟨payload, _, h⟩
  · exact hrefused hmetadata
  dsimp only at h
  split at h
  · cases h
    exact replayOrConflict_reports _ _
  · rcases except_bind_eq_error h with hgate | ⟨_, _, h⟩
    · exact hrefused hgate
    rcases except_bind_eq_error h with hsize | ⟨_, _, h⟩
    · exact hrefused hsize
    cases h

/-- Nor a failure. -/
theorem failureReply_reports (request : Request) (integrity : Bool) :
    (s.failureReply cfg request integrity).reportsTransition = false := by
  unfold Service.failureReply
  split
  · split
    · exact replayOrConflict_reports _ _
    · rfl
  · rfl

/-- Deleting a blob and moving on touches no row. -/
theorem of_deleteArtifact {request : Request} {key : Option ArtifactKey} {outcome : CallOutcome}
    {phase : Option Phase} {reply : Reply} (hrequest : request ∈ s.requests)
    (hreply : reply.reportsTransition = false) (hrequester : a.requester = none) :
    Delegated s a ((s.deleteArtifact key outcome).proceed request phase reply) := by
  have hframe : (s.deleteArtifact key outcome).evaluations = s.evaluations ∧
      (s.deleteArtifact key outcome).replies = s.replies := by
    unfold Service.deleteArtifact
    split <;> exact ⟨rfl, rfl⟩
  exact of_proceed hrequest hreply hrequester
    ⟨hframe.1, hframe.2, Service.deleteArtifact_requests,
      by rw [Service.deleteArtifact_nextUuid]⟩
    (Or.inl Service.deleteArtifact_submissions)

/-- A call of a request in progress. -/
theorem of_served {q : Request} (hq : q ∈ s.requests) (hid : a.request = some q.id)
    (hrequester : a.requester = none) (h : Service.Served cfg s q s') : Delegated s a s' := by
  have hsame : s.evaluations = s.evaluations ∧ s.replies = s.replies ∧ s.requests = s.requests ∧
      s.nextUuid ≤ s.nextUuid := ⟨rfl, rfl, rfl, Nat.le_refl _⟩
  cases h with
  | published storage _ => exact of_proceed hq rfl hrequester hsame (Or.inl rfl)
  | unpublished storage _ => exact of_proceed hq rfl hrequester hsame (Or.inl rfl)
  | rejected integrity _ => exact of_proceed hq rfl hrequester hsame (Or.inl rfl)
  | inserted _ _ hadd =>
      exact of_proceed hq (successReply_reports _ _) hrequester
        ⟨rfl, rfl, rfl, Nat.le_add_right _ 1⟩ (Or.inr (Or.inl ⟨_, _, _, _, hadd⟩))
  | flushed _ hwork =>
      exact of_proceed hq (successReply_reports _ _) hrequester hsame
        (Or.inr (Or.inr ⟨q, hq, hid, _, _, _, hwork, rfl⟩))
  | compensated outcome _ =>
      exact of_deleteArtifact hq (failureReply_reports _ _) hrequester
  | dropped outcome _ => exact of_deleteArtifact hq (successReply_reports _ _) hrequester
  | enqueued jobs acknowledged _ =>
      refine of_proceed hq ?_ hrequester ⟨rfl, rfl, rfl, Nat.le_add_right _ 1⟩ (Or.inl rfl)
      split
      · exact successReply_reports _ _
      · rfl
  | unqueued _ => exact of_proceed hq rfl hrequester hsame (Or.inl rfl)
  | died =>
      refine ⟨rfl, fun sent hsent => Or.inl hsent, Or.inl rfl, ?_, Nat.le_refl _, ?_⟩
      · intro other hother
        exact Or.inl ⟨other, (Table.mem_delete.mp hother).1, rfl, rfl⟩
      · intro hsome
        rw [hrequester] at hsome
        cases hsome

/-- The first step of an edit. -/
theorem of_edit {actorId : UUID} (hrequester : a.requester = some actorId)
    (h : Service.EditStarted s actorId s') : Delegated s a s' := by
  cases h with
  | refused e => exact of_answer rfl
  | started hloaded howner hstart =>
      refine of_start hstart (by rw [hrequester]; rfl) ?_
      intro loaded' metadata' hwork
      obtain ⟨rfl, -⟩ := Work.rewrite.inj hwork
      exact ⟨hloaded, by rw [hrequester, howner]⟩

/-- **Inversion.**  Every step but a transition is a delegated one. -/
theorem of_step (hnot : a.isTransition = false) (h : s.step cfg a = some s') :
    Delegated s a s' := by
  have hserved : ∀ {id}, a.request = some id → a.requester = none → Delegated s a s' := by
    intro id hid hrequester
    obtain ⟨q, hq, rfl, hcall⟩ := Service.served_of_step hid h
    exact of_served hq hid hrequester hcall
  cases a with
  | submit | cancel => cases hnot
  | create actor challengeId metadata idempotencyKey upload gate =>
      change s.create cfg actor challengeId metadata idempotencyKey upload gate = some s' at h
      unfold Service.create at h
      split at h
      · rename_i reply hcheck
        obtain rfl := Option.some.inj h
        exact of_answer (checkCreate_reports hcheck)
      · exact of_start h rfl (fun loaded metadata hwork => by cases hwork)
  | updateCreated => exact of_edit rfl (Service.edit_of_update h)
  | attachIncoming => exact of_edit rfl (Service.edit_of_attach h)
  | publish | commit | compensate | drop | enqueue | die => exact hserved rfl rfl

end Delegated

namespace TransitionService

variable {cfg : SubmissionConfig} {s s' : TransitionService} {t : Transition}

/-! ## What a step does -/

/-- What a step can do. -/
inductive Moved (cfg : SubmissionConfig) (s : TransitionService) :
    TransitionAction → TransitionService → Prop
  | refused {actor submissionId target} (e : DomainError) :
      Moved cfg s (.start actor submissionId target) { s with
        service := s.service.answer (.refused e)
        requesters := (s.service.nextUuid, actor.id) :: s.requesters }
  | started {actor submissionId target transitions}
      (hinsert : s.transitions.insert
        ⟨s.service.nextUuid, actor, submissionId, target, .updating⟩ = some transitions) :
      Moved cfg s (.start actor submissionId target)
        { service := { s.service with nextUuid := s.service.nextUuid + 1 }
          transitions := transitions
          requesters := (s.service.nextUuid, actor.id) :: s.requesters }
  /-- An UPDATE matches and takes the row lock. -/
  | held {t now winner rows} (ht : t ∈ s.transitions) (hfree : s.locked t.submissionId = false)
      (hmatch : s.service.submissions.transitionIfCreated t.submissionId t.actor.id
        t.target.status now = some (winner, rows)) :
      Moved cfg s (.update t.id now) (s.advance t (.holding now))
  | missed {t now} (ht : t ∈ s.transitions) : Moved cfg s (.update t.id now) (s.advance t .missed)
  | retried {t current} (ht : t ∈ s.transitions) (hid : current.id = t.submissionId) :
      Moved cfg s (.readSubmission t.id) (s.advance t (.retrying current))
  /-- A transition is over; nothing is written. -/
  | finished {a t} (reply : Reply) (ht : t ∈ s.transitions)
      (hcancelled : ∀ submissionId, reply ≠ .cancelled submissionId)
      (hsubmitted : ∀ submissionId evaluationId, reply = .submitted submissionId evaluationId →
        (∃ current, t.phase = .retrying current ∧ current.id = submissionId) ∧
        ∃ e ∈ s.service.evaluations.evaluations, e.id = evaluationId ∧
          e.submissionId = t.submissionId) :
      Moved cfg s a (s.finish t reply)
  | died {a t} (ht : t ∈ s.transitions) : Moved cfg s a (s.die t)
  | cancelled {t outcome now updatedAt row rows} (ht : t ∈ s.transitions)
      (hphase : t.phase = .holding updatedAt) (htarget : t.target = .cancelled)
      (hmatch : s.service.submissions.transitionIfCreated t.submissionId t.actor.id .cancelled
        updatedAt = some (row, rows)) :
      Moved cfg s (.commit t.id outcome now)
        ({ s with service := { s.service with submissions := rows } }.finish t
          (if outcome = CallOutcome.ok then .cancelled row.id else .raised))
  | submitted {t outcome now updatedAt row rows evaluations} (ht : t ∈ s.transitions)
      (hphase : t.phase = .holding updatedAt) (htarget : t.target = .submitted)
      (hmatch : s.service.submissions.transitionIfCreated t.submissionId t.actor.id .submitted
        updatedAt = some (row, rows))
      (hqueued : queueEvaluation cfg s.service.evaluations s.service.nextUuid row now =
        some evaluations) :
      Moved cfg s (.commit t.id outcome now)
        ({ s with
            service := { s.service with
              submissions := rows
              evaluations := evaluations
              nextUuid := s.service.nextUuid + 1 } }.finish t
          (if outcome = CallOutcome.ok then .submitted row.id s.service.nextUuid else .raised))
  | delegated {a service} (hstep : Delegated s.service a service)
      (hfree : (s.editedRow a).any s.locked = false) :
      Moved cfg s (.service a)
        { s with
          service := service
          requesters := match a.requester with
            | some actorId => (s.service.nextUuid, actorId) :: s.requesters
            | none => s.requesters }

/-- A transition may end with an exception. -/
theorem Moved.raised {a : TransitionAction} (ht : t ∈ s.transitions) :
    Moved cfg s a (s.finish t .raised) :=
  .finished .raised ht (fun _ h => by cases h) (fun _ _ h => by cases h)

/-- It may end refused. -/
theorem Moved.refusal {a : TransitionAction} (e : DomainError) (ht : t ∈ s.transitions) :
    Moved cfg s a (s.finish t (.refused e)) :=
  .finished _ ht (fun _ h => by cases h) (fun _ _ h => by cases h)

/-- `start` makes one of the moves. -/
theorem moved_of_start {actor : Actor} {submissionId : UUID} {target : Target}
    (h : s.start actor submissionId target = some s') :
    Moved cfg s (.start actor submissionId target) s' := by
  unfold start at h
  dsimp only at h
  split at h
  · obtain rfl := Option.some.inj h
    exact .refused _
  · obtain ⟨transitions, hinsert, rfl⟩ := Option.map_eq_some_iff.mp h
    exact .started hinsert

/-- The conditional UPDATE makes one of the moves. -/
theorem moved_of_update {now : Timestamp} (ht : t ∈ s.transitions)
    (h : s.update t now = some s') : Moved cfg s (.update t.id now) s' := by
  unfold update at h
  split at h
  · cases h
  split at h
  · rename_i found hmatch
    split at h
    · cases h
    · rename_i hfree
      obtain rfl := Option.some.inj h
      exact .held ht (by simpa using hfree) hmatch
  · obtain rfl := Option.some.inj h
    exact .missed ht

/-- The commit makes one of the moves. -/
theorem moved_of_commit {outcome : CallOutcome} {now : Timestamp} (ht : t ∈ s.transitions)
    (h : s.commit cfg t outcome now = some s') : Moved cfg s (.commit t.id outcome now) s' := by
  unfold commit at h
  split at h
  · rename_i updatedAt hphase
    split at h
    · cases h
    rename_i row rows hmatch
    split at h
    · obtain rfl := Option.some.inj h
      exact .raised ht
    split at h
    · rename_i htarget
      obtain rfl := Option.some.inj h
      rw [htarget] at hmatch
      exact .cancelled ht hphase htarget hmatch
    · rename_i htarget
      rw [htarget] at hmatch
      dsimp only at h
      split at h
      · obtain rfl := Option.some.inj h
        exact .raised ht
      · rename_i evaluations hqueued
        obtain rfl := Option.some.inj h
        exact .submitted ht hphase htarget hmatch hqueued
  · cases h

/-- The read after a lost UPDATE makes one of the moves. -/
theorem moved_of_readSubmission (ht : t ∈ s.transitions) (h : s.readSubmission t = some s') :
    Moved cfg s (.readSubmission t.id) s' := by
  unfold readSubmission at h
  split at h
  · split at h
    · obtain rfl := Option.some.inj h
      exact .refusal _ ht
    rename_i current hfound
    split at h
    · obtain rfl := Option.some.inj h
      exact .refusal _ ht
    split at h
    · obtain rfl := Option.some.inj h
      exact .retried ht (Table.key_of_find? hfound)
    · obtain rfl := Option.some.inj h
      exact .refusal _ ht
  · cases h

/-- The read of the evaluation makes one of the moves. -/
theorem moved_of_readEvaluation (ht : t ∈ s.transitions) (h : s.readEvaluation t = some s') :
    Moved cfg s (.readEvaluation t.id) s' := by
  unfold readEvaluation at h
  split at h
  · rename_i current hphase
    split at h
    · obtain rfl := Option.some.inj h
      exact .refusal _ ht
    · rename_i evaluation hfound
      obtain rfl := Option.some.inj h
      refine .finished _ ht (fun _ h => by cases h) ?_
      intro submissionId evaluationId hreply
      cases hreply
      exact ⟨⟨current, hphase, rfl⟩, evaluation, List.mem_of_find?_eq_some hfound, rfl,
        by simpa using List.find?_some hfound⟩
  · cases h

/-- A step of the service makes one of the moves. -/
theorem moved_of_service {a : ServiceAction} (h : s.serviceStep cfg a = some s') :
    Moved cfg s (.service a) s' := by
  unfold serviceStep at h
  split at h
  · cases h
  · rename_i hready
    obtain ⟨service, hstep, rfl⟩ := Option.map_eq_some_iff.mp h
    simp only [not_or, Bool.not_eq_true] at hready
    exact .delegated (Delegated.of_step hready.1 hstep) hready.2

/-- **Inversion.**  Every step is one of the moves. -/
theorem moved_of_step {a : TransitionAction} (h : s.step cfg a = some s') : Moved cfg s a s' := by
  cases a with
  | start actor submissionId target => exact moved_of_start h
  | update id now =>
      obtain ⟨t, hfound, hstep⟩ := Option.bind_eq_some_iff.mp h
      obtain ⟨ht, rfl⟩ := Table.find?_eq_some_iff.mp hfound
      exact moved_of_update ht hstep
  | commit id outcome now =>
      obtain ⟨t, hfound, hstep⟩ := Option.bind_eq_some_iff.mp h
      obtain ⟨ht, rfl⟩ := Table.find?_eq_some_iff.mp hfound
      exact moved_of_commit ht hstep
  | fail id =>
      obtain ⟨t, hfound, rfl⟩ := Option.map_eq_some_iff.mp h
      exact .raised (Table.mem_of_find? hfound)
  | readSubmission id =>
      obtain ⟨t, hfound, hstep⟩ := Option.bind_eq_some_iff.mp h
      obtain ⟨ht, rfl⟩ := Table.find?_eq_some_iff.mp hfound
      exact moved_of_readSubmission ht hstep
  | readEvaluation id =>
      obtain ⟨t, hfound, hstep⟩ := Option.bind_eq_some_iff.mp h
      obtain ⟨ht, rfl⟩ := Table.find?_eq_some_iff.mp hfound
      exact moved_of_readEvaluation ht hstep
  | die id =>
      obtain ⟨t, hfound, rfl⟩ := Option.map_eq_some_iff.mp h
      exact .died (Table.mem_of_find? hfound)
  | service a => exact moved_of_service h

end TransitionService

end ChallengeForge
