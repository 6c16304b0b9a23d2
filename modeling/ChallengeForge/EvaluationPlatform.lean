import ChallengeForge.EvaluationViews
import ChallengeForge.SubmissionOutcomes

/-!
# Requests and evaluation workers on one database

`submissionTransitions` runs the requests alone and `evaluationQueue` the claims,
completions and recoveries alone.  The platform runs both: any number of submit,
cancel, create and edit requests, with crashes, between any transactions of any number
of evaluation workers.

* `queue_of_platform` — the evaluations of the platform are a run of the queue, so that
  what holds of the queue holds of the platform;
* `accepted_work_durable` — what is accepted has one evaluation, keeps it for good, and
  is shown it by whoever may see it.
-/

namespace ChallengeForge

open Keyed Labelled

/-- A step of a request, or a transaction of an evaluation worker. -/
inductive PlatformAction
  | request (a : TransitionAction)
  | worker (a : QueueAction)

namespace TransitionService

/-- The evaluations as a worker's transaction leaves them. -/
def setEvaluations (s : TransitionService) (evaluations : EvaluationDb) : TransitionService :=
  { s with service := { s.service with evaluations := evaluations } }

/-- A worker's transaction; jobs are created by requests only. -/
def workerStep (s : TransitionService) (a : QueueAction) : Option TransitionService :=
  if a.creates then none else (s.service.evaluations.transact a).map s.setEvaluations

variable {cfg : SubmissionConfig} {s s' : TransitionService}

theorem workerStep_eq_some {a : QueueAction} (h : s.workerStep a = some s') :
    a.creates = false ∧ ∃ evaluations, s.service.evaluations.transact a = some evaluations ∧
      s' = s.setEvaluations evaluations := by
  unfold workerStep at h
  split at h
  · cases h
  · rename_i hcreates
    obtain ⟨evaluations, htransact, hs'⟩ := Option.map_eq_some_iff.mp h
    exact ⟨by simpa using hcreates, evaluations, htransact, hs'.symm⟩

/-- A request leaves the evaluations alone or queues one. -/
theorem evaluations_of_moved {a : TransitionAction} (h : Moved cfg s a s') :
    s'.service.evaluations = s.service.evaluations ∨
      ∃ b, s.service.evaluations.transact b = some s'.service.evaluations := by
  cases h with
  | submitted ht hphase htarget hmatch hqueued =>
      obtain ⟨deadline, hcreated⟩ := createQueued_of_queueEvaluation hqueued
      exact Or.inr ⟨.createQueued _ _ _ _ deadline 0 _, hcreated⟩
  | delegated hstep _ => exact Or.inl hstep.evaluations
  | _ => exact Or.inl rfl

end TransitionService

/-- Requests and evaluation workers. -/
def evaluationPlatform (cfg : SubmissionConfig) : System TransitionService PlatformAction where
  start := fun s => s = ⟨emptyService, Table.empty, []⟩
  step s
    | .request a => s.step cfg a
    | .worker a => s.workerStep a

section Platform

variable {cfg : SubmissionConfig} {s t : TransitionService}

/-- Every step of the platform is at most one transaction of the queue. -/
theorem queue_step_of_platform {a : PlatformAction}
    (h : (evaluationPlatform cfg).step s a = some t) :
    evaluationQueue.Path always s.service.evaluations t.service.evaluations := by
  cases a with
  | request a =>
      rcases TransitionService.evaluations_of_moved (TransitionService.moved_of_step h) with
        hsame | ⟨b, hqueued⟩
      · rw [hsame]
        exact System.Path.refl _
      · exact System.Path.single (a := b) trivial hqueued
  | worker a =>
      obtain ⟨-, evaluations, htransact, rfl⟩ := TransitionService.workerStep_eq_some h
      exact System.Path.single (a := a) trivial htransact

/-- **Simulation.**  A run of the platform is a run of the queue. -/
theorem queue_path_of_platform (h : (evaluationPlatform cfg).Path always s t) :
    evaluationQueue.Path always s.service.evaluations t.service.evaluations :=
  h.preserves
    (I := fun t => evaluationQueue.Path always s.service.evaluations t.service.evaluations)
    (fun _ _ _ hI _ hstep => hI.trans (queue_step_of_platform hstep)) (System.Path.refl _)

theorem queue_of_platform (h : (evaluationPlatform cfg).Reach always s) :
    evaluationQueue.Reach always s.service.evaluations := by
  obtain ⟨start, rfl, hpath⟩ := h
  exact ⟨_, show emptyService.evaluations.evaluations.rows = [] from rfl,
    queue_path_of_platform hpath⟩

/-! ## The submissions and their evaluations -/

/-- Rows that keep their identities answer for the same submissions. -/
theorem Coherent.of_identities {submissions : Submissions} {replies : List (UUID × Reply)}
    {evaluations evaluations' : Table EvaluationRow EvaluationRow.id}
    (h : Coherent submissions evaluations replies)
    (hsame : evaluations'.rows.map EvaluationRow.identity =
      evaluations.rows.map EvaluationRow.identity) :
    Coherent submissions evaluations' replies := by
  have hforth : ∀ e ∈ evaluations, ∃ e' ∈ evaluations', e'.identity = e.identity := by
    intro e he
    have hlisted : e.identity ∈ evaluations'.rows.map EvaluationRow.identity :=
      hsame ▸ List.mem_map_of_mem he
    exact List.mem_map.mp hlisted
  have hback : ∀ e' ∈ evaluations', ∃ e ∈ evaluations, e.identity = e'.identity := by
    intro e' he'
    have hlisted : e'.identity ∈ evaluations.rows.map EvaluationRow.identity :=
      hsame ▸ List.mem_map_of_mem he'
    exact List.mem_map.mp hlisted
  have hparts : ∀ e e' : EvaluationRow, e'.identity = e.identity →
      e'.id = e.id ∧ e'.submissionId = e.submissionId := by
    intro e e' hid
    exact ⟨congrArg Prod.fst hid, congrArg (fun x => x.2.1) hid⟩
  constructor
  · intro e' he'
    obtain ⟨e, he, hid⟩ := hback e' he'
    rw [← (hparts e' e hid).2]
    exact h.evaluated e he
  · intro row hrow hsubmitted
    obtain ⟨e, he, hsub⟩ := h.queued row hrow hsubmitted
    obtain ⟨e', he', hid⟩ := hforth e he
    exact ⟨e', he', (hparts e e' hid).2.trans hsub⟩
  · intro e₁ he₁ e₂ he₂ hsub
    obtain ⟨d₁, hd₁, hid₁⟩ := hback e₁ he₁
    obtain ⟨d₂, hd₂, hid₂⟩ := hback e₂ he₂
    have hd : d₁ = d₂ := by
      apply h.single d₁ hd₁ d₂ hd₂
      rw [(hparts e₁ d₁ hid₁).2, (hparts e₂ d₂ hid₂).2, hsub]
    apply Table.eq_of_key_eq he₁ he₂
    rw [← (hparts e₁ d₁ hid₁).1, ← (hparts e₂ d₂ hid₂).1, hd]
  · intro requestId submissionId evaluationId hreply
    obtain ⟨e, he, heid, hsub⟩ := h.submitted requestId submissionId evaluationId hreply
    obtain ⟨e', he', hid⟩ := hforth e he
    exact ⟨e', he', (hparts e e' hid).1.trans heid, (hparts e e' hid).2.trans hsub⟩
  · exact h.cancelled

/-- What the two sides keep of each other. -/
structure PlatformCoherent (s : TransitionService) : Prop where
  held : s.Held
  coherent : Coherent s.service.submissions s.service.evaluations.evaluations s.service.replies

theorem PlatformCoherent.step {a : PlatformAction} (h : PlatformCoherent s)
    (hstep : (evaluationPlatform cfg).step s a = some t) : PlatformCoherent t := by
  cases a with
  | request a =>
      have hmoved := TransitionService.moved_of_step hstep
      exact ⟨TransitionService.held_of_moved h.held hmoved,
        TransitionService.coherent_of_moved h.held h.coherent hmoved⟩
  | worker a =>
      obtain ⟨hnot, evaluations, htransact, rfl⟩ := TransitionService.workerStep_eq_some hstep
      refine ⟨⟨h.held.row, h.held.exclusive, h.held.retried⟩, ?_⟩
      exact h.coherent.of_identities (identities_of_transact hnot htransact)

theorem platformCoherent_of_reach (h : (evaluationPlatform cfg).Reach always s) :
    PlatformCoherent s := by
  refine h.invariant (I := PlatformCoherent) ?_ (fun _ _ _ hI _ hstep => hI.step hstep)
  rintro s rfl
  refine ⟨⟨?_, ?_, ?_⟩, ⟨?_, ?_, ?_, ?_, ?_⟩⟩ <;> simp [emptyService]

/-! ## An evaluation over a run -/

/-- What a run keeps of an evaluation. -/
structure Continues (row row' : EvaluationRow) : Prop where
  identity : row'.identity = row.identity
  attempts : row.attemptCount ≤ row'.attemptCount
  finished : row.status.terminal → row' = row

theorem Continues.refl (row : EvaluationRow) : Continues row row :=
  ⟨rfl, le_rfl, fun _ => rfl⟩

theorem Continues.trans {row row' row'' : EvaluationRow} (h : Continues row row')
    (h' : Continues row' row'') : Continues row row'' where
  identity := h'.identity.trans h.identity
  attempts := h.attempts.trans h'.attempts
  finished hterminal := by
    have hsame := h.finished hterminal
    rw [← hsame]
    exact h'.finished (hsame ▸ hterminal)

theorem Continues.of_rowStep {row row' : EvaluationRow} (h : RowStep row row') :
    Continues row row' := by
  refine ⟨?_, ?_, fun hterminal => absurd hterminal h.live⟩
  · cases h with
    | claimed workerId now _ => exact identity_startRunning row workerId now
    | recorded attempt _ => rfl
    | completed now c _ => exact identity_apply now row c
    | recovered os maxAttempts now _ => exact identity_recover row os maxAttempts now
  · cases h with
    | claimed workerId now _ => exact Nat.le_succ _
    | recorded attempt _ => exact le_rfl
    | completed now c _ => cases c <;> exact le_rfl
    | recovered os maxAttempts now _ =>
        exact le_of_eq (row.recover_spec os maxAttempts now).2.2.2.1.symm

/-- **Run lemma.**  No evaluation is lost, and each continues. -/
theorem evaluations_continue {db db' : EvaluationDb} (h : evaluationQueue.Path always db db') :
    Table.Keeps Continues db.evaluations db'.evaluations := by
  refine h.preserves (I := fun db' => Table.Keeps Continues db.evaluations db'.evaluations) ?_
    (Table.Keeps.refl Continues.refl _)
  intro u a u' hI _ hstep
  exact hI.trans Continues.trans
    ((transact_evolves hstep).keeps Continues.refl (fun _ _ => Continues.of_rowStep))

/-- Whoever may see a submission with an evaluation is shown a coherent view of it. -/
theorem view_of_evaluation {db : EvaluationDb} (hqueue : evaluationQueue.Reach always db)
    {access : AccessDb} {actor : Actor} {submission : SubmissionRow} {row : EvaluationRow}
    (hsubmission : submission ∈ access.submissions) (hmay : access.MayView actor submission)
    (hrow : row ∈ db.evaluations) (hsame : row.submissionId = submission.id) :
    db.getParticipantView access actor submission.id = .ok (db.toParticipantView row) := by
  have hget : db.getBySubmission submission.id = some row :=
    (oneEach_of_reach hqueue).getBySubmission_iff.mpr ⟨hrow, hsame⟩
  unfold EvaluationDb.getParticipantView
  rw [EvaluationDb.getForSubmission_eq_ok_iff.mpr ⟨⟨submission, hsubmission, rfl, hmay⟩, hget⟩]
  rfl

/-- What holds of accepted work in a state, and from it on in every run. -/
structure AcceptedWork (cfg : SubmissionConfig) (s : TransitionService) : Prop where
  /-- A SUBMITTED submission has exactly one evaluation; any other has none. -/
  evaluated : ∀ row ∈ s.service.submissions,
    s.service.evaluations.evaluations.count (fun e => decide (e.submissionId = row.id)) =
      if row.status = .submitted then 1 else 0
  /-- Nothing is evaluated that was not accepted. -/
  accepted : ∀ e ∈ s.service.evaluations.evaluations, ∃ row ∈ s.service.submissions,
    row.id = e.submissionId ∧ row.status = .submitted
  /-- An evaluation is never lost, reset or taken back. -/
  durable : ∀ t, (evaluationPlatform cfg).Path always s t →
    Table.Keeps Continues s.service.evaluations.evaluations t.service.evaluations.evaluations
  /-- Who may see a SUBMITTED submission is always shown a coherent view of it. -/
  shown : ∀ access : AccessDb, access.submissions = s.service.submissions →
    ∀ row ∈ s.service.submissions, row.status = .submitted →
      ∀ actor, access.MayView actor row → ∃ view,
        s.service.evaluations.getParticipantView access actor row.id = .ok view ∧
          ViewCoherent view
  /-- A participant who was told of an evaluation is shown that one ever after. -/
  told : ∀ t, (evaluationPlatform cfg).Path always s t →
    ∀ requestId submissionId evaluationId,
      (requestId, .submitted submissionId evaluationId) ∈ s.service.replies →
      ∀ access : AccessDb, access.submissions = t.service.submissions →
        ∀ row ∈ t.service.submissions, row.id = submissionId →
          ∀ actor, access.MayView actor row → ∃ view,
            t.service.evaluations.getParticipantView access actor submissionId = .ok view ∧
              view.id = evaluationId

/-- **Accepted work is durable.**  In every run of requests and workers, however they
interleave and whatever dies in between. -/
theorem accepted_work_durable (hreach : (evaluationPlatform cfg).Reach always s) :
    AcceptedWork cfg s := by
  have hplatform := platformCoherent_of_reach hreach
  have hqueue := queue_of_platform hreach
  refine ⟨?_, hplatform.coherent.evaluated, ?_, ?_, ?_⟩
  · intro row hrow
    exact TransitionService.count_evaluations hplatform.coherent hrow
  · intro t hpath
    exact evaluations_continue (queue_path_of_platform hpath)
  · intro access hsubmissions row hrow hsubmitted actor hmay
    obtain ⟨e, he, hsame⟩ := hplatform.coherent.queued row hrow hsubmitted
    refine ⟨_, view_of_evaluation hqueue (hsubmissions ▸ hrow) hmay he hsame, ?_⟩
    exact viewCoherent_of_row he (coherent_of_reach hqueue e he) (started_of_reach hqueue e he)
  · intro t hpath requestId submissionId evaluationId hreply access hsubmissions row hrow hid
      actor hmay
    obtain ⟨e, he, heid, hsub⟩ :=
      hplatform.coherent.submitted requestId submissionId evaluationId hreply
    obtain ⟨e', he', -, hcontinues⟩ := evaluations_continue (queue_path_of_platform hpath) e he
    have heid' : e'.id = e.id := congrArg Prod.fst hcontinues.identity
    have hsub' : e'.submissionId = e.submissionId :=
      congrArg (fun x => x.2.1) hcontinues.identity
    have hview := view_of_evaluation (queue_of_platform (hreach.path hpath))
      (hsubmissions ▸ hrow) hmay he' (by rw [hsub', hsub, hid])
    rw [hid] at hview
    exact ⟨_, hview, heid'.trans heid⟩

end Platform

/-- Two participants race to submit and cancel; then the evaluation is claimed, found
stale and requeued, claimed again and completed. -/
def evaluatedRace : List PlatformAction :=
  racingTransitions.map .request ++
    [.worker (.claimNext (laptopClaim "worker-a") 30),
     .worker (.recoverStaleRunning 40 3 50 (fun _ => idleOs)),
     .worker (.claimNext (laptopClaim "worker-b") 51),
     .worker (.complete 7 "worker-b" 60 (.succeeded eighty []))]

/-- `accepted_work_durable` after `evaluatedRace`. -/
theorem accepted_work_durable_race :
    ∃ s, (evaluationPlatform defaultConfig).Reach always s ∧
      (∃ e ∈ s.service.evaluations.evaluations, e.id = 7 ∧ e.submissionId = 2 ∧
        e.status = .succeeded ∧ e.attemptCount = 2) ∧ AcceptedWork defaultConfig s := by
  obtain ⟨s, hreach, htest⟩ : ∃ s, (evaluationPlatform defaultConfig).Reach always s ∧
      s.service.evaluations.evaluations.rows.any (fun e => e.id = 7 ∧ e.submissionId = 2 ∧
        e.status = .succeeded ∧ e.attemptCount = 2) = true :=
    System.reach_of_test ⟨emptyService, Table.empty, []⟩ evaluatedRace _ (by rfl) (by decide)
  obtain ⟨e, he, hfields⟩ := List.any_eq_true.mp htest
  exact ⟨s, hreach, ⟨e, he, of_decide_eq_true hfields⟩, accepted_work_durable hreach⟩

end ChallengeForge
