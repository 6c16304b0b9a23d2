import ChallengeForge.ProgressivePolicy
import ChallengeForge.SubmissionOutcomes

/-!
# Submitting accepted metadata

`submit` reads three members of the metadata: the workload class and the evaluation
mode, which fall back on a default, and the deadline, whose coercion may raise.  A
`TypeError` and a `ValueError` are caught there, an `OverflowError` is not.

* `deadlineAt_eq_ok_iff` — which raw deadlines can be coerced;
* `accepted_metadata_iff` — a CREATED submission can be submitted exactly when its
  raw deadline is one of these.
-/

namespace ChallengeForge

open Keyed Labelled

/-- The value is no number of seconds, or one that leads to a date. -/
def DeadlineFits (raw : Option Json) (now : Timestamp) : Prop :=
  ∀ value, raw = some value →
    floatOf value ≠ .error .overflowError ∧ floatOf value ≠ .ok .inf ∧
      ∀ seconds, floatOf value = .ok (.finite seconds) → InDatetime (now + microseconds seconds)

/-- The coercion overflows unless the value fits. -/
theorem coercion_ne_overflow_iff {now : Timestamp} (hnow : InDatetime now) (value : Json) :
    floatOf value >>= timedeltaOfSeconds >>= addSpan now ≠ .error .overflowError ↔
      DeadlineFits (some value) now := by
  have hfits : DeadlineFits (some value) now ↔
      floatOf value ≠ .error .overflowError ∧ floatOf value ≠ .ok .inf ∧
        ∀ seconds, floatOf value = .ok (.finite seconds) →
          InDatetime (now + microseconds seconds) := by
    simp [DeadlineFits]
  rw [hfits]
  cases hfloat : floatOf value with
  | error e => cases e <;> simp [bind, Except.bind]
  | ok x =>
      cases x with
      | inf => simp [bind, Except.bind, timedeltaOfSeconds]
      | nan => simp [bind, Except.bind, timedeltaOfSeconds]
      | finite seconds =>
          by_cases hdate : InDatetime (now + microseconds seconds)
          · have hspan := inTimedelta_of_dates hnow hdate
            simp [bind, Except.bind, timedeltaOfSeconds, hspan, addSpan, hdate]
          · by_cases hspan : InTimedelta (microseconds seconds)
            · simp [bind, Except.bind, timedeltaOfSeconds, hspan, addSpan, hdate]
            · simp [bind, Except.bind, timedeltaOfSeconds, hspan, hdate]

/-- A `null` is no number either. -/
theorem deadlineAt_some (value : Json) (now : Timestamp) :
    deadlineAt (some value) now =
      match floatOf value >>= timedeltaOfSeconds >>= addSpan now with
      | .ok deadline => .ok (some deadline)
      | .error .typeError | .error .valueError => .ok none
      | .error .overflowError => .error .overflowError := by
  cases value <;> rfl

/-- **The deadline.**  At a time that is a date, the coercion does not raise exactly
when the value fits. -/
theorem deadlineAt_eq_ok_iff {raw : Option Json} {now : Timestamp} (hnow : InDatetime now) :
    (∃ deadline, deadlineAt raw now = .ok deadline) ↔ DeadlineFits raw now := by
  cases raw with
  | none =>
      have hnone : DeadlineFits none now := fun value hvalue => by cases hvalue
      exact ⟨fun _ => hnone, fun _ => ⟨none, rfl⟩⟩
  | some value =>
      rw [← coercion_ne_overflow_iff hnow, deadlineAt_some]
      cases floatOf value >>= timedeltaOfSeconds >>= addSpan now with
      | ok deadline => simp
      | error e => cases e <;> simp

/-! ## Runs of the service -/

namespace Service

variable {cfg : SubmissionConfig} {s s' : Service}

/-- Only what was submitted has an evaluation, and ids are drawn once. -/
structure Evaluated (s : Service) : Prop where
  submitted : ∀ e ∈ s.evaluations.evaluations, ∃ row ∈ s.submissions,
    row.id = e.submissionId ∧ row.status = .submitted
  drawn : ∀ e ∈ s.evaluations.evaluations, e.id < s.nextUuid

theorem Evaluated.answer (h : s.Evaluated) (reply : Reply) : (s.answer reply).Evaluated where
  submitted := h.submitted
  drawn e he := Nat.lt_succ_of_lt (h.drawn e he)

theorem Evaluated.delegated (h : s.Evaluated) {a : ServiceAction} (hstep : Delegated s a s') :
    s'.Evaluated where
  submitted e he := by
    rw [hstep.evaluations] at he
    obtain ⟨row, hrow, hid, hstatus⟩ := h.submitted e he
    obtain ⟨row', hrow', hid', _, hsame⟩ := hstep.kept row hrow
    exact ⟨row', hrow', hid'.trans hid, hsame.trans hstatus⟩
  drawn e he := by
    rw [hstep.evaluations] at he
    exact (h.drawn e he).trans_le hstep.nextUuid

theorem Evaluated.submit (h : s.Evaluated) {actor : Actor} {submissionId : UUID}
    {outcome : CallOutcome} {now : Timestamp}
    (hstep : s.submit cfg actor submissionId outcome now = some s') : s'.Evaluated := by
  rcases submit_cases hstep with ⟨reply, rfl⟩ |
    ⟨row, submissions, evaluations, reply, hrow, hqueued, rfl⟩
  · exact h.answer reply
  · obtain ⟨deadline, hcreated⟩ := createQueued_of_queueEvaluation hqueued
    obtain ⟨-, new, evals, hnew, hinsert, hdb⟩ := EvaluationDb.createQueued_inserts hcreated
    obtain ⟨found, _, hid, _, _, hwinner, hmem⟩ := Submissions.transition_eq_some hrow
    subst hdb
    refine ⟨?_, ?_⟩
    · intro e he
      rcases (Table.mem_of_insert hinsert).mp he with hold | rfl
      · obtain ⟨other, hother, hotherId, hstatus⟩ := h.submitted e hold
        exact ⟨other, Coherent.stays hrow hother (by rw [hstatus]; decide), hotherId, hstatus⟩
      · exact ⟨row, (hmem row).mpr (Or.inr rfl), hnew.submissionId.symm, by rw [hwinner]⟩
    · intro e he
      rcases (Table.mem_of_insert hinsert).mp he with hold | rfl
      · show e.id < s.nextUuid + 2
        exact Nat.lt_add_right 2 (h.drawn e hold)
      · show e.id < s.nextUuid + 2
        rw [hnew.id]
        exact Nat.lt_succ_self _

theorem Evaluated.cancel (h : s.Evaluated) {actor : Actor} {submissionId : UUID}
    {outcome : CallOutcome} {now : Timestamp}
    (hstep : s.cancel actor submissionId outcome now = some s') : s'.Evaluated := by
  rcases cancel_cases hstep with ⟨reply, rfl⟩ | ⟨row, submissions, reply, hrow, rfl⟩
  · exact h.answer reply
  · refine ⟨?_, fun e he => Nat.lt_succ_of_lt (h.drawn e he)⟩
    intro e he
    obtain ⟨other, hother, hotherId, hstatus⟩ := h.submitted e he
    exact ⟨other, Coherent.stays hrow hother (by rw [hstatus]; decide), hotherId, hstatus⟩

theorem evaluated_of_step {a : ServiceAction} (h : s.Evaluated) (hstep : s.step cfg a = some s') :
    s'.Evaluated := by
  cases htransition : a.isTransition with
  | false => exact h.delegated (Delegated.of_step htransition hstep)
  | true =>
      cases a with
      | submit actor submissionId outcome now => exact h.submit hstep
      | cancel actor submissionId outcome now => exact h.cancel hstep
      | create | updateCreated | attachIncoming | publish | commit | compensate | drop
      | enqueue | die => cases htransition

theorem evaluated_of_reach (hs : (submissionService cfg).Reach always s) : s.Evaluated := by
  refine hs.invariant ?_ ?_
  · rintro _ rfl
    exact ⟨fun e he => absurd he (Table.not_mem_empty e),
      fun e he => absurd he (Table.not_mem_empty e)⟩
  · intro s a t h _ hstep
    have hmoved : s.step cfg a = some t := hstep
    exact evaluated_of_step h hmoved

end Service

/-! ## The submit -/

/-- The CHECK constraints of `evaluations` on the class and the mode. -/
def EvaluationRow.MeetsChecks (e : EvaluationRow) : Prop :=
  e.workloadClass.value ∈ ["light", "medium", "heavy"] ∧
    e.evaluationMode.value ∈ ["legacy", "always_expensive", "fixed_progressive",
      "resource_aware_adaptive", "synthetic_execution"]

theorem EvaluationRow.meetsChecks (e : EvaluationRow) : e.MeetsChecks := by
  constructor
  · cases e.workloadClass <;> simp [WorkloadClass.value]
  · cases e.evaluationMode <;> simp [EvaluationMode.value]

/-- The submission is accepted: its owner is told so, it is SUBMITTED, and it has
one evaluation, which is queued and meets the constraints. -/
structure Accepted (s : Service) (row : SubmissionRow) : Prop where
  reply : ∃ requestId evaluationId,
    s.replies.head? = some (requestId, .submitted row.id evaluationId)
  submitted : ∃ row' ∈ s.submissions, row'.id = row.id ∧ row'.status = .submitted
  queued : ∃ e ∈ s.evaluations.evaluations, e.submissionId = row.id ∧ e.status = .queued ∧
    e.MeetsChecks ∧ ∀ other ∈ s.evaluations.evaluations, other.submissionId = row.id → other = e

section Submit

variable {cfg : SubmissionConfig} {s : Service} {actor : Actor} {row : SubmissionRow}

/-- The UPDATE of its owner finds a CREATED row. -/
theorem transitionIfCreated_of_owner {submissions : Submissions}
    (hrow : row ∈ submissions) (howner : row.participantId = actor.id)
    (hcreated : row.status = .created) (target : SubmissionStatus) (now : Timestamp) :
    ∃ submissions', submissions.transitionIfCreated row.id actor.id target now =
      some ({ row with status := target, updatedAt := now }, submissions') := by
  rw [Submissions.transitionIfCreated, Table.find?_of_mem hrow, Option.bind_some,
    if_pos ⟨howner, hcreated⟩]
  exact ⟨_, rfl⟩

/-- A CREATED submission has no evaluation yet. -/
theorem Service.Evaluated.no_evaluation (h : s.Evaluated) (hrow : row ∈ s.submissions)
    (hcreated : row.status = .created) :
    ∀ e ∈ s.evaluations.evaluations, e.submissionId ≠ row.id := by
  intro e he hsame
  obtain ⟨other, hother, hid, hstatus⟩ := h.submitted e he
  obtain rfl := Table.eq_of_key_eq hrow hother (hsame.symm.trans hid.symm)
  rw [hcreated] at hstatus
  cases hstatus

/-- Its first evaluation can be inserted. -/
theorem createQueued_of_first {db : EvaluationDb} {id submissionId : UUID}
    (hfirst : ∀ e ∈ db.evaluations, e.submissionId ≠ submissionId)
    (hfresh : ∀ e ∈ db.evaluations, e.id ≠ id) (workloadClass : WorkloadClass)
    (evaluationMode : EvaluationMode) (deadline : Option Timestamp) (now : Timestamp) :
    ∃ db', db.createQueued id submissionId workloadClass evaluationMode deadline 0 now =
      some db' := by
  unfold EvaluationDb.createQueued
  rw [if_neg]
  · obtain ⟨evaluations, hinsert⟩ := Option.ne_none_iff_exists'.mp
      (Table.insert_ne_none (t := db.evaluations) (r := ⟨id, submissionId, .queued, workloadClass,
        0, evaluationMode, deadline, now, none, none, 0, none, none, [], none⟩) hfresh)
    exact ⟨_, Option.map_eq_some_iff.mpr ⟨evaluations, hinsert, rfl⟩⟩
  · intro hany
    obtain ⟨e, he, hsame⟩ := List.any_eq_true.mp hany
    exact hfirst e he (of_decide_eq_true hsame)

variable (cfg) in
/-- **Queueing.**  The evaluation of a CREATED submission is queued exactly when
the deadline does not raise. -/
theorem queueEvaluation_isSome_iff (h : s.Evaluated) (hrow : row ∈ s.submissions)
    (hcreated : row.status = .created) {now : Timestamp} {winner : SubmissionRow}
    (hwinner : winner.id = row.id ∧ winner.metadata = row.metadata) :
    (∃ db, queueEvaluation cfg s.evaluations (s.nextUuid + 1) winner now = some db) ↔
      ∃ deadline, deadlineAt (row.metadata.get? "evaluation_deadline_seconds") now =
        .ok deadline := by
  unfold queueEvaluation
  rw [hwinner.2]
  cases hdeadline : deadlineAt (row.metadata.get? "evaluation_deadline_seconds") now with
  | error e => simp
  | ok deadline =>
      have hfresh : ∀ e ∈ s.evaluations.evaluations, e.id ≠ s.nextUuid + 1 := by
        intro e he hsame
        have hdrawn := h.drawn e he
        rw [hsame] at hdrawn
        exact absurd hdrawn (Nat.not_succ_lt_self)
      have hfirst : ∀ e ∈ s.evaluations.evaluations, e.submissionId ≠ winner.id := by
        rw [hwinner.1]
        exact h.no_evaluation hrow hcreated
      exact ⟨fun _ => ⟨deadline, rfl⟩, fun _ => createQueued_of_first hfirst hfresh _ _ _ _⟩

variable (cfg) in
/-- **Submit.**  The owner's submit of a CREATED row commits it with its evaluation,
or raises when the evaluation cannot be queued. -/
theorem submit_of_owner (hactor : actor.role = .participant) (hrow : row ∈ s.submissions)
    (hcreated : row.status = .created) (howner : row.participantId = actor.id)
    (now : Timestamp) :
    ∃ submissions winner,
      s.submissions.transitionIfCreated row.id actor.id .submitted now =
        some (winner, submissions) ∧
      (winner.id = row.id ∧ winner.metadata = row.metadata) ∧
      s.submit cfg actor row.id .ok now =
        match queueEvaluation cfg s.evaluations (s.nextUuid + 1) winner now with
        | none => some (s.answer .raised)
        | some evaluations =>
            some { s.answer (.submitted winner.id (s.nextUuid + 1)) with
              submissions := submissions
              evaluations := evaluations
              nextUuid := s.nextUuid + 2 } := by
  obtain ⟨submissions, htransition⟩ :=
    transitionIfCreated_of_owner hrow howner hcreated .submitted now
  refine ⟨submissions, _, htransition, ⟨rfl, rfl⟩, ?_⟩
  have hallowed : requireParticipant actor = .ok () := by rw [requireParticipant, if_pos hactor]
  unfold Service.submit
  rw [hallowed, htransition]
  dsimp only
  cases queueEvaluation cfg s.evaluations (s.nextUuid + 1)
    { row with status := .submitted, updatedAt := now } now <;> rfl

/-- A submission whose evaluation is queued is accepted. -/
theorem accepted_of_queued (h : s.Evaluated) (hrow : row ∈ s.submissions)
    (hcreated : row.status = .created) {now : Timestamp} {winner : SubmissionRow}
    {submissions : Submissions} {evaluations : EvaluationDb}
    (htransition : s.submissions.transitionIfCreated row.id actor.id .submitted now =
      some (winner, submissions)) (hid : winner.id = row.id)
    (hqueued : queueEvaluation cfg s.evaluations (s.nextUuid + 1) winner now =
      some evaluations) :
    Accepted { s.answer (.submitted winner.id (s.nextUuid + 1)) with
      submissions := submissions
      evaluations := evaluations
      nextUuid := s.nextUuid + 2 } row := by
  obtain ⟨_, _, _, _, _, hwinner, hmem⟩ := Submissions.transition_eq_some htransition
  obtain ⟨deadline, hinserted⟩ := createQueued_of_queueEvaluation hqueued
  obtain ⟨-, new, evals, hnew, hinsert, hdb⟩ := EvaluationDb.createQueued_inserts hinserted
  subst hdb
  refine ⟨⟨s.nextUuid, s.nextUuid + 1, by rw [← hid]; rfl⟩,
    ⟨winner, (hmem winner).mpr (Or.inr rfl), hid, by rw [hwinner]⟩,
    ⟨new, (Table.mem_of_insert hinsert).mpr (Or.inr rfl), hnew.submissionId.trans hid,
      hnew.status, new.meetsChecks, ?_⟩⟩
  intro other hother hsame
  rcases (Table.mem_of_insert hinsert).mp hother with hold | rfl
  · exact absurd hsame (h.no_evaluation hrow hcreated other hold)
  · rfl

end Submit

/-- **Accepted metadata can be submitted.**  In every run, the submit of a CREATED
submission by its owner is accepted exactly when the raw deadline of its metadata
fits. -/
theorem accepted_metadata_iff (cfg : SubmissionConfig) (s : Service)
    (hs : (submissionService cfg).Reach always s) (actor : Actor)
    (hactor : actor.role = .participant) (row : SubmissionRow) (hrow : row ∈ s.submissions)
    (hcreated : row.status = .created) (howner : row.participantId = actor.id)
    (now : Timestamp) (hnow : InDatetime now) :
    (∃ s', s.submit cfg actor row.id .ok now = some s' ∧ Accepted s' row) ↔
      DeadlineFits (row.metadata.get? "evaluation_deadline_seconds") now := by
  have hevaluated := Service.evaluated_of_reach hs
  obtain ⟨submissions, winner, htransition, hwinner, hsubmit⟩ :=
    submit_of_owner cfg hactor hrow hcreated howner now
  rw [hsubmit, ← deadlineAt_eq_ok_iff hnow,
    ← queueEvaluation_isSome_iff cfg hevaluated hrow hcreated hwinner]
  cases hqueued : queueEvaluation cfg s.evaluations (s.nextUuid + 1) winner now with
  | none =>
      -- the submit raises, and the row is left CREATED
      constructor
      · rintro ⟨s', hs', haccepted⟩
        obtain rfl := Option.some.inj hs'
        obtain ⟨row', hrow', hid, hstatus⟩ := haccepted.submitted
        obtain rfl := Table.eq_of_key_eq hrow' hrow hid
        rw [hcreated] at hstatus
        cases hstatus
      · rintro ⟨db, hdb⟩
        cases hdb
  | some evaluations =>
      constructor
      · exact fun _ => ⟨evaluations, rfl⟩
      · intro _
        exact ⟨_, rfl, accepted_of_queued hevaluated hrow hcreated htransition hwinner.1 hqueued⟩

/-! ## Two deadlines -/

/-- A submission is created with a deadline in its metadata. -/
def createWithDeadline (seconds : Int) : List ServiceAction :=
  [.create participant 5 (some [("evaluation_deadline_seconds", .int seconds)]) none none (.ok ()),
    .commit 0 .ok 10]

/-- Its row. -/
def deadlineRow (seconds : Int) : SubmissionRow :=
  ⟨2, 5, 7, .created, [("evaluation_deadline_seconds", .int seconds)], none, none, none, 10, 10⟩

theorem reach_deadlineRow (seconds : Int)
    (hrun : ((submissionService defaultConfig).run always emptyService
      (createWithDeadline seconds)).any
        (fun s => decide (deadlineRow seconds ∈ s.submissions.rows)) = true) :
    ∃ s, (submissionService defaultConfig).Reach always s ∧
      deadlineRow seconds ∈ s.submissions := by
  have hstart : (submissionService defaultConfig).start emptyService := rfl
  obtain ⟨s, hreach, htest⟩ := System.reach_of_test emptyService _ _ hstart hrun
  exact ⟨s, hreach, Table.mem_iff.mpr (of_decide_eq_true htest)⟩

/-- A deadline in a minute is accepted. -/
theorem accepted_metadata_minute :
    ∃ s s', (submissionService defaultConfig).Reach always s ∧
      s.submit defaultConfig participant 2 .ok 20 = some s' ∧ Accepted s' (deadlineRow 60) := by
  obtain ⟨s, hreach, hrow⟩ := reach_deadlineRow 60 (by decide +kernel)
  have hfits : DeadlineFits ((deadlineRow 60).metadata.get? "evaluation_deadline_seconds") 20 := by
    intro value hvalue
    obtain rfl : Json.int 60 = value := Option.some.inj hvalue
    have hfloat : floatOf (.int 60) = .ok (.finite 60) := by decide +kernel
    rw [hfloat]
    refine ⟨by simp, by simp, ?_⟩
    intro seconds hseconds
    cases hseconds
    decide +kernel
  obtain ⟨s', hs', haccepted⟩ := (accepted_metadata_iff defaultConfig s hreach participant rfl
    (deadlineRow 60) hrow rfl rfl 20 (by decide)).mpr hfits
  exact ⟨s, s', hreach, hs', haccepted⟩

/-- A deadline in thirty million years is accepted with the metadata, and cannot be
submitted. -/
theorem accepted_metadata_fails :
    ¬ ∀ (cfg : SubmissionConfig) (s : Service), (submissionService cfg).Reach always s →
      ∀ actor : Actor, actor.role = .participant → ∀ row ∈ s.submissions,
        row.status = .created → row.participantId = actor.id →
          ∀ now, InDatetime now →
            ∃ s', s.submit cfg actor row.id .ok now = some s' ∧ Accepted s' row := by
  intro hall
  obtain ⟨s, hreach, hrow⟩ := reach_deadlineRow 1000000000000000 (by decide +kernel)
  obtain ⟨s', hs', haccepted⟩ :=
    hall defaultConfig s hreach participant rfl _ hrow rfl rfl 20 (by decide)
  obtain ⟨submissions, winner, _, hwinner, hsubmit⟩ :=
    submit_of_owner defaultConfig (show participant.role = .participant from rfl) hrow rfl rfl 20
  have hraises : deadlineAt (winner.metadata.get? "evaluation_deadline_seconds") 20 =
      .error .overflowError := by
    rw [hwinner.2]
    decide +kernel
  rw [hsubmit, queueEvaluation, hraises] at hs'
  obtain rfl := Option.some.inj hs'
  obtain ⟨row', hrow', hid, hstatus⟩ := haccepted.submitted
  obtain rfl := Table.eq_of_key_eq hrow' hrow hid
  cases hstatus

end ChallengeForge
