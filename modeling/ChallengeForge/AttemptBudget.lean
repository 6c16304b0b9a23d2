import ChallengeForge.EvaluationStages

/-!
# The attempts of an evaluation

`evaluation_max_attempts` bounds how often an evaluation is claimed.  Three
operations put a RUNNING row back in the queue.  Stale recovery compares the
row's own count with the bound, and `disposition` the count of the claim it
retries; a deferral compares nothing.

* `attempts_bounded` — the bound holds in every run in which no row that has
  used up its attempts is deferred, or released by a superseded claim;
* `attempts_exceeded` — one worker under pressure exceeds it.
-/

namespace ChallengeForge

open Keyed Labelled

/-- The work ends with a request to run the evaluation again. -/
def WorkDone.requeues {Process : Type} (cfg : Deployment Process) (claimed : EvaluationRow) :
    WorkDone → Bool
  | .progressive context =>
      match (cfg.work claimed.submissionId).progressiveRun claimed context with
      | .ok result => !result.finished
      | .error _ => false
  | .synthetic report =>
      (disposition report.outcome claimed.attemptCount cfg.maxAttempts).terminal = .requeue
  | .submissionMissing | .legacy _ | .invalidWorkload _ => false

/-- Only such work puts the row back in the queue. -/
theorem WorkDone.requeues_of_queued {Process : Type} {cfg : Deployment Process}
    {claimed row : EvaluationRow} {done : WorkDone} {c : Completion} {now : Timestamp}
    (hcompletion : done.completion cfg claimed = some c)
    (hqueued : (c.apply now row).status = .queued) : done.requeues cfg claimed = true := by
  cases done with
  | submissionMissing =>
      cases hcompletion
      cases hqueued
  | invalidWorkload error =>
      cases hcompletion
      cases hqueued
  | legacy executionCpuMs =>
      simp only [completion, SubmissionWork.legacyCompletion] at hcompletion
      split at hcompletion
      · cases hcompletion
        cases hqueued
      · obtain ⟨score, -, rfl⟩ := Option.map_eq_some_iff.mp hcompletion
        cases hqueued
  | synthetic report =>
      simp only [completion, syntheticCompletion] at hcompletion
      split at hcompletion
      · rename_i hretry
        exact decide_eq_true hretry
      · obtain ⟨score, -, rfl⟩ := Option.map_eq_some_iff.mp hcompletion
        cases hqueued
      · cases hcompletion
        cases hqueued
  | progressive context =>
      simp only [completion, SubmissionWork.progressiveCompletion] at hcompletion
      unfold requeues
      split at hcompletion
      · cases hcompletion
        cases hqueued
      · rename_i result hrun
        split at hcompletion
        · obtain ⟨score, -, rfl⟩ := Option.map_eq_some_iff.mp hcompletion
          cases hqueued
        · rename_i hdeferred
          simp [hrun, hdeferred]

namespace Workers

variable {Process : Type} {cfg : Deployment Process} {s t : Workers Process}

/-- Nobody asks to run a row again that has used up its attempts. -/
def withinAttempts (cfg : Deployment Process) :
    Condition (Workers Process) (EvaluatorAction Process)
  | s, .finish p _ done =>
      ∀ claimed ∈ s.claimed p, done.requeues cfg claimed = true →
        ∀ row ∈ s.db.evaluations, row.ownedBy claimed.id (cfg.workerIdOf p) = true →
          (row.attemptCount : Int) < cfg.maxAttempts
  | _, _ => True

instance (s : Workers Process) (a : EvaluatorAction Process) :
    Decidable (withinAttempts cfg s a) :=
  match a with
  | .finish .. => inferInstanceAs (Decidable (∀ claimed ∈ s.claimed _, _))
  | .createQueued .. | .claimNext .. | .beginExecutionAttempt .. | .die ..
  | .recoverStaleRunning .. => isTrue trivial

/-- A row has attempts within the bound, and one more if it is queued. -/
structure AttemptsLeft (cfg : Deployment Process) (row : EvaluationRow) : Prop where
  bounded : (row.attemptCount : Int) ≤ cfg.maxAttempts
  queued : row.status = .queued → (row.attemptCount : Int) < cfg.maxAttempts

/-- A row that stops running keeps its attempts, and is requeued only if one is left. -/
theorem AttemptsLeft.of_settled {row row' : EvaluationRow} (h : AttemptsLeft cfg row)
    (hcount : row'.attemptCount = row.attemptCount)
    (hqueued : row'.status = .queued → (row.attemptCount : Int) < cfg.maxAttempts) :
    AttemptsLeft cfg row' where
  bounded := by rw [hcount]; exact h.bounded
  queued hstatus := by rw [hcount]; exact hqueued hstatus

section Steps

variable [DecidableEq Process]

/-- A step that meets the condition keeps every row within its attempts. -/
theorem attempts_step {a : EvaluatorAction Process} (hmax : 1 ≤ cfg.maxAttempts)
    (hok : withinAttempts cfg s a) (h : WorkerStep cfg s a t) :
    Table.Evolves (fun row row' => AttemptsLeft cfg row → AttemptsLeft cfg row')
      (AttemptsLeft cfg) s.db.evaluations t.db.evaluations := by
  cases h with
  | created hcreate =>
      obtain ⟨-, row, evaluations, hnew, hinsert, rfl⟩ :=
        EvaluationDb.createQueued_inserts hcreate
      have hzero : (row.attemptCount : Int) = 0 := by simp [hnew.attemptCount]
      exact .insert hinsert ⟨by omega, fun _ => by omega⟩
  | foundNothing => exact .refl _
  | @claimed p args now row state hidle hdec =>
      obtain ⟨hrow, hqueued⟩ := hdec.queued
      refine .update (EvaluationRow.startRunning_id (cfg.workerIdOf p) now) ?_
      intro other hother hid hleft
      obtain rfl : other = row := Table.eq_of_key_eq hother hrow (of_decide_eq_true hid)
      have hone := hleft.queued hqueued
      have hcount : ((other.startRunning (cfg.workerIdOf p) now).attemptCount : Int) =
          other.attemptCount + 1 := rfl
      exact ⟨by omega, fun hstatus => by cases hstatus⟩
  | @recorded p attempt claimed hclaimed =>
      refine .update (f := EvaluationDb.recordAttempt attempt) (fun _ => rfl) ?_
      intro row hrow howned hleft
      exact hleft.of_settled rfl hleft.queued
  | @finished p now done claimed c hclaimed hmode hcompletion =>
      rw [EvaluationDb.complete_eq_apply]
      refine .update (fun row => c.apply_id now row) ?_
      intro row hrow howned hleft
      refine hleft.of_settled (by cases c <;> rfl) ?_
      intro hqueued
      exact hok claimed hclaimed (WorkDone.requeues_of_queued hcompletion hqueued) row hrow howned
  | dropped => exact .refl _
  | @recovered staleBefore now os =>
      have hrewrite := EvaluationDb.recover_rewrite staleBefore cfg.maxAttempts now os
      refine .update hrewrite.id ?_
      intro row hrow hstale hleft
      exact hleft.of_settled (hrewrite.attemptCount row)
        (fun hqueued => (EvaluationRow.recover_queued hqueued).1)

/-- **Bounded attempts.**  In every run whose steps meet the condition. -/
theorem attempts_bounded (cfg : Deployment Process) (hmax : 1 ≤ cfg.maxAttempts)
    (s : Workers Process) (h : (evaluationWorkers cfg).Reach (withinAttempts cfg) s) :
    ∀ row ∈ s.db.evaluations, (row.attemptCount : Int) ≤ cfg.maxAttempts := by
  have hleft : ∀ row ∈ s.db.evaluations, AttemptsLeft cfg row := by
    refine h.invariant (I := fun s => ∀ row ∈ s.db.evaluations, AttemptsLeft cfg row) ?_ ?_
    · intro s hidle row hrow
      exact absurd hrow (by simp [Table.mem_iff, hidle.1])
    · intro s a t hall hok hstep
      exact (attempts_step hmax hok (step_spec hstep)).all (fun _ _ hrow hstep => hstep hrow)
        (fun _ hnew => hnew) hall
  intro row hrow
  exact (hleft row hrow).bounded

end Steps

end Workers

/-! ## One worker, one attempt -/

/-- One worker, and one attempt for every evaluation. -/
def singleAttemptDeployment : Deployment Unit where
  workerIdOf _ := "worker-1"
  maxAttempts := 1
  work _ := uncertainWork

/-- The worker runs an evaluation to its end. -/
def straightRun : List (EvaluatorAction Unit) :=
  let args : ClaimArgs := ⟨"", .boundedLightBypass, 2, 1, 2⟩
  [.createQueued 1 10 .light .resourceAwareAdaptive none 0 0, .claimNext () args 1,
    .finish () 2 (.progressive (underPressure .normal))]

theorem attempts_bounded_straight :
    ∃ s : Workers Unit,
      (∃ row ∈ s.db.evaluations, row.status = .succeeded ∧ row.attemptCount = 1) ∧
      ∀ row ∈ s.db.evaluations, (row.attemptCount : Int) ≤ 1 := by
  have hstart : (evaluationWorkers singleAttemptDeployment).start
      ⟨⟨Table.empty, none⟩, fun _ => none⟩ := ⟨rfl, fun _ => rfl⟩
  obtain ⟨s, hreach, htest⟩ :
      ∃ s, (evaluationWorkers singleAttemptDeployment).Reach
          (Workers.withinAttempts singleAttemptDeployment) s ∧
        decide (∃ row ∈ s.db.evaluations, row.status = .succeeded ∧ row.attemptCount = 1) =
          true :=
    System.reach_of_test _ straightRun _ hstart (by decide)
  exact ⟨s, of_decide_eq_true htest,
    Workers.attempts_bounded singleAttemptDeployment (by decide) s hreach⟩

/-- Under pressure the worker puts the HEAVY stage off, and claims the row again. -/
def deferredRun : List (EvaluatorAction Unit) :=
  let args : ClaimArgs := ⟨"", .boundedLightBypass, 2, 1, 2⟩
  [.createQueued 1 10 .light .resourceAwareAdaptive none 0 0, .claimNext () args 1,
    .finish () 2 (.progressive (underPressure .degraded)), .claimNext () args 3]

/-- **Attempts exceeded.**  A deferral does not look at the attempts. -/
theorem attempts_exceeded :
    ¬ ∀ (cfg : Deployment Unit) (s : Workers Unit), 1 ≤ cfg.maxAttempts →
      (evaluationWorkers cfg).Reach always s →
        ∀ row ∈ s.db.evaluations, (row.attemptCount : Int) ≤ cfg.maxAttempts := by
  intro hbounded
  have hstart : (evaluationWorkers singleAttemptDeployment).start
      ⟨⟨Table.empty, none⟩, fun _ => none⟩ := ⟨rfl, fun _ => rfl⟩
  obtain ⟨s, hreach, htest⟩ :
      ∃ s, (evaluationWorkers singleAttemptDeployment).Reach always s ∧
        decide (∃ row ∈ s.db.evaluations, (1 : Int) < row.attemptCount) = true :=
    System.reach_of_test _ deferredRun _ hstart (by decide)
  obtain ⟨row, hrow, hexceeded⟩ := of_decide_eq_true htest
  have hle := hbounded singleAttemptDeployment s (by decide) hreach row hrow
  have hmax : singleAttemptDeployment.maxAttempts = 1 := rfl
  omega

end ChallengeForge
