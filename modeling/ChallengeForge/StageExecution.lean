import ChallengeForge.EvaluationStages

/-!
# Workers inside a progressive run

`_run_progressive` hands the evaluator to a thread of its own.  So a worker spends
its run in one stage after the other, while other workers claim, write and recover,
and writes only when the evaluator has returned.

* `workers_of_reach` — the stages aside, these are the workers;
* `onTheWay_of_reach` — a worker in a stage executes the run of its claim.
-/

namespace ChallengeForge

open Keyed Labelled Staged

/-- How far a worker's call of the evaluator has come. -/
inductive StageRun
  | executing (context : ClaimContext) (stage : Nat)
  | returned (context : ClaimContext)

namespace StageRun

/-- The stage that is executed. -/
def stage? : StageRun → Option Nat
  | .executing _ stage => some stage
  | .returned _ => none

/-- The head of the loop: the stage at the index, or the end of the plan. -/
def reach (context : ClaimContext) (i : Nat) : StageRun :=
  match DEFAULT_PLAN.stageAt i with
  | some _ => .executing context i
  | none => .returned context

/-- Stage `i` is over: the run goes on, or returns a result or a failure. -/
def advance (work : SubmissionWork) (mode : EvaluationMode) (context : ClaimContext) (i : Nat) :
    StageRun :=
  match DEFAULT_PLAN.stage work.runStage i with
  | some (.ok executed) =>
      match DEFAULT_PLAN.verdict mode context i executed with
      | .go => reach context (i + 1)
      | .stop _ | .pause _ => .returned context
  | some (.error _) | none => .returned context

/-- A run comes to the stage it is at. -/
theorem reach_executing {context context' : ClaimContext} {i j : Nat}
    (h : reach context i = .executing context' j) :
    context' = context ∧ j = i ∧ DEFAULT_PLAN.stageAt i ≠ none := by
  unfold reach at h
  split at h
  · rename_i spec hspec
    cases h
    exact ⟨rfl, rfl, by rw [hspec]; simp⟩
  · cases h

/-- A run goes on only after a stage that let it. -/
theorem advance_executing {work : SubmissionWork} {mode : EvaluationMode}
    {context context' : ClaimContext} {i j : Nat}
    (h : advance work mode context i = .executing context' j) :
    context' = context ∧ j = i + 1 ∧ ∃ executed,
      DEFAULT_PLAN.stage work.runStage i = some (.ok executed) ∧
        DEFAULT_PLAN.verdict mode context i executed = .go := by
  unfold advance at h
  split at h
  · rename_i executed hstage
    split at h
    · rename_i hgo
      obtain ⟨hcontext, hnext, -⟩ := reach_executing h
      exact ⟨hcontext, hnext, executed, hstage, hgo⟩
    · cases h
    · cases h
  · cases h
  · cases h

end StageRun

/-- The workers, and how far each has come with the evaluator. -/
structure StagedWorkers (Process : Type) where
  workers : Workers Process
  run : Process → Option StageRun

/-- What can happen to workers whose runs take their time. -/
inductive StageAction (Process : Type)
  | workers (a : EvaluatorAction Process)
  | startRun (p : Process) (context : ClaimContext)
  | endStage (p : Process)
  | finishRun (p : Process) (now : Timestamp)

namespace StagedWorkers

variable {Process : Type} [DecidableEq Process] (cfg : Deployment Process)

/-- A worker does not write while the evaluator runs, and a progressive result
only when it has returned. -/
def outsideRun (s : StagedWorkers Process) : EvaluatorAction Process → Bool
  | .finish _ _ (.progressive _) => false
  | .finish p _ _ => (s.run p).isNone
  | .createQueued _ _ _ _ _ _ _ | .claimNext _ _ _ | .beginExecutionAttempt _ _ | .die _
  | .recoverStaleRunning _ _ _ => true

/-- A process takes its thread with it. -/
def runAfter (s : StagedWorkers Process) : EvaluatorAction Process → Process → Option StageRun
  | .die p => Function.update s.run p none
  | .createQueued _ _ _ _ _ _ _ | .claimNext _ _ _ | .beginExecutionAttempt _ _
  | .finish _ _ _ | .recoverStaleRunning _ _ _ => s.run

/-- What an action does; `none` where it cannot happen. -/
def step (s : StagedWorkers Process) : StageAction Process → Option (StagedWorkers Process)
  | .workers a =>
      if s.outsideRun a then
        (s.workers.step cfg a).map (fun workers => { workers := workers, run := s.runAfter a })
      else none
  | .startRun p context =>
      match s.workers.claimed p, s.run p with
      | some row, none =>
          let context := { context with deadlineAt := row.deadlineAt }
          if (WorkDone.progressive context).inMode row.evaluationMode then
            some { s with
              run := Function.update s.run p (some (.reach context row.currentStage)) }
          else none
      | _, _ => none
  | .endStage p =>
      match s.workers.claimed p, s.run p with
      | some row, some (.executing context i) =>
          some { s with
            run := Function.update s.run p
              (some (.advance (cfg.work row.submissionId) row.evaluationMode context i)) }
      | _, _ => none
  | .finishRun p now =>
      match s.run p with
      | some (.returned context) =>
          (s.workers.step cfg (.finish p now (.progressive context))).map
            (fun workers => { workers := workers, run := Function.update s.run p none })
      | _ => none

/-- Nothing created yet, and nobody at work. -/
def Idle (s : StagedWorkers Process) : Prop := s.workers.Idle ∧ ∀ p, s.run p = none

end StagedWorkers

/-- The workers inside their runs, as a labelled system. -/
def stagedWorkers {Process : Type} [DecidableEq Process] (cfg : Deployment Process) :
    System (StagedWorkers Process) (StageAction Process) where
  start := StagedWorkers.Idle
  step := StagedWorkers.step cfg

namespace StagedWorkers

variable {Process : Type} [DecidableEq Process] {cfg : Deployment Process}
  {s t : StagedWorkers Process}

/-- What a step does, one constructor for each kind of it. -/
inductive RunStep (cfg : Deployment Process) (s : StagedWorkers Process) :
    StageAction Process → StagedWorkers Process → Prop
  | workers {a workers} (hout : s.outsideRun a = true)
      (hstep : s.workers.step cfg a = some workers) :
      RunStep cfg s (.workers a) { workers := workers, run := s.runAfter a }
  | started {p context row} (hclaimed : s.workers.claimed p = some row) (hidle : s.run p = none) :
      RunStep cfg s (.startRun p context)
        { s with
          run := Function.update s.run p
            (some (.reach { context with deadlineAt := row.deadlineAt } row.currentStage)) }
  | advanced {p row context i} (hclaimed : s.workers.claimed p = some row)
      (hrun : s.run p = some (.executing context i)) :
      RunStep cfg s (.endStage p)
        { s with
          run := Function.update s.run p
            (some (.advance (cfg.work row.submissionId) row.evaluationMode context i)) }
  | finished {p now context workers} (hrun : s.run p = some (.returned context))
      (hstep : s.workers.step cfg (.finish p now (.progressive context)) = some workers) :
      RunStep cfg s (.finishRun p now)
        { workers := workers, run := Function.update s.run p none }

/-- **Step inversion.** -/
theorem run_step {a : StageAction Process} (hstep : s.step cfg a = some t) :
    RunStep cfg s a t := by
  cases a with
  | workers a =>
      simp only [step] at hstep
      split at hstep
      · rename_i hout
        obtain ⟨workers, hworkers, rfl⟩ := Option.map_eq_some_iff.mp hstep
        exact .workers hout hworkers
      · cases hstep
  | startRun p context =>
      simp only [step] at hstep
      split at hstep
      · rename_i row hclaimed hidle
        split at hstep
        · cases hstep
          exact .started hclaimed hidle
        · cases hstep
      · cases hstep
  | endStage p =>
      simp only [step] at hstep
      split at hstep
      · rename_i row context i hclaimed hrun
        cases hstep
        exact .advanced hclaimed hrun
      · cases hstep
  | finishRun p now =>
      simp only [step] at hstep
      split at hstep
      · rename_i context hrun
        obtain ⟨workers, hworkers, rfl⟩ := Option.map_eq_some_iff.mp hstep
        exact .finished hrun hworkers
      · cases hstep

/-- The step of the workers that a step is, if it is one. -/
def evaluatorAction? (s : StagedWorkers Process) :
    StageAction Process → Option (EvaluatorAction Process)
  | .workers a => some a
  | .finishRun p now =>
      match s.run p with
      | some (.returned context) => some (.finish p now (.progressive context))
      | _ => none
  | .startRun _ _ | .endStage _ => none

/-- **Workers without stages.**  Runs under a condition that is read off the
steps of the workers are runs of the workers under it. -/
theorem workers_of_reach {ok : Condition (StagedWorkers Process) (StageAction Process)}
    {ok' : Condition (Workers Process) (EvaluatorAction Process)}
    (hok : ∀ s a a', ok s a → s.evaluatorAction? a = some a' → ok' s.workers a')
    (h : (stagedWorkers cfg).Reach ok s) : (evaluationWorkers cfg).Reach ok' s.workers := by
  refine h.simulate (f := StagedWorkers.workers) ?_ ?_
  · intro s hidle
    exact hidle.1
  intro s a t _ hcond hstep
  cases run_step hstep with
  | workers hout hworkers => exact .single (hok s _ _ hcond rfl) hworkers
  | started hclaimed hidle => exact .refl _
  | advanced hclaimed hrun => exact .refl _
  | @finished p now context workers hrun hworkers =>
      refine .single (hok s _ (.finish p now (.progressive context)) hcond ?_) hworkers
      simp [evaluatorAction?, hrun]

theorem run_of_runAfter {a : EvaluatorAction Process} {p : Process} {run : StageRun}
    (hrun : s.runAfter a p = some run) : s.run p = some run := by
  cases a with
  | die q =>
      by_cases hq : p = q
      · subst hq
        simp [runAfter] at hrun
      · simpa [runAfter, Function.update_of_ne hq] using hrun
  | createQueued id submissionId workload mode deadline stage now => exact hrun
  | claimNext q args now => exact hrun
  | beginExecutionAttempt q attempt => exact hrun
  | finish q now done => exact hrun
  | recoverStaleRunning staleBefore now os => exact hrun

/-- A write ends the work of one process. -/
theorem finish_claimed_ne {workers workers' : Workers Process} {p q : Process} {now : Timestamp}
    {done : WorkDone} (hstep : workers.step cfg (.finish q now done) = some workers')
    (hother : p ≠ q) {row : EvaluationRow} (hclaimed : workers.claimed p = some row) :
    workers'.claimed p = some row := by
  simp only [Workers.step] at hstep
  split at hstep
  · cases hstep
  split at hstep
  · cases hstep
    simpa [Function.update_of_ne hother] using hclaimed
  · cases hstep

/-- A worker inside a run keeps its claim. -/
theorem claimed_kept {a : EvaluatorAction Process} {workers : Workers Process}
    (hstep : s.workers.step cfg a = some workers) (hout : s.outsideRun a = true) {p : Process}
    {run : StageRun} (hrun : s.runAfter a p = some run) {row : EvaluationRow}
    (hclaimed : s.workers.claimed p = some row) : workers.claimed p = some row := by
  cases a with
  | createQueued id submissionId workload mode deadline stage now =>
      obtain ⟨db, -, rfl⟩ := Option.map_eq_some_iff.mp hstep
      exact hclaimed
  | claimNext q args now =>
      simp only [Workers.step] at hstep
      split at hstep
      · cases hstep
      rename_i hidle
      have hother : p ≠ q := by
        rintro rfl
        rw [hidle] at hclaimed
        cases hclaimed
      split at hstep
      · cases hstep
        exact hclaimed
      · cases hstep
        simpa [Function.update_of_ne hother] using hclaimed
  | beginExecutionAttempt q attempt =>
      simp only [Workers.step] at hstep
      split at hstep
      · cases hstep
      split at hstep
      · cases hstep
        exact hclaimed
      · cases hstep
  | finish q now done =>
      have hother : p ≠ q := by
        rintro rfl
        have hidle : (s.run p).isNone = true := by cases done <;> first | exact hout | cases hout
        rw [run_of_runAfter hrun] at hidle
        cases hidle
      exact finish_claimed_ne hstep hother hclaimed
  | die q =>
      cases hstep
      have hother : p ≠ q := by
        rintro rfl
        simp [runAfter] at hrun
      simpa [Function.update_of_ne hother] using hclaimed
  | recoverStaleRunning staleBefore now os =>
      cases hstep
      exact hclaimed

/-- How the run of a claim goes on from stage `i`. -/
abbrev runFrom (cfg : Deployment Process) (row : EvaluationRow) (context : ClaimContext)
    (i : Nat) : List (StageSpec × StageOutcome) → Ending String String → Prop :=
  Stretch (DEFAULT_PLAN.stage (cfg.work row.submissionId).runStage)
    (DEFAULT_PLAN.verdict row.evaluationMode context) i

/-- Stage `i` belongs to the run of the claim: how the run goes on from there is
how it ends. -/
structure OnTheWay (cfg : Deployment Process) (row : EvaluationRow) (context : ClaimContext)
    (i : Nat) : Prop where
  started : row.currentStage ≤ i
  rest : ∀ later ending, runFrom cfg row context i later ending →
    ∃ executed, executed.length = i - row.currentStage ∧
      runFrom cfg row context row.currentStage (executed ++ later) ending

omit [DecidableEq Process] in
theorem OnTheWay.first (row : EvaluationRow) (context : ClaimContext) :
    OnTheWay cfg row context row.currentStage where
  started := le_rfl
  rest later ending h := ⟨[], by simp, h⟩

omit [DecidableEq Process] in
theorem OnTheWay.next {row : EvaluationRow} {context : ClaimContext} {i : Nat}
    (h : OnTheWay cfg row context i) {executed : StageSpec × StageOutcome}
    (hstage : DEFAULT_PLAN.stage (cfg.work row.submissionId).runStage i = some (.ok executed))
    (hgo : DEFAULT_PLAN.verdict row.evaluationMode context i executed = .go) :
    OnTheWay cfg row context (i + 1) where
  started := Nat.le_succ_of_le h.started
  rest later ending hlater := by
    obtain ⟨before, hlength, hrun⟩ := h.rest _ ending (.next hstage hgo hlater)
    have hstarted := h.started
    refine ⟨before ++ [executed], ?_, by simpa using hrun⟩
    simp only [List.length_append, List.length_singleton]
    omega

/-- **Stages on the way.**  A worker in a stage executes the run of its claim. -/
theorem onTheWay_of_reach (h : (stagedWorkers cfg).Reach always s) {p : Process}
    {context : ClaimContext} {i : Nat} (hrun : s.run p = some (.executing context i)) :
    ∃ row, s.workers.claimed p = some row ∧ OnTheWay cfg row context i := by
  have hall : ∀ p context i, s.run p = some (.executing context i) →
      ∃ row, s.workers.claimed p = some row ∧ OnTheWay cfg row context i := by
    refine h.invariant (I := fun s => ∀ p context i, s.run p = some (.executing context i) →
      ∃ row, s.workers.claimed p = some row ∧ OnTheWay cfg row context i) ?_ ?_
    · intro s hidle p context i hrun
      rw [hidle.2 p] at hrun
      cases hrun
    · intro s a t hall _ hstep p context i hrun
      cases run_step hstep with
      | @workers a workers hout hworkers =>
          obtain ⟨row, hclaimed, hway⟩ := hall p context i (run_of_runAfter hrun)
          exact ⟨row, claimed_kept hworkers hout hrun hclaimed, hway⟩
      | @started q begun row hclaimed hidle =>
          by_cases hq : p = q
          · subst hq
            simp only [Function.update_self, Option.some.injEq] at hrun
            obtain ⟨rfl, rfl, -⟩ := StageRun.reach_executing hrun
            exact ⟨row, hclaimed, .first row _⟩
          · exact hall p context i (by simpa [Function.update_of_ne hq] using hrun)
      | @advanced q row before j hclaimed hbefore =>
          by_cases hq : p = q
          · subst hq
            simp only [Function.update_self, Option.some.injEq] at hrun
            obtain ⟨rfl, rfl, executed, hstage, hgo⟩ := StageRun.advance_executing hrun
            obtain ⟨row', hclaimed', hway⟩ := hall p _ _ hbefore
            obtain rfl : row = row' := Option.some.inj (hclaimed.symm.trans hclaimed')
            exact ⟨row, hclaimed, hway.next hstage hgo⟩
          · exact hall p context i (by simpa [Function.update_of_ne hq] using hrun)
      | @finished q now returned workers hreturned hworkers =>
          by_cases hq : p = q
          · subst hq
            simp at hrun
          obtain ⟨row, hclaimed, hway⟩ :=
            hall p context i (by simpa [Function.update_of_ne hq] using hrun)
          exact ⟨row, finish_claimed_ne hworkers hq hclaimed, hway⟩
  exact hall p context i hrun

end StagedWorkers

end ChallengeForge
