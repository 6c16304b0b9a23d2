import ChallengeForge.EvaluationQueue
import ChallengeForge.ProgressiveEvaluation
import ChallengeForge.PythonText

/-!
# Evaluation workers

`EvaluationWorker` in each of its modes, around one evaluation store.  A process
claims a row, evaluates the submission outside any transaction with what the
claim returned, and writes the completion that its mode computes:

* legacy — the placeholder evaluator's score, or its failure;
* synthetic execution — the disposition of the process outcome;
* the progressive modes — the result of a progressive run, merged with the
  record of the claims before it.

What a stage gives depends on the submission only; pressure, clocks and the
outcome of a spawned process come with each step.  Worker ids are arbitrary.

* `step_spec` — what a step can do, stated once;
* `queue_step` — a step that touches the store is one transaction of the queue.
-/

namespace ChallengeForge

open Keyed Labelled

/-- `text or default`. -/
def orText (text : Option String) (default : String) : String :=
  match text with
  | none => default
  | some text => if text = "" then default else text

/-- The value of a `score` column; the check constraint refuses others. -/
def checkedScore (score : Int) : Option Score :=
  if h : 0 ≤ score ∧ score ≤ 100 then some ⟨score, h⟩ else none

/-! ## The execution contract -/

/-- Normalized process outcome (not an evaluation decision). -/
inductive ExecutionOutcome
  | success
  | nonzeroExit
  | timeout
  | outputLimit
  | processLimit
  | memoryLimit
  | cpuLimit
  | workspaceLimit
  | resourceLimit
  | startFailure
  | executorError
  | cleanupError
  | orphanSuspected
  deriving DecidableEq, Repr

namespace ExecutionOutcome

def value : ExecutionOutcome → String
  | success => "SUCCESS"
  | nonzeroExit => "NONZERO_EXIT"
  | timeout => "TIMEOUT"
  | outputLimit => "OUTPUT_LIMIT"
  | processLimit => "PROCESS_LIMIT"
  | memoryLimit => "MEMORY_LIMIT"
  | cpuLimit => "CPU_LIMIT"
  | workspaceLimit => "WORKSPACE_LIMIT"
  | resourceLimit => "RESOURCE_LIMIT"
  | startFailure => "START_FAILURE"
  | executorError => "EXECUTOR_ERROR"
  | cleanupError => "CLEANUP_ERROR"
  | orphanSuspected => "ORPHAN_SUSPECTED"

/-- `_DETERMINISTIC_FAIL`. -/
def deterministicFail : List ExecutionOutcome :=
  [nonzeroExit, timeout, outputLimit, processLimit, memoryLimit, cpuLimit, workspaceLimit,
    resourceLimit, orphanSuspected]

end ExecutionOutcome

/-- `evaluation_terminal`. -/
inductive EvaluationTerminal
  | succeeded
  | failed
  | requeue
  deriving DecidableEq, Repr

/-- What `disposition` returns. -/
structure Disposition where
  terminal : EvaluationTerminal
  retryable : Bool
  score : Option Int
  failureReason : Option String
  deriving DecidableEq, Repr

/-- Map execution outcome → (terminal, retryable, score, failure_reason). -/
def disposition (outcome : ExecutionOutcome) (attemptCount maxAttempts : Int) : Disposition :=
  let reason := "execution_" ++ outcome.value.toLower
  if outcome = .success then ⟨.succeeded, false, some 100, none⟩
  else if outcome = .cleanupError then
    ⟨.failed, false, none, some "execution_cleanup_incomplete"⟩
  else if outcome ∈ ExecutionOutcome.deterministicFail then ⟨.failed, false, none, some reason⟩
  else if outcome = .startFailure ∨ outcome = .executorError then
    if attemptCount < maxAttempts then ⟨.requeue, true, none, some (reason ++ "_retry")⟩
    else ⟨.failed, false, none, some (reason ++ "_exhausted")⟩
  else ⟨.failed, false, none, some reason⟩

/-- A finished execution, as `run_synthetic_execution` reports it. -/
structure ExecutionReport where
  workload : String
  outcome : ExecutionOutcome
  attempt : ExecutionAttempt
  /-- `result.to_dict()`, `lim.to_dict()` and `budget_labels()`. -/
  execution : JsonDict
  budgets : JsonDict
  budgetLabels : JsonDict

/-- The `result_metadata` of an execution record. -/
def ExecutionReport.metadata (report : ExecutionReport) (submissionId : UUID)
    (retryable : Bool) : JsonDict :=
  [("evaluator", .str "synthetic_execution_v1"),
   ("submission_id", .str (uuidText submissionId)),
   ("execution_workload", .str report.workload),
   ("execution_outcome", .str report.outcome.value),
   ("execution", .obj report.execution),
   ("execution_attempt", .obj report.attempt.toMetadata),
   ("retryable", .bool retryable),
   ("budgets", .obj report.budgets),
   ("budget_labels", .obj report.budgetLabels)]

/-! ## What a worker writes -/

/-- What evaluating a submission gives: each stage of a plan, and the legacy
evaluator's score and `result_metadata` for a workload class and a measured
`execution_cpu_ms`. -/
structure SubmissionWork where
  runStage : StageRunner
  evaluateSubmission : WorkloadClass → Rat → Except String (Int × JsonDict)

namespace SubmissionWork

/-- `_run_legacy`; nothing is written when the score violates its constraint. -/
def legacyCompletion (work : SubmissionWork) (claimed : EvaluationRow) (executionCpuMs : Rat) :
    Option Completion :=
  match work.evaluateSubmission claimed.workloadClass executionCpuMs with
  | .error reason =>
      some (.failed reason (some
        [("evaluator", .str "deterministic_placeholder_v2"),
         ("workload_class", .str claimed.workloadClass.value)]))
  | .ok (score, metadata) =>
      (checkedScore score).map (fun score => .succeeded score metadata)

/-- The `progressive` entry of a stored record. -/
def priorProgressive (metadata : JsonDict) : JsonDict :=
  match metadata.get? "progressive" with
  | some (.obj prior) => prior
  | _ => []

/-- `prior.get("stages_completed") or []`; only runs write a list there. -/
def priorStages (prior : JsonDict) : List Json :=
  match prior.get? "stages_completed" with
  | some (.arr stages) => stages
  | _ => []

/-- `int(prior.get("actual_cost_units") or 0)`. -/
def priorCost (prior : JsonDict) : Int :=
  match prior.get? "actual_cost_units" with
  | some (.int cost) => cost
  | _ => 0

/-- `meta["progressive"][k] = v`. -/
def setProgressive (metadata : JsonDict) (k : String) (v : Json) : JsonDict :=
  metadata.set "progressive" (.obj ((priorProgressive metadata).set k v))

/-- Merge prior progressive metadata if re-escalating. -/
def deferredMetadata (claimed : EvaluationRow) (progressive : ProgressiveResult) : JsonDict :=
  let prior := priorProgressive claimed.resultMetadata
  let metadata := setProgressive progressive.resultMetadata "stages_completed"
    (.arr (priorStages prior ++ progressive.stages.map .obj))
  setProgressive metadata "actual_cost_units"
    (.int (priorCost prior + progressive.actualCostUnits))

/-- Accumulate cost if resuming after defer. -/
def finishedMetadata (claimed : EvaluationRow) (progressive : ProgressiveResult) : JsonDict :=
  let prior := priorProgressive claimed.resultMetadata
  if priorStages prior ≠ [] then
    let cost := priorCost prior + progressive.actualCostUnits
    let metadata := setProgressive progressive.resultMetadata "stages_completed"
      (.arr (priorStages prior ++ progressive.stages.map .obj))
    let metadata := setProgressive metadata "actual_cost_units" (.int cost)
    setProgressive metadata "compute_savings" (.float (computeSavings cost))
  else progressive.resultMetadata

/-- `ProgressiveEvaluator(mode).run` as a claim calls it. -/
def progressiveRun (work : SubmissionWork) (claimed : EvaluationRow) (context : ClaimContext) :
    Except String ProgressiveResult :=
  runProgressive claimed.evaluationMode DEFAULT_PLAN work.runStage
    { context with deadlineAt := claimed.deadlineAt } claimed.currentStage

/-- The class of the stage that is put off. -/
def deferredClass (nextStage : Nat) : WorkloadClass :=
  match DEFAULT_PLAN.stageAt nextStage with
  | some spec => spec.workloadClass
  | none => .heavy

/-- `_run_progressive`. -/
def progressiveCompletion (work : SubmissionWork) (claimed : EvaluationRow)
    (context : ClaimContext) : Option Completion :=
  match work.progressiveRun claimed context with
  | .error reason =>
      some (.failed reason (some
        [("evaluator", .str "progressive_synthetic_v1"),
         ("workload_class", .str claimed.workloadClass.value)]))
  | .ok progressive =>
    if progressive.finished then
      (checkedScore (progressive.score.getD 0)).map (fun score =>
        .succeededAtStage score (finishedMetadata claimed progressive) progressive.nextStage)
    else
      some (.deferred progressive.nextStage (deferredClass progressive.nextStage)
        (deferredMetadata claimed progressive))

end SubmissionWork

/-- `_run_synthetic_execution`, once the executor has returned. -/
def syntheticCompletion (maxAttempts : Int) (claimed : EvaluationRow)
    (report : ExecutionReport) : Option Completion :=
  let disposed := disposition report.outcome claimed.attemptCount maxAttempts
  let metadata := report.metadata claimed.submissionId disposed.retryable
  match disposed.terminal with
  | .requeue => some (.released metadata (orText disposed.failureReason "execution_retry"))
  | .succeeded =>
      (checkedScore (disposed.score.getD 0)).map (fun score => .succeeded score metadata)
  | .failed =>
      some (.failed (orText disposed.failureReason "execution_failed") (some metadata))

/-! ## The workers -/

/-- The worker ids, `evaluation_max_attempts`, and the submissions. -/
structure Deployment (Process : Type) where
  workerIdOf : Process → String
  maxAttempts : Int
  work : UUID → SubmissionWork

/-- How the work on a claimed row went: the branch `process_one` took, with what
it measured or was told by the operating system. -/
inductive WorkDone
  | submissionMissing
  | legacy (executionCpuMs : Rat)
  | synthetic (report : ExecutionReport)
  | invalidWorkload (error : String)
  | progressive (context : ClaimContext)

namespace WorkDone

/-- The branches that are open to a row of a mode. -/
def inMode (mode : EvaluationMode) : WorkDone → Bool
  | submissionMissing => true
  | legacy _ => mode = .legacy
  | synthetic _ | invalidWorkload _ => mode = .syntheticExecution
  | progressive _ => mode ≠ .legacy ∧ mode ≠ .syntheticExecution

/-- What the worker then writes; `none` where the write raises. -/
def completion {Process : Type} (cfg : Deployment Process) (claimed : EvaluationRow) :
    WorkDone → Option Completion
  | submissionMissing => some (.failed "Submission missing at evaluation time." none)
  | legacy executionCpuMs =>
      (cfg.work claimed.submissionId).legacyCompletion claimed executionCpuMs
  | synthetic report => syntheticCompletion cfg.maxAttempts claimed report
  | invalidWorkload error =>
      some (.failed ("invalid_execution_workload: " ++ error) (some
        [("evaluator", .str "synthetic_execution_v1"), ("error", .str error)]))
  | progressive context =>
      (cfg.work claimed.submissionId).progressiveCompletion claimed context

end WorkDone

/-- The store, and the row each process works on as its claim returned it. -/
structure Workers (Process : Type) where
  db : EvaluationDb
  claimed : Process → Option EvaluationRow

/-- What can happen to the workers. -/
inductive EvaluatorAction (Process : Type)
  | createQueued (id submissionId : UUID) (workloadClass : WorkloadClass)
      (evaluationMode : EvaluationMode) (deadlineAt : Option Timestamp)
      (currentStage : Nat) (now : Timestamp)
  | claimNext (p : Process) (args : ClaimArgs) (now : Timestamp)
  | beginExecutionAttempt (p : Process) (attempt : ExecutionAttempt)
  | finish (p : Process) (now : Timestamp) (done : WorkDone)
  | die (p : Process)
  | recoverStaleRunning (staleBefore now : Timestamp) (os : UUID → OsView)

namespace Workers

variable {Process : Type} [DecidableEq Process] (cfg : Deployment Process)

/-- The write at the end of a process's work on a row. -/
def write (s : Workers Process) (p : Process) (row : EvaluationRow) (now : Timestamp) :
    Option Completion → EvaluationDb
  | some c => s.db.complete row.id (cfg.workerIdOf p) now c
  | none => s.db

/-- A step of the workers.  A process claims only when it works on nothing; it
records an execution only in synthetic mode. -/
def step (s : Workers Process) : EvaluatorAction Process → Option (Workers Process)
  | .createQueued id submissionId workload mode deadline stage now =>
      (s.db.createQueued id submissionId workload mode deadline stage now).map
        (fun db => { s with db := db })
  | .claimNext p args now =>
      match s.claimed p with
      | some _ => none
      | none =>
        match s.db.claimTransaction { args with workerId := cfg.workerIdOf p } now with
        | none => some s
        | some (row, db) => some { db := db, claimed := Function.update s.claimed p (some row) }
  | .beginExecutionAttempt p attempt =>
      match s.claimed p with
      | none => none
      | some row =>
        if row.evaluationMode = .syntheticExecution then
          some { s with db := s.db.beginExecutionAttempt row.id (cfg.workerIdOf p) attempt }
        else none
  | .finish p now done =>
      match s.claimed p with
      | none => none
      | some row =>
        if done.inMode row.evaluationMode then
          some
            { db := s.write cfg p row now (done.completion cfg row)
              claimed := Function.update s.claimed p none }
        else none
  | .die p => some { s with claimed := Function.update s.claimed p none }
  | .recoverStaleRunning staleBefore now os =>
      some { s with db := s.db.recoverStaleRunning staleBefore cfg.maxAttempts now os }

/-- Nothing created yet, and nobody at work. -/
def Idle (s : Workers Process) : Prop :=
  s.db.evaluations.rows = [] ∧ ∀ p, s.claimed p = none

end Workers

/-- The workers as a labelled system. -/
def evaluationWorkers {Process : Type} [DecidableEq Process] (cfg : Deployment Process) :
    System (Workers Process) (EvaluatorAction Process) where
  start := Workers.Idle
  step := Workers.step cfg

/-! ## Steps, inverted once -/

/-- What a step does, one constructor for each kind of it. -/
inductive WorkerStep {Process : Type} [DecidableEq Process] (cfg : Deployment Process)
    (s : Workers Process) : EvaluatorAction Process → Workers Process → Prop
  | created {id submissionId workload mode deadline stage now db}
      (hcreate : s.db.createQueued id submissionId workload mode deadline stage now = some db) :
      WorkerStep cfg s (.createQueued id submissionId workload mode deadline stage now)
        { s with db := db }
  | foundNothing {p args now} : WorkerStep cfg s (.claimNext p args now) s
  | claimed {p args now row state} (hidle : s.claimed p = none)
      (hdec : s.db.ClaimDecision { args with workerId := cfg.workerIdOf p } row state) :
      WorkerStep cfg s (.claimNext p args now)
        { db := (s.db.setScheduler state).start row (cfg.workerIdOf p) now
          claimed := Function.update s.claimed p
            (some (row.startRunning (cfg.workerIdOf p) now)) }
  | recorded {p attempt row} (hclaimed : s.claimed p = some row) :
      WorkerStep cfg s (.beginExecutionAttempt p attempt)
        { s with db := s.db.beginExecutionAttempt row.id (cfg.workerIdOf p) attempt }
  | finished {p now done row c} (hclaimed : s.claimed p = some row)
      (hmode : done.inMode row.evaluationMode = true)
      (hcompletion : done.completion cfg row = some c) :
      WorkerStep cfg s (.finish p now done)
        { db := s.db.complete row.id (cfg.workerIdOf p) now c
          claimed := Function.update s.claimed p none }
  | dropped {a p} : WorkerStep cfg s a { s with claimed := Function.update s.claimed p none }
  | recovered {staleBefore now os} :
      WorkerStep cfg s (.recoverStaleRunning staleBefore now os)
        { s with db := s.db.recoverStaleRunning staleBefore cfg.maxAttempts now os }

namespace Workers

variable {Process : Type} [DecidableEq Process] {cfg : Deployment Process} {s t : Workers Process}

/-- **Step inversion.** -/
theorem step_spec {a : EvaluatorAction Process} (hstep : s.step cfg a = some t) :
    WorkerStep cfg s a t := by
  cases a with
  | createQueued id submissionId workload mode deadline stage now =>
      obtain ⟨db, hcreate, rfl⟩ := Option.map_eq_some_iff.mp hstep
      exact .created hcreate
  | claimNext p args now =>
      simp only [step] at hstep
      split at hstep
      · cases hstep
      rename_i hidle
      split at hstep
      · cases hstep
        exact .foundNothing
      · rename_i hclaim
        cases hstep
        obtain ⟨row, state, hdec, rfl, rfl⟩ := EvaluationDb.claimTransaction_eq_some_iff.mp hclaim
        exact .claimed hidle hdec
  | beginExecutionAttempt p attempt =>
      simp only [step] at hstep
      split at hstep
      · cases hstep
      rename_i row hclaimed
      split at hstep
      · cases hstep
        exact .recorded hclaimed
      · cases hstep
  | finish p now done =>
      simp only [step] at hstep
      split at hstep
      · cases hstep
      rename_i row hclaimed
      split at hstep
      · rename_i hmode
        cases hstep
        cases hcompletion : done.completion cfg row with
        | none => exact .dropped
        | some c => exact .finished hclaimed hmode hcompletion
      · cases hstep
  | die p =>
      cases hstep
      exact .dropped
  | recoverStaleRunning staleBefore now os =>
      cases hstep
      exact .recovered

/-- **Workers as the queue.**  A step leaves the evaluation store alone, or is
one transaction on it. -/
theorem queue_step {a : EvaluatorAction Process} (hstep : s.step cfg a = some t) :
    t.db = s.db ∨ ∃ transaction, s.db.transact transaction = some t.db := by
  cases step_spec hstep with
  | @created id submissionId workload mode deadline stage now db hcreate =>
      exact Or.inr ⟨.createQueued id submissionId workload mode deadline stage now, hcreate⟩
  | foundNothing => exact Or.inl rfl
  | @claimed p args now row state hidle hdec =>
      refine Or.inr ⟨.claimNext { args with workerId := cfg.workerIdOf p } now, ?_⟩
      simp only [EvaluationDb.transact, hdec.claimTransaction now]
  | @recorded p attempt row hclaimed =>
      exact Or.inr ⟨.beginExecutionAttempt row.id (cfg.workerIdOf p) attempt, rfl⟩
  | @finished p now done row c hclaimed hmode hcompletion =>
      exact Or.inr ⟨.complete row.id (cfg.workerIdOf p) now c, rfl⟩
  | dropped => exact Or.inl rfl
  | @recovered staleBefore now os =>
      exact Or.inr ⟨.recoverStaleRunning staleBefore cfg.maxAttempts now os, rfl⟩

/-- The store of reachable workers is a reachable store. -/
theorem db_of_reach (h : (evaluationWorkers cfg).Reach always s) :
    evaluationQueue.Reach always s.db := by
  refine h.simulate (f := Workers.db) ?_ ?_
  · intro s hidle
    exact hidle.1
  · intro s a t _ _ hstep
    rcases queue_step hstep with hsame | ⟨transaction, htransact⟩
    · rw [hsame]
      exact System.Path.refl _
    · exact System.Path.single trivial htransact

end Workers

end ChallengeForge
