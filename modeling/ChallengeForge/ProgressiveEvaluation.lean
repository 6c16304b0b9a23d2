import ChallengeForge.ProgressivePolicy
import ChallengeForge.PythonNumbers

/-!
# Progressive evaluation within one claim

`ProgressiveEvaluator.run`: the stages of a plan one after the other, from the
stage the claim starts at, until the policy finishes or defers.  The loop walks
the stages from `index` on, so that `stage_at(index)` is the first of them and
`stage_at(index + 1)` the second.

* `run_spec` — a run is a stretch of stages under the policy's verdicts, and
  its result is what that stretch adds up to.
-/

namespace ChallengeForge

open Staged

/-- What a stage of a submission gives, its measured time aside. -/
structure StageOutcome where
  confidence : StageConfidence
  score : Int
  peakAllocBytes : Nat
  evidence : JsonDict
  safeToTerminate : Bool

/-- `run_stage` for one submission: the outcome of a stage at its index, or the
reason of an `EvaluationFailed`. -/
abbrev StageRunner := StageSpec → Nat → Except String StageOutcome

/-- What a claim runs under: the pressure its worker saw, the deadline of the
row, and for each stage the clock at the decision after it and its measured
`execution_cpu_ms`. -/
structure ClaimContext where
  pressure : PressureState
  deadlineAt : Option Timestamp
  clock : Nat → Timestamp
  executionCpuMs : Nat → Rat

/-- Outcome of running progressive evaluation (finish or defer). -/
structure ProgressiveResult where
  finished : Bool
  score : Option Int
  nextStage : Nat
  earlyExitReason : Option String
  deferReason : Option String
  stages : List JsonDict
  actualCostUnits : Int
  peakAllocBytes : Nat
  executionCpuMs : Rat
  finalTier : Option String
  confidence : Option StageConfidence
  resultMetadata : JsonDict

/-- `round(x, digits)`. -/
def roundTo (digits : Nat) (x : Rat) : Rat := roundHalfEven (x * 10 ^ digits) / 10 ^ digits

/-- The share of the full cost that was saved, to four decimals. -/
def computeSavings (cost : Int) : Rat := roundTo 4 (1 - cost / ALWAYS_EXPENSIVE_COST_UNITS)

/-- The local variables of the loop. -/
structure Progress where
  stagesLog : List JsonDict
  totalCpu : Rat
  peak : Nat
  cost : Int
  score : Int
  confidence : Option StageConfidence

namespace Progress

/-- Nothing has run. -/
def initial : Progress where
  stagesLog := []
  totalCpu := 0
  peak := 0
  cost := 0
  score := 0
  confidence := none

/-- One stage ran. -/
def add (progress : Progress) (stage : StageSpec) (outcome : StageOutcome)
    (executionCpuMs : Rat) : Progress where
  stagesLog := progress.stagesLog ++ [outcome.evidence]
  totalCpu := progress.totalCpu + executionCpuMs
  peak := max progress.peak outcome.peakAllocBytes
  cost := progress.cost + stage.costUnits
  score := outcome.score
  confidence := some outcome.confidence

/-- `stages_log[-1]["stage"] if stages_log else None`. -/
def lastTier (progress : Progress) : Option String :=
  match progress.stagesLog.getLast? with
  | none => none
  | some evidence =>
    match evidence.get? "stage" with
    | some (.str name) => some name
    | _ => none

/-- A text or `null`. -/
def optText : Option String → Json
  | some text => .str text
  | none => .null

/-- `ProgressiveEvaluator._meta`. -/
def metadata (progress : Progress) (mode : EvaluationMode)
    (finalTier earlyExit defer : Option String) : JsonDict :=
  [("evaluator", .str "progressive_synthetic_v1"),
   ("progressive", .obj
     [("mode", .str mode.value),
      ("stages_attempted", .int progress.stagesLog.length),
      ("stages_completed", .arr (progress.stagesLog.map .obj)),
      ("actual_cost_units", .int progress.cost),
      ("always_expensive_cost_units", .int ALWAYS_EXPENSIVE_COST_UNITS),
      ("compute_savings", .float (if ALWAYS_EXPENSIVE_COST_UNITS ≠ 0 then
          computeSavings progress.cost else 0)),
      ("execution_cpu_ms", .float (roundTo 3 progress.totalCpu)),
      ("peak_alloc_bytes", .int progress.peak),
      ("final_tier", optText finalTier),
      ("early_exit_reason", optText earlyExit),
      ("defer_reason", optText defer),
      ("confidence", optText (progress.confidence.map StageConfidence.value))])]

/-- The result of a run that ends or stops here. -/
def result (progress : Progress) (mode : EvaluationMode) (finished : Bool) (nextStage : Nat)
    (earlyExitReason deferReason finalTier : Option String) : ProgressiveResult where
  finished := finished
  score := some progress.score
  nextStage := nextStage
  earlyExitReason := earlyExitReason
  deferReason := deferReason
  stages := progress.stagesLog
  actualCostUnits := progress.cost
  peakAllocBytes := progress.peak
  executionCpuMs := roundTo 3 progress.totalCpu
  finalTier := finalTier
  confidence := progress.confidence
  resultMetadata := progress.metadata mode finalTier earlyExitReason deferReason

end Progress

/-- The decision after the stage at `index`, when `rest` comes after it. -/
def decideAfter (mode : EvaluationMode) (context : ClaimContext) (rest : List StageSpec)
    (index : Nat) (outcome : StageOutcome) : EscalationDecision :=
  (ProgressivePolicy.mk mode).decide outcome.confidence rest.head?.isSome context.pressure
    context.deadlineAt (context.clock index) ((rest.head?.map StageSpec.costUnits).getD 0)
    outcome.safeToTerminate

/-- The loop of `run`, over the stages from `index` on. -/
def runStages (mode : EvaluationMode) (runStage : StageRunner) (context : ClaimContext) :
    List StageSpec → Nat → Progress → Except String ProgressiveResult
  | [], index, progress =>
      .ok (progress.result mode true index (some "plan_exhausted") none progress.lastTier)
  | stage :: rest, index, progress =>
      match runStage stage index with
      | .error reason => .error reason
      | .ok outcome =>
        let progress := progress.add stage outcome (context.executionCpuMs index)
        let decision := decideAfter mode context rest index outcome
        match decision.action with
        | .finish =>
            .ok (progress.result mode true (index + 1) (some decision.reason) none
              (some stage.name))
        | .defer =>
            .ok (progress.result mode false (index + 1) none (some decision.reason)
              (some stage.name))
        | .continue => runStages mode runStage context rest (index + 1) progress

/-- `ProgressiveEvaluator(mode, plan).run(start_stage=…)`. -/
def runProgressive (mode : EvaluationMode) (plan : EvaluationPlan) (runStage : StageRunner)
    (context : ClaimContext) (startStage : Nat) : Except String ProgressiveResult :=
  runStages mode runStage context (plan.stages.drop startStage) startStage .initial

/-! ## Runs as stretches -/

namespace EvaluationPlan

variable (plan : EvaluationPlan) (runStage : StageRunner)

/-- What stage `i` of the plan gives for the submission. -/
def stage (i : Nat) : Option (Except String (StageSpec × StageOutcome)) :=
  (plan.stageAt i).map (fun spec => (runStage spec i).map (fun outcome => (spec, outcome)))

/-- The policy's verdict on stage `i`. -/
def verdict (mode : EvaluationMode) (context : ClaimContext) (i : Nat)
    (executed : StageSpec × StageOutcome) : Verdict String :=
  (decideAfter mode context (plan.stages.drop (i + 1)) i executed.2).verdict

variable {plan} {mode : EvaluationMode} {context : ClaimContext} {i : Nat}
  {executed : StageSpec × StageOutcome}

/-- A decision other than to finish needs a next stage. -/
theorem verdict_next (h : ∀ reason, plan.verdict mode context i executed ≠ .stop reason) :
    i + 1 < plan.stages.length := by
  have haction : (decideAfter mode context (plan.stages.drop (i + 1)) i executed.2).action ≠
      .finish := by
    intro hfinish
    have hstop : plan.verdict mode context i executed = .stop
        (decideAfter mode context (plan.stages.drop (i + 1)) i executed.2).reason := by
      rw [verdict, EscalationDecision.verdict, hfinish]
    exact h _ hstop
  have hnext := ProgressivePolicy.decide_last haction
  rw [List.head?_drop] at hnext
  simpa using hnext

/-- A stage is put off only in the resource-aware mode, and only if it costs at
least 9 units. -/
theorem verdict_pause {reason : String}
    (h : plan.verdict mode context i executed = .pause reason) :
    mode = .resourceAwareAdaptive ∧ ∃ spec ∈ plan.stageAt (i + 1), 9 ≤ spec.costUnits := by
  have haction : (decideAfter mode context (plan.stages.drop (i + 1)) i executed.2).action =
      .defer := by
    rw [verdict, EscalationDecision.verdict] at h
    split at h
    · cases h
    · cases h
    · assumption
  obtain ⟨hmode, -, hnext, hcost, -, -⟩ := ProgressivePolicy.decide_defer haction
  obtain ⟨spec, hspec⟩ := Option.isSome_iff_exists.mp hnext
  refine ⟨hmode, spec, ?_, ?_⟩
  · rw [stageAt, ← List.head?_drop]
    exact hspec
  · simpa [hspec] using hcost

/-- Deferrals aside, the two progressive modes follow the same verdict. -/
theorem verdict_adaptive (straight context : ClaimContext) (i : Nat)
    (executed : StageSpec × StageOutcome) :
    plan.verdict .fixedProgressive straight i executed =
      (plan.verdict .resourceAwareAdaptive context i executed).unpaused :=
  ProgressivePolicy.decide_adaptive

end EvaluationPlan

/-- What the executed stages, the first of them stage `i`, add up to. -/
def Progress.after (progress : Progress) (context : ClaimContext) :
    Nat → List (StageSpec × StageOutcome) → Progress
  | _, [] => progress
  | i, x :: executed =>
      (progress.add x.1 x.2 (context.executionCpuMs i)).after context (i + 1) executed

/-- The result of a stretch that executed some stages and came to its end before
stage `index`. -/
def Progress.conclude (progress : Progress) (mode : EvaluationMode) (index : Nat)
    (lastStage : Option String) : Ending String String → Except String ProgressiveResult
  | .stopped reason => .ok (progress.result mode true index (some reason) none lastStage)
  | .paused reason => .ok (progress.result mode false index none (some reason) lastStage)
  | .exhausted =>
      .ok (progress.result mode true index (some "plan_exhausted") none progress.lastTier)
  | .failed reason => .error reason

/-- The name of the last executed stage. -/
def lastStageName (executed : List (StageSpec × StageOutcome)) : Option String :=
  executed.getLast?.map (fun x => x.1.name)

section Spec

variable {plan : EvaluationPlan} {runStage : StageRunner} {mode : EvaluationMode}
  {context : ClaimContext}

theorem lastStageName_cons {x : StageSpec × StageOutcome}
    {executed : List (StageSpec × StageOutcome)} (hne : executed ≠ []) :
    lastStageName (x :: executed) = lastStageName executed := by
  simp [lastStageName, List.getLast?_cons, List.getLast?_eq_some_getLast hne]

/-- The name of the last stage is asked for only if a stage was executed. -/
theorem conclude_cons {progress : Progress} {x : StageSpec × StageOutcome}
    {executed : List (StageSpec × StageOutcome)} {ending : Ending String String} {i index : Nat}
    (h : Stretch (plan.stage runStage) (plan.verdict mode context) i executed ending) :
    progress.conclude mode index (lastStageName (x :: executed)) ending =
      progress.conclude mode index (lastStageName executed) ending := by
  cases h with
  | exhausted hstage => rfl
  | failed hstage => rfl
  | stopped hstage hverdict => rw [lastStageName_cons (by simp)]
  | paused hstage hverdict => rw [lastStageName_cons (by simp)]
  | next hstage hverdict hrest => rw [lastStageName_cons (by simp)]

/-- The loop from any of its turns on. -/
theorem runStages_spec (rest : List StageSpec) (index : Nat) (progress : Progress)
    (hrest : plan.stages.drop index = rest) :
    ∃ executed ending,
      Stretch (plan.stage runStage) (plan.verdict mode context) index executed ending ∧
      runStages mode runStage context rest index progress =
        (progress.after context index executed).conclude mode (index + executed.length)
          (lastStageName executed) ending := by
  induction rest generalizing index progress with
  | nil =>
      refine ⟨[], .exhausted, .exhausted ?_, rfl⟩
      have hnone : plan.stages[index]? = none :=
        List.getElem?_eq_none (List.drop_eq_nil_iff.mp hrest)
      simp [EvaluationPlan.stage, EvaluationPlan.stageAt, hnone]
  | cons spec rest ih =>
      have hspec : plan.stageAt index = some spec := by
        rw [EvaluationPlan.stageAt, ← List.head?_drop, hrest]
        rfl
      have hdrop : plan.stages.drop (index + 1) = rest := by
        rw [← List.tail_drop, hrest]
        rfl
      cases hrun : runStage spec index with
      | error reason =>
          refine ⟨[], .failed reason, .failed ?_, ?_⟩
          · simp [EvaluationPlan.stage, hspec, hrun, Except.map]
          · simp [runStages, hrun, Progress.conclude]
      | ok outcome =>
          have hstage : plan.stage runStage index = some (.ok (spec, outcome)) := by
            simp [EvaluationPlan.stage, hspec, hrun, Except.map]
          have hverdict : plan.verdict mode context index (spec, outcome) =
              (decideAfter mode context rest index outcome).verdict := by
            rw [EvaluationPlan.verdict, hdrop]
          have hfirst : runStages mode runStage context (spec :: rest) index progress =
              match (decideAfter mode context rest index outcome).verdict with
              | .stop reason => (progress.add spec outcome (context.executionCpuMs index)).conclude
                  mode (index + 1) (some spec.name) (.stopped reason)
              | .pause reason => (progress.add spec outcome (context.executionCpuMs index)).conclude
                  mode (index + 1) (some spec.name) (.paused reason)
              | .go => runStages mode runStage context rest (index + 1)
                  (progress.add spec outcome (context.executionCpuMs index)) := by
            simp only [runStages, hrun, EscalationDecision.verdict]
            cases (decideAfter mode context rest index outcome).action <;> rfl
          rw [hfirst, ← hverdict]
          cases hdecided : plan.verdict mode context index (spec, outcome) with
          | stop reason =>
              exact ⟨_, _, .stopped hstage hdecided, rfl⟩
          | pause reason =>
              exact ⟨_, _, .paused hstage hdecided, rfl⟩
          | go =>
              obtain ⟨executed, ending, hstretch, hresult⟩ := ih (index + 1)
                (progress.add spec outcome (context.executionCpuMs index)) hdrop
              refine ⟨_, _, .next hstage hdecided hstretch, ?_⟩
              rw [hresult, conclude_cons hstretch, List.length_cons, Progress.after,
                Nat.add_assoc, Nat.add_comm 1]

/-- **Run specification.**  A run is a stretch of the plan's stages under the
policy's verdicts, and returns what the stretch adds up to. -/
theorem run_spec (plan : EvaluationPlan) (runStage : StageRunner) (mode : EvaluationMode)
    (context : ClaimContext) (startStage : Nat) :
    ∃ executed ending,
      Stretch (plan.stage runStage) (plan.verdict mode context) startStage executed ending ∧
      runProgressive mode plan runStage context startStage =
        (Progress.initial.after context startStage executed).conclude mode
          (startStage + executed.length) (lastStageName executed) ending :=
  runStages_spec (plan.stages.drop startStage) startStage .initial rfl

end Spec

end ChallengeForge
