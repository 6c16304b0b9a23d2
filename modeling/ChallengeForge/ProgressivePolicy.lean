import ChallengeForge.DomainModel
import ChallengeForge.StagedRuns

/-!
# The progressive escalation policy

The stages of an evaluation plan, and the decision taken after each of them:
finish, continue with the next stage, or defer it to a later claim.  An early
exit requires BOTH a confident outcome AND `safe_to_terminate`.

* `decide_adaptive` — the resource-aware mode decides as the fixed progressive
  mode does, except that it may put off a HEAVY stage;
* `decide_defer` — when it does, and that nothing else defers.
-/

namespace ChallengeForge

open Staged

/-- Stage confidence outcomes. -/
inductive StageConfidence
  | passConfident
  | failConfident
  | uncertain
  deriving DecidableEq, Repr

/-- The value of the enumeration. -/
def StageConfidence.value : StageConfidence → String
  | .passConfident => "pass_confident"
  | .failConfident => "fail_confident"
  | .uncertain => "uncertain"

/-- The name of a mode in the settings and the metadata. -/
def EvaluationMode.value : EvaluationMode → String
  | .legacy => "legacy"
  | .alwaysExpensive => "always_expensive"
  | .fixedProgressive => "fixed_progressive"
  | .resourceAwareAdaptive => "resource_aware_adaptive"
  | .syntheticExecution => "synthetic_execution"

/-- The modes of `ProgressiveEvaluator`. -/
def EvaluationMode.progressive (mode : EvaluationMode) : Prop :=
  mode = .alwaysExpensive ∨ mode = .fixedProgressive ∨ mode = .resourceAwareAdaptive

/-- The name of a class in the table and the metadata. -/
def WorkloadClass.value : WorkloadClass → String
  | .light => "light"
  | .medium => "medium"
  | .heavy => "heavy"

/-! ## Plans -/

/-- What a stage is declared to cost, and to add. -/
structure StageSpec where
  name : String
  workloadClass : WorkloadClass
  estimatedCpuCost : Rat
  estimatedMemoryMb : Rat
  estimatedDurationMs : Int
  qualityContribution : Rat
  costUnits : Int
  deriving DecidableEq

/-- The first stage. -/
def CHEAP : StageSpec where
  name := "cheap"
  workloadClass := .light
  estimatedCpuCost := 1
  estimatedMemoryMb := 1
  estimatedDurationMs := 20
  qualityContribution := 4 / 10
  costUnits := 1

/-- The second stage. -/
def MEDIUM : StageSpec where
  name := "medium"
  workloadClass := .medium
  estimatedCpuCost := 3
  estimatedMemoryMb := 8
  estimatedDurationMs := 80
  qualityContribution := 3 / 10
  costUnits := 3

/-- The third stage. -/
def HEAVY : StageSpec where
  name := "heavy"
  workloadClass := .heavy
  estimatedCpuCost := 9
  estimatedMemoryMb := 32
  estimatedDurationMs := 200
  qualityContribution := 3 / 10
  costUnits := 9

/-- What running every stage costs. -/
def ALWAYS_EXPENSIVE_COST_UNITS : Int :=
  CHEAP.costUnits + MEDIUM.costUnits + HEAVY.costUnits

/-- The stages of an evaluation, in order. -/
structure EvaluationPlan where
  stages : List StageSpec

/-- `None` past the last stage. -/
def EvaluationPlan.stageAt (plan : EvaluationPlan) (index : Nat) : Option StageSpec :=
  plan.stages[index]?

/-- The plan of every evaluation. -/
def DEFAULT_PLAN : EvaluationPlan := ⟨[CHEAP, MEDIUM, HEAVY]⟩

/-! ## Decisions -/

/-- What the policy does after a stage. -/
inductive EscalationAction
  | finish
  | «continue»
  | defer
  deriving DecidableEq, Repr

/-- An action and its reason. -/
structure EscalationDecision where
  action : EscalationAction
  reason : String
  deriving DecidableEq, Repr

/-- The policy of a mode. -/
structure ProgressivePolicy where
  mode : EvaluationMode

/-- At most 30 seconds remain. -/
def deadlineNear (deadlineAt : Option Timestamp) (now : Timestamp) : Bool :=
  deadlineAt.any (fun deadline => decide (deadline - now ≤ 30 * 1000000))

namespace StageConfidence

/-- The stage has decided, one way or the other. -/
def confident (confidence : StageConfidence) : Bool :=
  confidence = .passConfident ∨ confidence = .failConfident

/-- Only an uncertain stage has not decided. -/
theorem confident_eq_false {confidence : StageConfidence} :
    confidence.confident = false ↔ confidence = .uncertain := by
  cases confidence <;> simp [confident]

end StageConfidence

/-- What follows the stage that gave `confidence`. -/
def ProgressivePolicy.decide (policy : ProgressivePolicy) (confidence : StageConfidence)
    (nextStageExists : Bool) (pressure : PressureState) (deadlineAt : Option Timestamp)
    (now : Timestamp) (nextStageCostUnits : Int) (safeToTerminate : Bool) :
    EscalationDecision :=
  if policy.mode = .alwaysExpensive then
    if nextStageExists then ⟨.continue, "always_expensive"⟩ else ⟨.finish, "plan_exhausted"⟩
  else if confidence.confident ∧ safeToTerminate then
    ⟨.finish, s!"safe_early_exit_{confidence.value}"⟩
  else if confidence.confident ∧ ¬ safeToTerminate then
    -- an unsafe confident signal must escalate if possible
    if nextStageExists then ⟨.continue, "unsafe_confident_escalate"⟩
    else ⟨.finish, "plan_exhausted_unsafe_confident"⟩
  else if ¬ nextStageExists then ⟨.finish, "plan_exhausted_uncertain"⟩
  else if policy.mode = .fixedProgressive then ⟨.continue, "uncertain_escalate"⟩
  else if policy.mode ≠ .resourceAwareAdaptive then ⟨.finish, "unsupported_mode_finish"⟩
  else
    let near := deadlineNear deadlineAt now
    if pressure = .degraded ∧ nextStageCostUnits ≥ 9 ∧ ¬ near then
      ⟨.defer, "degraded_defer_heavy"⟩
    else if pressure = .pressured ∧ nextStageCostUnits ≥ 9 ∧ ¬ near then
      ⟨.defer, "pressured_defer_heavy"⟩
    else if near then ⟨.continue, "deadline_near_escalate"⟩
    else ⟨.continue, "uncertain_escalate"⟩

/-- A decision as the verdict on a stage. -/
def EscalationDecision.verdict (decision : EscalationDecision) : Verdict String :=
  match decision.action with
  | .finish => .stop decision.reason
  | .continue => .go
  | .defer => .pause decision.reason

namespace ProgressivePolicy

variable {policy : ProgressivePolicy} {confidence : StageConfidence}
  {nextStageExists safeToTerminate : Bool} {nextStageCostUnits : Int}
  {pressure pressure' : PressureState} {deadlineAt deadlineAt' : Option Timestamp}
  {now now' : Timestamp}

/-- **Deferrals.**  Only the resource-aware mode defers, after an uncertain
stage, under pressure and away from the deadline, and only a stage that costs
at least 9 units. -/
theorem decide_defer
    (h : (policy.decide confidence nextStageExists pressure deadlineAt now nextStageCostUnits
      safeToTerminate).action = .defer) :
    policy.mode = .resourceAwareAdaptive ∧ confidence = .uncertain ∧
      nextStageExists = true ∧ 9 ≤ nextStageCostUnits ∧ pressure ≠ .normal ∧
      deadlineNear deadlineAt now = false := by
  -- of the eleven exits only the two under pressure defer
  unfold decide at h
  have huncertain : confidence = .uncertain := by
    rw [← StageConfidence.confident_eq_false]
    grind
  have hexists : nextStageExists = true := by grind
  have hmode : policy.mode = .resourceAwareAdaptive := by grind
  have hfar : deadlineNear deadlineAt now = false := by grind
  have hpressure : pressure = .degraded ∨ pressure = .pressured := by grind
  have hcost : 9 ≤ nextStageCostUnits := by grind
  refine ⟨hmode, huncertain, hexists, hcost, ?_, hfar⟩
  rcases hpressure with rfl | rfl <;> simp

/-- Past the last stage there is nothing to continue with. -/
theorem decide_last
    (h : (policy.decide confidence nextStageExists pressure deadlineAt now nextStageCostUnits
      safeToTerminate).action ≠ .finish) :
    nextStageExists = true := by
  unfold decide at h
  grind

/-- **Deferral aside.**  Whatever the claim, the resource-aware mode finishes
where the fixed progressive mode does, and for the same reason. -/
theorem decide_adaptive :
    (decide ⟨.fixedProgressive⟩ confidence nextStageExists pressure' deadlineAt' now'
      nextStageCostUnits safeToTerminate).verdict =
    (decide ⟨.resourceAwareAdaptive⟩ confidence nextStageExists pressure deadlineAt now
      nextStageCostUnits safeToTerminate).verdict.unpaused := by
  unfold decide
  grind [EscalationDecision.verdict, Verdict.unpaused]

end ProgressivePolicy

end ChallengeForge
