import ChallengeForge.EvaluationStore
import ChallengeForge.PythonNumbers
import Mathlib.Algebra.Order.Ring.Unbundled.Rat

/-!
# The resource-aware runtime

What an evaluation worker consults before it claims: budgets taken from the
settings, the classification of a host sample into a pressure state, the
closed-loop feedback from interactive latency, the adaptive concurrency
controller and the admission gate, wired together by `tick`.

Floating-point settings and samples are the rationals they denote.  Clock
readings are arguments; the change histories kept for display are left out.

* `classify_eq_degraded_iff` — DEGRADED is one of four hard limits reached;
* `tick_without_feedback` — with interactive feedback disabled and nothing
  running, a tick admits, and grants HEAVY slots unless a hard limit is reached.
-/

namespace ChallengeForge

/-- The settings the evaluation worker and its runtime read, with their
defaults and the bounds the configuration enforces. -/
structure Settings where
  evaluationMaxWorkers : Int := 1
  evaluationMinWorkers : Int := 1
  evaluationMaxConcurrentHeavy : Int := 1
  evaluationLightBypassLimit : Int := 2
  evaluationSchedulingPolicy : SchedulingPolicy := .boundedLightBypass
  evaluationBusyQueueDepth : Int := 20
  evaluationSaturatedQueueDepth : Int := 100
  resourceAwareRuntimeEnabled : Bool := true
  resourceCpuLowPercent : Rat := 35
  resourceCpuHighPercent : Rat := 75
  resourceMemorySoftMb : Rat := 256
  resourceMemoryHardMb : Rat := 400
  resourceAdjustCooldownSeconds : Rat := 2
  resourceInteractiveP95WarnMs : Rat := 0
  resourceInteractiveP95CriticalMs : Rat := 0
  resourceInteractiveP95RecoveryMs : Rat := 0
  resourceInteractiveMinSamples : Int := 8
  resourceInteractiveSustainSeconds : Rat := 1
  resourceInteractiveCriticalHoldAll : Bool := false
  one_le_maxWorkers : 1 ≤ evaluationMaxWorkers := by decide
  one_le_minWorkers : 1 ≤ evaluationMinWorkers := by decide
  one_le_maxConcurrentHeavy : 1 ≤ evaluationMaxConcurrentHeavy := by decide
  zero_le_lightBypassLimit : 0 ≤ evaluationLightBypassLimit := by decide
  one_le_minSamples : 1 ≤ resourceInteractiveMinSamples := by decide

/-- Hard and soft limits for interactive vs expensive planes. -/
structure ResourceBudget where
  minEvaluationConcurrency : Int
  maxEvaluationConcurrency : Int
  maxConcurrentHeavy : Int
  maxQueuedEvaluationsSoft : Int
  maxQueuedEvaluationsHard : Int
  cpuLowPercent : Rat
  cpuHighPercent : Rat
  memorySoftMb : Rat
  memoryHardMb : Rat
  adjustCooldownSeconds : Rat
  interactiveP95WarnMs : Rat
  interactiveP95CriticalMs : Rat
  interactiveP95RecoveryMs : Rat
  interactiveMinSamples : Int
  interactiveSustainSeconds : Rat
  interactiveCriticalHoldAll : Bool

namespace ResourceBudget

/-- The settings as a budget: neither the floor nor the HEAVY slots are above the ceiling.
-/
def fromSettings (settings : Settings) : ResourceBudget :=
  let maxConc := max 1 settings.evaluationMaxWorkers
  let minConc := max 1 (min settings.evaluationMinWorkers maxConc)
  { minEvaluationConcurrency := minConc
    maxEvaluationConcurrency := maxConc
    maxConcurrentHeavy := max 0 (min settings.evaluationMaxConcurrentHeavy maxConc)
    maxQueuedEvaluationsSoft := settings.evaluationBusyQueueDepth
    maxQueuedEvaluationsHard := settings.evaluationSaturatedQueueDepth
    cpuLowPercent := settings.resourceCpuLowPercent
    cpuHighPercent := settings.resourceCpuHighPercent
    memorySoftMb := settings.resourceMemorySoftMb
    memoryHardMb := settings.resourceMemoryHardMb
    adjustCooldownSeconds := settings.resourceAdjustCooldownSeconds
    interactiveP95WarnMs := settings.resourceInteractiveP95WarnMs
    interactiveP95CriticalMs := settings.resourceInteractiveP95CriticalMs
    interactiveP95RecoveryMs := settings.resourceInteractiveP95RecoveryMs
    interactiveMinSamples := settings.resourceInteractiveMinSamples
    interactiveSustainSeconds := settings.resourceInteractiveSustainSeconds
    interactiveCriticalHoldAll := settings.resourceInteractiveCriticalHoldAll }

/-- A value between the floor and the ceiling. -/
def clampConcurrency (budget : ResourceBudget) (value : Int) : Int :=
  max budget.minEvaluationConcurrency (min budget.maxEvaluationConcurrency value)

/-- Settings grant at least one HEAVY slot. -/
theorem one_le_maxConcurrentHeavy (settings : Settings) :
    1 ≤ (fromSettings settings).maxConcurrentHeavy := by
  have hworkers := settings.one_le_maxWorkers
  have hheavy := settings.one_le_maxConcurrentHeavy
  simp only [fromSettings]
  omega

end ResourceBudget

/-! ## Observation and pressure -/

/-- What the observer measures of its own process; `none` without psutil. -/
structure HostSample where
  cpuPercent : Option Rat
  rssMb : Option Rat

/-- A sample of the host and of the queue; what could not be read is `none`. -/
structure ResourceSnapshot where
  cpuPercent : Option Rat
  rssMb : Option Rat
  queuedEvaluations : Int
  runningEvaluations : Int
  interactiveP95Ms : Option Rat

/-- `ResourceObserver.sample`. -/
def HostSample.snapshot (host : HostSample) (queuedEvaluations runningEvaluations : Int)
    (interactiveP95Ms : Option Rat) : ResourceSnapshot where
  cpuPercent := host.cpuPercent
  rssMb := host.rssMb
  queuedEvaluations := max 0 queuedEvaluations
  runningEvaluations := max 0 runningEvaluations
  interactiveP95Ms := interactiveP95Ms

/-- `value is not None and value >= limit`. -/
def reaches (value : Option Rat) (limit : Rat) : Bool :=
  value.any (fun v => decide (limit ≤ v))

/-- Map a snapshot and a budget to an explicit runtime pressure state. -/
def PressureClassifier.classify (snapshot : ResourceSnapshot) (budget : ResourceBudget) :
    PressureState :=
  let hardCpu := reaches snapshot.cpuPercent budget.cpuHighPercent
  let hardMem := reaches snapshot.rssMb budget.memoryHardMb
  let hardQueue := decide (snapshot.queuedEvaluations ≥ budget.maxQueuedEvaluationsHard)
  let hardInteractive := decide (budget.interactiveP95CriticalMs > 0) &&
    reaches snapshot.interactiveP95Ms budget.interactiveP95CriticalMs
  if hardCpu || hardMem || hardQueue || hardInteractive then .degraded
  else
    let softCpu := reaches snapshot.cpuPercent
      ((budget.cpuLowPercent + budget.cpuHighPercent) / 2)
    let softMem := reaches snapshot.rssMb budget.memorySoftMb
    let softQueue := decide (snapshot.queuedEvaluations ≥ budget.maxQueuedEvaluationsSoft)
    let softInteractive := decide (budget.interactiveP95WarnMs > 0) &&
      reaches snapshot.interactiveP95Ms budget.interactiveP95WarnMs
    if softCpu || softMem || softQueue || softInteractive then .pressured else .normal

/-- One of the classifier's hard limits is reached. -/
def ResourceBudget.HardLimitReached (budget : ResourceBudget) (snapshot : ResourceSnapshot) :
    Prop :=
  reaches snapshot.cpuPercent budget.cpuHighPercent = true ∨
  reaches snapshot.rssMb budget.memoryHardMb = true ∨
  budget.maxQueuedEvaluationsHard ≤ snapshot.queuedEvaluations ∨
  0 < budget.interactiveP95CriticalMs ∧
    reaches snapshot.interactiveP95Ms budget.interactiveP95CriticalMs = true

/-- DEGRADED is one of the hard limits reached. -/
theorem PressureClassifier.classify_eq_degraded_iff {snapshot : ResourceSnapshot}
    {budget : ResourceBudget} :
    classify snapshot budget = .degraded ↔ budget.HardLimitReached snapshot := by
  unfold classify ResourceBudget.HardLimitReached
  dsimp only
  split
  · rename_i hhard
    simpa [or_assoc] using hhard
  · rename_i hhard
    have hsoft : ∀ b : Bool,
        ¬ (if b = true then PressureState.pressured else .normal) = .degraded := by
      intro b
      cases b <;> simp
    refine iff_of_false (hsoft _) (fun hlimit => hhard ?_)
    simpa [or_assoc] using hlimit

/-! ## Interactive feedback -/

/-- How slow the interactive requests are. -/
inductive InteractiveLevel
  | healthy
  | warn
  | critical
  deriving DecidableEq, Repr

/-- Hysteresis and cooldown gate from raw p95 to a level. -/
structure InteractiveFeedbackController where
  warnMs : Rat
  criticalMs : Rat
  recoveryMs : Rat
  minSamples : Int
  sustainSeconds : Rat
  cooldownSeconds : Rat
  level : InteractiveLevel := .healthy
  candidate : Option InteractiveLevel := none
  candidateSince : Option Rat := none
  lastChangeAt : Option Rat := none

namespace InteractiveFeedbackController

/-- Both thresholds are set. -/
def enabled (feedback : InteractiveFeedbackController) : Bool :=
  feedback.warnMs > 0 && feedback.criticalMs > 0

/-- The double of `0.8`. -/
def recoveryFraction : Rat := 3602879701896397 / 2 ^ 52

/-- `warn_ms * 0.8` is a product of doubles. -/
def effectiveRecoveryMs (feedback : InteractiveFeedbackController) : Rat :=
  if feedback.recoveryMs > 0 then feedback.recoveryMs
  else if feedback.warnMs > 0 then
    match toDouble (feedback.warnMs * recoveryFraction) with
    | .finite product => product
    -- the product is below `warn_ms`, which is a double
    | .inf | .nan => feedback.warnMs
  else 0

/-- The level a latency asks for.  In CRITICAL every latency below the warn threshold asks
for HEALTHY, in WARN only one within the recovery threshold. -/
def desiredLevel (feedback : InteractiveFeedbackController) (p95Ms : Rat) :
    InteractiveLevel :=
  let recovery := feedback.effectiveRecoveryMs
  match feedback.level with
  | .critical =>
    if p95Ms ≤ recovery then .healthy
    else if p95Ms ≥ feedback.criticalMs then .critical
    else if p95Ms ≥ feedback.warnMs then .warn
    else .healthy
  | .warn =>
    if p95Ms ≤ recovery then .healthy
    else if p95Ms ≥ feedback.criticalMs then .critical
    else .warn
  | .healthy =>
    if p95Ms ≥ feedback.criticalMs then .critical
    else if p95Ms ≥ feedback.warnMs then .warn
    else .healthy

/-- `since is not None and now - since < seconds`. -/
def within (now : Rat) (since : Option Rat) (seconds : Rat) : Bool :=
  since.any (fun t => decide (now - t < seconds))

/-- The controller after one reading; its new level is what `update` returns. -/
def update (feedback : InteractiveFeedbackController) (p95Ms : Option Rat)
    (sampleCount : Int) (now : Rat) : InteractiveFeedbackController :=
  if feedback.enabled = false then { feedback with level := .healthy }
  else
    match p95Ms with
    | none => feedback
    | some p95Ms =>
      if sampleCount < feedback.minSamples then feedback
      else
        let desired := feedback.desiredLevel p95Ms
        if desired = feedback.level then
          { feedback with candidate := none, candidateSince := none }
        else if within now feedback.lastChangeAt feedback.cooldownSeconds then feedback
        else if feedback.candidate ≠ some desired then
          { feedback with candidate := some desired, candidateSince := some now }
        else if within now feedback.candidateSince feedback.sustainSeconds then feedback
        else
          { feedback with
            level := desired
            lastChangeAt := some now
            candidate := none
            candidateSince := none }

end InteractiveFeedbackController

/-- The pressure a level asks for. -/
def InteractiveLevel.floor : InteractiveLevel → PressureState
  | .healthy => .normal
  | .warn => .pressured
  | .critical => .degraded

/-- The states by how much they restrict. -/
def PressureState.order : PressureState → Nat
  | .normal => 0
  | .pressured => 1
  | .degraded => 2

/-- Raise the pressure floor from the interactive level; never lower it. -/
def mergePressure (resource : PressureState) (interactive : InteractiveLevel) :
    PressureState :=
  if interactive.floor.order ≥ resource.order then interactive.floor else resource

/-! ## Adaptive concurrency -/

/-- The concurrency in effect, and when it was last adjusted. -/
structure AdaptiveConcurrencyController where
  effectiveMaxWorkers : Option Int
  lastAdjustAt : Option Rat

namespace AdaptiveConcurrencyController

/-- Python's `value or default` on an optional integer. -/
def orElse (value : Option Int) (default : Int) : Int :=
  match value with
  | none => default
  | some v => if v = 0 then default else v

/-- Where `adjust` wants to move from `current`. -/
def target (budget : ResourceBudget) (pressure : PressureState) (snapshot : ResourceSnapshot)
    (current : Int) : Int :=
  match pressure with
  | .degraded => if current > budget.minEvaluationConcurrency then current - 1 else current
  | .pressured =>
    if current > budget.minEvaluationConcurrency + 1 then current - 1 else current
  | .normal =>
    let cpuOk := snapshot.cpuPercent.all (fun v => decide (v ≤ budget.cpuLowPercent))
    let memOk := snapshot.rssMb.all (fun v => decide (v ≤ budget.memorySoftMb))
    if snapshot.queuedEvaluations > 0 ∧ cpuOk = true ∧ memOk = true ∧
        current < budget.maxEvaluationConcurrency then
      current + 1
    else current

/-- The worker limit of this round, and the controller after it. -/
def adjust (controller : AdaptiveConcurrencyController) (budget : ResourceBudget)
    (pressure : PressureState) (snapshot : ResourceSnapshot) (now : Rat) :
    Int × AdaptiveConcurrencyController :=
  let current := budget.clampConcurrency (orElse controller.effectiveMaxWorkers 1)
  if InteractiveFeedbackController.within now controller.lastAdjustAt
      budget.adjustCooldownSeconds then
    (current, controller)
  else
    let target := budget.clampConcurrency (target budget pressure snapshot current)
    let controller :=
      if target ≠ current then
        { effectiveMaxWorkers := some target, lastAdjustAt := some now }
      else controller
    (orElse controller.effectiveMaxWorkers target, controller)

end AdaptiveConcurrencyController

/-! ## Admission -/

/-- Whether a claim is admitted, why, and under which pressure. -/
structure AdmissionDecision where
  allowed : Bool
  reason : String
  pressure : PressureState
  deriving DecidableEq, Repr

/-- Decide whether evaluation execution may start. -/
def ExpensiveAdmission.decide (pressure : PressureState) (budget : ResourceBudget)
    (snapshot : ResourceSnapshot) (effectiveMaxWorkers : Int)
    (interactiveLevel : InteractiveLevel) (criticalHoldAll : Bool) : AdmissionDecision :=
  if snapshot.runningEvaluations ≥ max 1 effectiveMaxWorkers then
    ⟨false, "global_concurrency_full", pressure⟩
  else if criticalHoldAll = true ∧ interactiveLevel = .critical then
    ⟨false, "interactive_critical_hold_all", pressure⟩
  else if pressure = .degraded ∧ reaches snapshot.rssMb budget.memoryHardMb = true ∧
      snapshot.runningEvaluations > 0 then
    ⟨false, "degraded_memory_hold", pressure⟩
  else ⟨true, "admitted", pressure⟩

/-! ## The facade -/

/-- Budget, controllers, and the last interactive latency that was set. -/
structure ResourceAwareRuntime where
  budget : ResourceBudget
  enabled : Bool
  controller : AdaptiveConcurrencyController
  interactiveFeedback : InteractiveFeedbackController
  interactiveP95Ms : Option Rat
  interactiveSampleCount : Int

/-- What a tick reports to the worker. -/
structure Tick where
  pressure : PressureState
  interactiveLevel : InteractiveLevel
  effectiveMaxWorkers : Int
  effectiveMaxHeavy : Int
  admission : AdmissionDecision

/-- The clock readings of one tick: `time.time()` and `time.monotonic()`. -/
structure Clocks where
  wall : Rat
  monotonic : Rat

namespace ResourceAwareRuntime

/-- A runtime as its constructor leaves it. -/
def ofBudget (budget : ResourceBudget) (enabled : Bool) : ResourceAwareRuntime where
  budget := budget
  enabled := enabled
  controller :=
    { effectiveMaxWorkers := some budget.minEvaluationConcurrency
      lastAdjustAt := none }
  interactiveFeedback :=
    { warnMs := budget.interactiveP95WarnMs
      criticalMs := budget.interactiveP95CriticalMs
      recoveryMs := budget.interactiveP95RecoveryMs
      minSamples := budget.interactiveMinSamples
      sustainSeconds := budget.interactiveSustainSeconds
      cooldownSeconds := max (1 / 2) budget.adjustCooldownSeconds }
  interactiveP95Ms := none
  interactiveSampleCount := 0

/-- The runtime an evaluation worker builds for itself. -/
def ofSettings (settings : Settings) : ResourceAwareRuntime :=
  ofBudget (ResourceBudget.fromSettings settings) settings.resourceAwareRuntimeEnabled

/-- The latency of the API as the worker learns it. -/
def setInteractiveP95Ms (runtime : ResourceAwareRuntime) (value : Option Rat)
    (sampleCount : Int) : ResourceAwareRuntime :=
  { runtime with interactiveP95Ms := value, interactiveSampleCount := max 0 sampleCount }

/-- Observe → classify → interactive floor → adjust → admission. -/
def tick (runtime : ResourceAwareRuntime) (host : HostSample)
    (queuedEvaluations runningEvaluations : Int) (clocks : Clocks) :
    Tick × ResourceAwareRuntime :=
  if runtime.enabled = false then
    ({ pressure := .normal
       interactiveLevel := .healthy
       effectiveMaxWorkers := runtime.budget.maxEvaluationConcurrency
       effectiveMaxHeavy := runtime.budget.maxConcurrentHeavy
       admission := ⟨true, "runtime_disabled", .normal⟩ }, runtime)
  else
    let useFeedback := runtime.interactiveFeedback.enabled
    let feedback := runtime.interactiveFeedback.update runtime.interactiveP95Ms
      runtime.interactiveSampleCount clocks.monotonic
    let level := feedback.level
    -- hysteresis feedback replaces the classifier's own look at the latency
    let snapshot := host.snapshot queuedEvaluations runningEvaluations
      (if useFeedback then none else runtime.interactiveP95Ms)
    let resourcePressure := PressureClassifier.classify snapshot runtime.budget
    let pressure :=
      if useFeedback then mergePressure resourcePressure level else resourcePressure
    let (effective, controller) :=
      runtime.controller.adjust runtime.budget pressure snapshot clocks.wall
    let effectiveMaxHeavy :=
      if pressure = .degraded ∨ level = .critical then 0
      else runtime.budget.maxConcurrentHeavy
    ({ pressure := pressure
       interactiveLevel := level
       effectiveMaxWorkers := effective
       effectiveMaxHeavy := effectiveMaxHeavy
       admission := ExpensiveAdmission.decide pressure runtime.budget snapshot effective
         level runtime.budget.interactiveCriticalHoldAll },
      { runtime with controller := controller, interactiveFeedback := feedback })

/-- **A tick without feedback and without running work.**  It admits, and it
grants the budget's HEAVY slots unless a hard limit is reached. -/
theorem tick_without_feedback (runtime : ResourceAwareRuntime)
    (henabled : runtime.enabled = true) (hfeedback : runtime.interactiveFeedback.enabled = false)
    (host : HostSample) (queued : Int) (clocks : Clocks) :
    let out := (runtime.tick host queued 0 clocks).1
    let snapshot := host.snapshot queued 0 runtime.interactiveP95Ms
    out.admission.allowed = true ∧
    (runtime.budget.HardLimitReached snapshot → out.effectiveMaxHeavy = 0) ∧
    (¬ runtime.budget.HardLimitReached snapshot →
      out.effectiveMaxHeavy = runtime.budget.maxConcurrentHeavy) := by
  have hlevel : (runtime.interactiveFeedback.update runtime.interactiveP95Ms
      runtime.interactiveSampleCount clocks.monotonic).level = .healthy := by
    simp [InteractiveFeedbackController.update, hfeedback]
  have hroom : ∀ workers : Int, ¬ (0 : Int) ≥ max 1 workers := by
    intro workers
    omega
  simp only [← PressureClassifier.classify_eq_degraded_iff, tick, henabled, hfeedback, hlevel,
    Bool.true_eq_false, if_false, Bool.false_eq_true]
  refine ⟨?_, ?_, ?_⟩
  · simp [ExpensiveAdmission.decide, HostSample.snapshot, hroom]
  · intro hdegraded
    simp [hdegraded]
  · intro hcalm
    simp [hcalm]

end ResourceAwareRuntime

end ChallengeForge
