import ChallengeForge.ResourceRuntime

/-!
# More load never loosens the expensive plane

Two ticks from one state, the second on a hotter host.  Each stage of a tick
(classification, merging in the interactive level, the concurrency step, the
admission gate) is shown to be monotone; the ticks are then compared stage by
stage.

* `classify_mono`, `order_mergePressure` — pressure only rises;
* `adjust_anti` — higher pressure and less headroom never yield more workers;
* `decide_anti` — what the gate lets in under more load it lets in under less;
* `tick_monotone` — the comparison of the two ticks.
-/

namespace ChallengeForge

/-- Both readings are absent, or both present and the second no lower. -/
def NoLower : Option Rat → Option Rat → Prop
  | none, none => True
  | some x, some y => x ≤ y
  | _, _ => False

instance : (x y : Option Rat) → Decidable (NoLower x y)
  | none, none => inferInstanceAs (Decidable True)
  | some x, some y => inferInstanceAs (Decidable (x ≤ y))
  | none, some _ => inferInstanceAs (Decidable False)
  | some _, none => inferInstanceAs (Decidable False)

/-- A reading that is no lower reaches what the other reaches. -/
theorem NoLower.reaches {x y : Option Rat} (h : NoLower x y) {limit : Rat}
    (hx : reaches x limit = true) : reaches y limit = true := by
  cases x with
  | none => simp [ChallengeForge.reaches] at hx
  | some x =>
      cases y with
      | none => exact h.elim
      | some y =>
          have hle : x ≤ y := h
          have hlimit : limit ≤ x := by simpa [ChallengeForge.reaches] using hx
          simpa [ChallengeForge.reaches] using hlimit.trans hle

/-- A reading that is no higher stays below what the other stays below. -/
theorem NoLower.all_le {x y : Option Rat} (h : NoLower x y) {limit : Rat}
    (hy : y.all (fun v => decide (v ≤ limit)) = true) :
    x.all (fun v => decide (v ≤ limit)) = true := by
  cases x with
  | none => rfl
  | some x =>
      cases y with
      | none => exact h.elim
      | some y =>
          have hle : x ≤ y := h
          have hlimit : y ≤ limit := by simpa using hy
          simpa using hle.trans hlimit

/-- Two samples of one queue and one set of running evaluations, the second
of a host no less loaded. -/
structure Hotter (cool hot : ResourceSnapshot) : Prop where
  cpu : NoLower cool.cpuPercent hot.cpuPercent
  rss : NoLower cool.rssMb hot.rssMb
  queued : hot.queuedEvaluations = cool.queuedEvaluations
  running : hot.runningEvaluations = cool.runningEvaluations
  interactive : NoLower cool.interactiveP95Ms hot.interactiveP95Ms

/-! ## Pressure -/

/-- Nothing is above DEGRADED. -/
theorem PressureState.eq_degraded_of_le {pressure other : PressureState}
    (hle : pressure.order ≤ other.order) (h : pressure = .degraded) : other = .degraded := by
  subst h
  cases other with
  | normal => exact absurd hle (by decide)
  | pressured => exact absurd hle (by decide)
  | degraded => rfl

/-- What the soft limits look for. -/
def ResourceBudget.SoftLimitReached (budget : ResourceBudget) (snapshot : ResourceSnapshot) :
    Prop :=
  reaches snapshot.cpuPercent ((budget.cpuLowPercent + budget.cpuHighPercent) / 2) = true ∨
  reaches snapshot.rssMb budget.memorySoftMb = true ∨
  budget.maxQueuedEvaluationsSoft ≤ snapshot.queuedEvaluations ∨
  0 < budget.interactiveP95WarnMs ∧
    reaches snapshot.interactiveP95Ms budget.interactiveP95WarnMs = true

/-- The pressure is NORMAL when no limit is reached. -/
theorem PressureClassifier.classify_eq_normal_iff {snapshot : ResourceSnapshot}
    {budget : ResourceBudget} :
    classify snapshot budget = .normal ↔
      ¬ budget.HardLimitReached snapshot ∧ ¬ budget.SoftLimitReached snapshot := by
  rw [← classify_eq_degraded_iff, ResourceBudget.SoftLimitReached]
  unfold classify
  dsimp only
  split
  · simp
  · split
    · rename_i hsoft
      refine iff_of_false (by simp) (fun hcalm => hcalm.2 ?_)
      simpa [or_assoc] using hsoft
    · rename_i hsoft
      refine iff_of_true rfl ⟨by simp, fun hlimit => hsoft ?_⟩
      simpa [or_assoc] using hlimit

/-- A hotter host reaches the hard limits too. -/
theorem ResourceBudget.HardLimitReached.mono {budget : ResourceBudget}
    {cool hot : ResourceSnapshot} (hhotter : Hotter cool hot)
    (h : budget.HardLimitReached cool) : budget.HardLimitReached hot := by
  rcases h with hcpu | hmem | hqueue | ⟨henabled, hinteractive⟩
  · exact .inl (hhotter.cpu.reaches hcpu)
  · exact .inr (.inl (hhotter.rss.reaches hmem))
  · exact .inr (.inr (.inl (hhotter.queued ▸ hqueue)))
  · exact .inr (.inr (.inr ⟨henabled, hhotter.interactive.reaches hinteractive⟩))

/-- A hotter host reaches the soft limits too. -/
theorem ResourceBudget.SoftLimitReached.mono {budget : ResourceBudget}
    {cool hot : ResourceSnapshot} (hhotter : Hotter cool hot)
    (h : budget.SoftLimitReached cool) : budget.SoftLimitReached hot := by
  rcases h with hcpu | hmem | hqueue | ⟨henabled, hinteractive⟩
  · exact .inl (hhotter.cpu.reaches hcpu)
  · exact .inr (.inl (hhotter.rss.reaches hmem))
  · exact .inr (.inr (.inl (hhotter.queued ▸ hqueue)))
  · exact .inr (.inr (.inr ⟨henabled, hhotter.interactive.reaches hinteractive⟩))

/-- A hotter host is never classified lower. -/
theorem PressureClassifier.classify_mono {cool hot : ResourceSnapshot}
    (budget : ResourceBudget) (hhotter : Hotter cool hot) :
    (classify cool budget).order ≤ (classify hot budget).order := by
  cases hcool : classify cool budget with
  | normal => exact Nat.zero_le _
  | degraded =>
      have hhard := (classify_eq_degraded_iff.mp hcool).mono hhotter
      rw [classify_eq_degraded_iff.mpr hhard]
  | pressured =>
      have hnormal : classify hot budget ≠ .normal := by
        intro hhot
        obtain ⟨hhard, hsoft⟩ := classify_eq_normal_iff.mp hhot
        have hcalm : classify cool budget = .normal :=
          classify_eq_normal_iff.mpr
            ⟨fun h => hhard (h.mono hhotter), fun h => hsoft (h.mono hhotter)⟩
        rw [hcool] at hcalm
        cases hcalm
      cases hhot : classify hot budget with
      | normal => exact absurd hhot hnormal
      | pressured => exact le_rfl
      | degraded => decide

/-- Merging takes the higher of the two pressures. -/
theorem order_mergePressure (resource : PressureState) (level : InteractiveLevel) :
    (mergePressure resource level).order = max resource.order level.floor.order := by
  unfold mergePressure
  split <;> omega

/-! ## Workers -/

namespace AdaptiveConcurrencyController

/-- Higher pressure and less headroom never aim higher. -/
theorem target_anti {budget : ResourceBudget} {cool hot : ResourceSnapshot}
    (hhotter : Hotter cool hot) {low high : PressureState} (hle : low.order ≤ high.order)
    (current : Int) :
    target budget high hot current ≤ target budget low cool current := by
  cases high with
  | normal =>
      cases low with
      | normal =>
          simp only [target]
          split
          · rename_i hhot
            obtain ⟨hqueue, hcpu, hmem, hroom⟩ := hhot
            rw [if_pos ⟨hhotter.queued ▸ hqueue, hhotter.cpu.all_le hcpu,
              hhotter.rss.all_le hmem, hroom⟩]
          · split <;> omega
      | pressured => exact absurd hle (by decide)
      | degraded => exact absurd hle (by decide)
  | pressured =>
      have hhold : target budget .pressured hot current ≤ current := by
        simp only [target]
        split <;> omega
      cases low with
      | normal =>
          refine hhold.trans ?_
          simp only [target]
          split <;> omega
      | pressured => exact le_rfl
      | degraded => exact absurd hle (by decide)
  | degraded =>
      have hhold : target budget .degraded hot current ≤ current := by
        simp only [target]
        split <;> omega
      cases low with
      | normal =>
          refine hhold.trans ?_
          simp only [target]
          split <;> omega
      | pressured =>
          simp only [target]
          split <;> split <;> omega
      | degraded => exact le_rfl

/-- Clamping keeps the order. -/
theorem clamp_mono (budget : ResourceBudget) {v w : Int} (hle : v ≤ w) :
    budget.clampConcurrency v ≤ budget.clampConcurrency w := by
  unfold ResourceBudget.clampConcurrency
  omega

/-- What `adjust` answers once the cooldown is over: the new target, or, when
it does not move, the stored limit if there is one. -/
theorem adjust_fst {controller : AdaptiveConcurrencyController} {budget : ResourceBudget}
    {pressure : PressureState} {snapshot : ResourceSnapshot} {now : Rat} {current w : Int}
    (hrested : InteractiveFeedbackController.within now controller.lastAdjustAt
      budget.adjustCooldownSeconds = false)
    (hcurrent : budget.clampConcurrency (orElse controller.effectiveMaxWorkers 1) = current)
    (hw : budget.clampConcurrency (target budget pressure snapshot current) = w) :
    (controller.adjust budget pressure snapshot now).1 =
      if w ≠ current then w else orElse controller.effectiveMaxWorkers w := by
  subst hcurrent
  simp only [adjust, hrested, Bool.false_eq_true, if_false, hw]
  split
  · unfold orElse
    dsimp only
    split <;> rfl
  · rfl

/-- A stored limit that the clamp moves lies beyond the end of the range it is
moved to, and no clamped target lies there. -/
theorem orElse_between {budget : ResourceBudget} {stored : Option Int} {current v : Int}
    (hcurrent : budget.clampConcurrency (orElse stored 1) = current) :
    (current < budget.clampConcurrency v →
      orElse stored current ≤ budget.clampConcurrency v) ∧
    (budget.clampConcurrency v < current →
      budget.clampConcurrency v ≤ orElse stored current) := by
  unfold ResourceBudget.clampConcurrency at hcurrent ⊢
  cases stored with
  | none =>
      simp only [orElse] at hcurrent ⊢
      omega
  | some workers =>
      simp only [orElse] at hcurrent ⊢
      split at hcurrent <;> omega

/-- More pressure and less headroom never yield more workers. -/
theorem adjust_anti {controller : AdaptiveConcurrencyController} {budget : ResourceBudget}
    {cool hot : ResourceSnapshot} (hhotter : Hotter cool hot) {low high : PressureState}
    (hle : low.order ≤ high.order) (now : Rat) :
    (controller.adjust budget high hot now).1 ≤ (controller.adjust budget low cool now).1 := by
  cases hwithin : InteractiveFeedbackController.within now controller.lastAdjustAt
      budget.adjustCooldownSeconds with
  | true => simp [adjust, hwithin]
  | false =>
      generalize hcurrent :
        budget.clampConcurrency (orElse controller.effectiveMaxWorkers 1) = current
      have htarget : target budget high hot current ≤ target budget low cool current :=
        target_anti hhotter hle current
      have hclamped := clamp_mono budget htarget
      rw [adjust_fst hwithin hcurrent rfl, adjust_fst hwithin hcurrent rfl]
      split
      · rename_i hhot
        split
        · exact hclamped
        · rename_i hcool
          rw [not_not.mp hcool] at hclamped ⊢
          exact (orElse_between hcurrent).2 (lt_of_le_of_ne hclamped hhot)
      · rename_i hhot
        rw [not_not.mp hhot] at hclamped ⊢
        split
        · rename_i hcool
          exact (orElse_between hcurrent).1 (lt_of_le_of_ne hclamped (Ne.symm hcool))
        · rename_i hcool
          rw [not_not.mp hcool]

end AdaptiveConcurrencyController

/-! ## Admission and the whole tick -/

/-- Nothing is above CRITICAL. -/
theorem InteractiveLevel.eq_critical_of_le {cool hot : InteractiveLevel}
    (hle : cool.floor.order ≤ hot.floor.order) (h : cool = .critical) : hot = .critical := by
  subst h
  cases hot with
  | healthy => exact absurd hle (by decide)
  | warn => exact absurd hle (by decide)
  | critical => rfl

/-- When admission lets an evaluation start. -/
theorem ExpensiveAdmission.decide_allowed_iff {pressure : PressureState}
    {budget : ResourceBudget} {snapshot : ResourceSnapshot} {workers : Int}
    {level : InteractiveLevel} {holdAll : Bool} :
    (decide pressure budget snapshot workers level holdAll).allowed = true ↔
      snapshot.runningEvaluations < max 1 workers ∧
      ¬ (holdAll = true ∧ level = .critical) ∧
      ¬ (pressure = .degraded ∧ reaches snapshot.rssMb budget.memoryHardMb = true ∧
        snapshot.runningEvaluations > 0) := by
  unfold decide
  split
  · rename_i hfull
    simp [not_lt_of_ge hfull]
  · rename_i hroom
    split
    · rename_i hhold
      simp [hhold]
    · rename_i hfree
      split
      · rename_i hmemory
        simp [hmemory]
      · rename_i hcalm
        exact iff_of_true rfl ⟨lt_of_not_ge hroom, hfree, hcalm⟩

/-- What the gate lets in under more load it lets in under less. -/
theorem ExpensiveAdmission.decide_anti {budget : ResourceBudget} {cool hot : ResourceSnapshot}
    (hhotter : Hotter cool hot) {low high : PressureState} (hle : low.order ≤ high.order)
    {many few : Int} (hworkers : few ≤ many) {calm tense : InteractiveLevel}
    (hlevel : calm.floor.order ≤ tense.floor.order) {holdAll : Bool}
    (hallowed : (decide high budget hot few tense holdAll).allowed = true) :
    (decide low budget cool many calm holdAll).allowed = true := by
  obtain ⟨hroom, hfree, hmemory⟩ := decide_allowed_iff.mp hallowed
  have hrunning := hhotter.running
  refine decide_allowed_iff.mpr ⟨by omega, ?_, ?_⟩
  · intro hhold
    exact hfree ⟨hhold.1, InteractiveLevel.eq_critical_of_le hlevel hhold.2⟩
  · intro hhold
    obtain ⟨hdegraded, hrss, hsome⟩ := hhold
    exact hmemory ⟨PressureState.eq_degraded_of_le hle hdegraded, hhotter.rss.reaches hrss,
      by omega⟩

namespace ResourceAwareRuntime

/-- The pressure a tick with interactive feedback works under. -/
def feedbackPressure (runtime : ResourceAwareRuntime) (snapshot : ResourceSnapshot)
    (level : InteractiveLevel) : PressureState :=
  mergePressure (PressureClassifier.classify snapshot runtime.budget) level

/-- What a tick computes with feedback enabled. -/
theorem tick_with_feedback {runtime : ResourceAwareRuntime} (henabled : runtime.enabled = true)
    (hfeedback : runtime.interactiveFeedback.enabled = true) (host : HostSample)
    (queued running : Int) (clocks : Clocks) :
    let level := (runtime.interactiveFeedback.update runtime.interactiveP95Ms
      runtime.interactiveSampleCount clocks.monotonic).level
    let snapshot := host.snapshot queued running none
    let pressure := runtime.feedbackPressure snapshot level
    let workers :=
      (runtime.controller.adjust runtime.budget pressure snapshot clocks.wall).1
    (runtime.tick host queued running clocks).1 =
      { pressure := pressure
        interactiveLevel := level
        effectiveMaxWorkers := workers
        effectiveMaxHeavy :=
          if pressure = .degraded ∨ level = .critical then 0
          else runtime.budget.maxConcurrentHeavy
        admission := ExpensiveAdmission.decide pressure runtime.budget snapshot workers level
          runtime.budget.interactiveCriticalHoldAll } := by
  simp only [tick, henabled, Bool.true_eq_false, if_false, hfeedback, if_true]
  rfl

/-- **More load is never looser.**  Two ticks over one budget, one concurrency
controller and one wall clock, with interactive feedback, at one queue depth
and one running count. -/
theorem tick_monotone {cool hot : ResourceAwareRuntime} (hbudget : hot.budget = cool.budget)
    (hcontroller : hot.controller = cool.controller) (henabled : hot.enabled = cool.enabled)
    (hcoolFeedback : cool.interactiveFeedback.enabled = true)
    (hhotFeedback : hot.interactiveFeedback.enabled = true)
    {coolHost hotHost : HostSample} (hcpu : NoLower coolHost.cpuPercent hotHost.cpuPercent)
    (hrss : NoLower coolHost.rssMb hotHost.rssMb) (queued running : Int)
    {coolClocks hotClocks : Clocks} (hwall : hotClocks.wall = coolClocks.wall)
    (hlevel : (cool.tick coolHost queued running coolClocks).1.interactiveLevel.floor.order ≤
      (hot.tick hotHost queued running hotClocks).1.interactiveLevel.floor.order) :
    let first := (cool.tick coolHost queued running coolClocks).1
    let second := (hot.tick hotHost queued running hotClocks).1
    first.pressure.order ≤ second.pressure.order ∧
    second.effectiveMaxWorkers ≤ first.effectiveMaxWorkers ∧
    (0 ≤ cool.budget.maxConcurrentHeavy →
      second.effectiveMaxHeavy ≤ first.effectiveMaxHeavy) ∧
    (second.admission.allowed = true → first.admission.allowed = true) := by
  cases hon : cool.enabled with
  | false =>
      have hoff : hot.enabled = false := henabled.trans hon
      simp [tick, hon, hoff, hbudget]
  | true =>
      have hon' : hot.enabled = true := henabled.trans hon
      rw [tick_with_feedback hon hcoolFeedback, tick_with_feedback hon' hhotFeedback] at hlevel ⊢
      dsimp only at hlevel ⊢
      generalize (cool.interactiveFeedback.update _ _ _).level = calm at hlevel ⊢
      generalize (hot.interactiveFeedback.update _ _ _).level = tense at hlevel ⊢
      have hhotter : Hotter (coolHost.snapshot queued running none)
          (hotHost.snapshot queued running none) := ⟨hcpu, hrss, rfl, rfl, trivial⟩
      have hpressure : (cool.feedbackPressure (coolHost.snapshot queued running none) calm).order
          ≤ (hot.feedbackPressure (hotHost.snapshot queued running none) tense).order := by
        have hclass := PressureClassifier.classify_mono cool.budget hhotter
        simp only [feedbackPressure, order_mergePressure, hbudget]
        omega
      have hworkers := @AdaptiveConcurrencyController.adjust_anti cool.controller cool.budget
        _ _ hhotter _ _ hpressure coolClocks.wall
      rw [hbudget, hcontroller, hwall]
      refine ⟨hpressure, hworkers, ?_, ?_⟩
      · intro hslots
        split
        · split
          · exact le_rfl
          · exact hslots
        · rename_i hcalm
          rw [if_neg]
          intro hheavy
          apply hcalm
          rcases hheavy with hdegraded | hcritical
          · exact .inl (PressureState.eq_degraded_of_le hpressure hdegraded)
          · exact .inr (InteractiveLevel.eq_critical_of_le hlevel hcritical)
      · exact ExpensiveAdmission.decide_anti hhotter hpressure hworkers hlevel

/-- The default budget with interactive feedback and `slots` HEAVY slots. -/
def feedbackBudget (slots : Int) : ResourceBudget :=
  { ResourceBudget.fromSettings {} with
    maxConcurrentHeavy := slots
    interactiveP95WarnMs := 200
    interactiveP95CriticalMs := 1000 }

/-- A busier processor lowers the budgets of this host. -/
theorem tick_monotone_busy_cpu :
    let runtime := ofBudget (feedbackBudget 1) true
    let first := (runtime.tick ⟨some 20, some 100⟩ 3 0 ⟨5, 5⟩).1
    let second := (runtime.tick ⟨some 90, some 100⟩ 3 0 ⟨5, 5⟩).1
    first.pressure.order ≤ second.pressure.order ∧
    second.effectiveMaxWorkers ≤ first.effectiveMaxWorkers ∧
    (0 ≤ runtime.budget.maxConcurrentHeavy →
      second.effectiveMaxHeavy ≤ first.effectiveMaxHeavy) ∧
    (second.admission.allowed = true → first.admission.allowed = true) :=
  tick_monotone rfl rfl rfl (by decide +kernel) (by decide +kernel)
    (by decide +kernel) (by decide +kernel) 3 0 rfl (by decide +kernel)

/-- A budget built by hand with a negative number of HEAVY slots: DEGRADED
pressure raises the number to zero. -/
theorem negative_slots_raised :
    let runtime := ofBudget (feedbackBudget (-1)) true
    let first := (runtime.tick ⟨some 20, some 100⟩ 3 0 ⟨5, 5⟩).1
    let second := (runtime.tick ⟨some 90, some 100⟩ 3 0 ⟨5, 5⟩).1
    runtime.interactiveFeedback.enabled = true ∧
    second.interactiveLevel = first.interactiveLevel ∧
    ¬ second.effectiveMaxHeavy ≤ first.effectiveMaxHeavy := by
  decide +kernel

end ResourceAwareRuntime

end ChallengeForge
