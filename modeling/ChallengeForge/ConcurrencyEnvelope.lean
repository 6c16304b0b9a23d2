import ChallengeForge.ResourceRuntime

/-!
# The envelope of the concurrency controller

Runs of `adjust` over one budget taken from the settings, with any pressures,
snapshots and clock readings.  A proper controller holds a limit inside the
budget's range; `adjust_spec` says once what a call does to such a limit: hold
it, raise it by one under NORMAL with a backlog and headroom, or lower it by
one under pressure.

* `Holds.paced` — consecutive changes are one worker and a cooldown apart;
* `Holds.degrades` — DEGRADED calls past the cooldown end at the minimum;
* `adjust_envelope` — both, the range, and what a raise requires.
-/

namespace ChallengeForge

/-- The arguments of one `adjust`. -/
structure AdjustCall where
  pressure : PressureState
  snapshot : ResourceSnapshot
  now : Rat

namespace AdaptiveConcurrencyController

/-- A controller as its constructor leaves it. -/
def create (budget : ResourceBudget) (effectiveMaxWorkers : Option Int)
    (lastAdjustAt : Option Rat) : AdaptiveConcurrencyController where
  effectiveMaxWorkers :=
    match effectiveMaxWorkers with
    | none => some budget.minEvaluationConcurrency
    | some workers => some (budget.clampConcurrency workers)
  lastAdjustAt := lastAdjustAt

/-- What a call answers. -/
def answer (controller : AdaptiveConcurrencyController) (budget : ResourceBudget)
    (call : AdjustCall) : Int :=
  (controller.adjust budget call.pressure call.snapshot call.now).1

/-- The controller after a call. -/
def next (budget : ResourceBudget) (controller : AdaptiveConcurrencyController)
    (call : AdjustCall) : AdaptiveConcurrencyController :=
  (controller.adjust budget call.pressure call.snapshot call.now).2

/-- The controller after these calls. -/
def after (controller : AdaptiveConcurrencyController) (budget : ResourceBudget)
    (calls : List AdjustCall) : AdaptiveConcurrencyController :=
  calls.foldl (next budget) controller

/-- The limit a controller holds. -/
def workers (controller : AdaptiveConcurrencyController) : Int :=
  orElse controller.effectiveMaxWorkers 1

/-- A controller that has a value answers it. -/
@[simp]
theorem workers_mk {v : Int} (hv : 1 ≤ v) (last : Option Rat) :
    workers ⟨some v, last⟩ = v := by
  have hne : v ≠ 0 := by omega
  simp [workers, orElse, hne]

/-- No call, no change. -/
@[simp]
theorem after_nil (controller : AdaptiveConcurrencyController) (budget : ResourceBudget) :
    controller.after budget [] = controller := rfl

/-- The first call comes first. -/
@[simp]
theorem after_cons (controller : AdaptiveConcurrencyController) (budget : ResourceBudget)
    (call : AdjustCall) (calls : List AdjustCall) :
    controller.after budget (call :: calls) = (next budget controller call).after budget calls :=
  rfl

/-- A run of two parts. -/
theorem after_append (controller : AdaptiveConcurrencyController) (budget : ResourceBudget)
    (before calls : List AdjustCall) :
    controller.after budget (before ++ calls) =
      (controller.after budget before).after budget calls :=
  List.foldl_append

/-- The last call comes last. -/
theorem after_snoc (controller : AdaptiveConcurrencyController) (budget : ResourceBudget)
    (before : List AdjustCall) (call : AdjustCall) :
    controller.after budget (before ++ [call]) =
      next budget (controller.after budget before) call := by
  rw [after_append, after_cons, after_nil]

/-! ## One call -/

/-- The CPU and memory readings, where present, leave room for another worker. -/
def Headroom (budget : ResourceBudget) (snapshot : ResourceSnapshot) : Prop :=
  (∀ cpu ∈ snapshot.cpuPercent, cpu ≤ budget.cpuLowPercent) ∧
  ∀ rss ∈ snapshot.rssMb, rss ≤ budget.memorySoftMb

/-- The cooldown of the last change is over at `now`. -/
def Rested (controller : AdaptiveConcurrencyController) (budget : ResourceBudget)
    (now : Rat) : Prop :=
  InteractiveFeedbackController.within now controller.lastAdjustAt
    budget.adjustCooldownSeconds = false

/-- Everything one call can do to the limit `v`: the answer and the controller
after it. -/
inductive Adjusts (budget : ResourceBudget) (v : Int) (last : Option Rat)
    (call : AdjustCall) : Int × AdaptiveConcurrencyController → Prop
  | held (hfloor : call.pressure = .degraded → Rested ⟨some v, last⟩ budget call.now →
        v = budget.minEvaluationConcurrency) :
      Adjusts budget v last call (v, ⟨some v, last⟩)
  | raised (hrested : Rested ⟨some v, last⟩ budget call.now)
      (hpressure : call.pressure = .normal) (hqueue : 0 < call.snapshot.queuedEvaluations)
      (hheadroom : Headroom budget call.snapshot)
      (hroom : v < budget.maxEvaluationConcurrency) :
      Adjusts budget v last call (v + 1, ⟨some (v + 1), some call.now⟩)
  | lowered (hrested : Rested ⟨some v, last⟩ budget call.now)
      (hpressure : call.pressure ≠ .normal)
      (hroom : budget.minEvaluationConcurrency < v) :
      Adjusts budget v last call (v - 1, ⟨some (v - 1), some call.now⟩)

/-- The budget's range, which starts at one. -/
structure Proper (budget : ResourceBudget) (v : Int) : Prop where
  one_le : 1 ≤ budget.minEvaluationConcurrency
  min_le : budget.minEvaluationConcurrency ≤ v
  le_max : v ≤ budget.maxEvaluationConcurrency

/-- A proper value is not clamped. -/
theorem Proper.clamp {budget : ResourceBudget} {v : Int} (h : Proper budget v) :
    budget.clampConcurrency v = v := by
  have hmin := h.min_le
  have hmax := h.le_max
  unfold ResourceBudget.clampConcurrency
  omega

/-- `adjust` once the stored limit is known to be proper. -/
theorem adjust_of_proper {budget : ResourceBudget} {v w : Int} {last : Option Rat}
    {pressure : PressureState} {snapshot : ResourceSnapshot} {now : Rat}
    (hv : Proper budget v) (hrested : Rested ⟨some v, last⟩ budget now)
    (htarget : target budget pressure snapshot v = w) (hw : Proper budget w) :
    adjust ⟨some v, last⟩ budget pressure snapshot now =
      (w, if w ≠ v then ⟨some w, some now⟩ else ⟨some v, last⟩) := by
  have hone := hv.one_le
  have hmin := hv.min_le
  have hne : v ≠ 0 := by omega
  have hwmin := hw.min_le
  have hwne : w ≠ 0 := by omega
  have hor : orElse (some v) 1 = v := by simp [orElse, hne]
  unfold Rested at hrested
  simp only [adjust, hor, hv.clamp, hrested, Bool.false_eq_true, if_false, htarget, hw.clamp]
  by_cases hsame : w = v
  · simp [hsame, orElse, hne]
  · simp [hsame, orElse, hwne]

/-- Within the cooldown nothing changes. -/
theorem adjust_of_cooling {budget : ResourceBudget} {v : Int} {last : Option Rat}
    {pressure : PressureState} {snapshot : ResourceSnapshot} {now : Rat}
    (hv : Proper budget v) (hcooling : ¬ Rested ⟨some v, last⟩ budget now) :
    adjust ⟨some v, last⟩ budget pressure snapshot now = (v, ⟨some v, last⟩) := by
  have hone := hv.one_le
  have hmin := hv.min_le
  have hne : v ≠ 0 := by omega
  have hor : orElse (some v) 1 = v := by simp [orElse, hne]
  have hwithin := Bool.eq_true_of_not_eq_false hcooling
  simp only at hwithin
  simp only [adjust, hor, hv.clamp, hwithin, if_true]

/-- What one call does. -/
theorem adjust_spec {budget : ResourceBudget} {v : Int} (hv : Proper budget v)
    (last : Option Rat) (call : AdjustCall) :
    Adjusts budget v last call
      (adjust ⟨some v, last⟩ budget call.pressure call.snapshot call.now) := by
  have hone := hv.one_le
  have hmin := hv.min_le
  have hmax := hv.le_max
  by_cases hrested : Rested ⟨some v, last⟩ budget call.now
  · have hhold : target budget call.pressure call.snapshot v = v →
        (call.pressure = .degraded → v = budget.minEvaluationConcurrency) →
        Adjusts budget v last call
          (adjust ⟨some v, last⟩ budget call.pressure call.snapshot call.now) := by
      intro htarget hfloor
      rw [adjust_of_proper hv hrested htarget hv, if_neg (not_not_intro rfl)]
      exact .held (fun hdegraded _ => hfloor hdegraded)
    have hlower : target budget call.pressure call.snapshot v = v - 1 →
        call.pressure ≠ .normal → budget.minEvaluationConcurrency < v →
        Adjusts budget v last call
          (adjust ⟨some v, last⟩ budget call.pressure call.snapshot call.now) := by
      intro htarget hpressure hroom
      have hw : Proper budget (v - 1) := ⟨hone, by omega, by omega⟩
      rw [adjust_of_proper hv hrested htarget hw, if_pos (by omega)]
      exact .lowered hrested hpressure hroom
    cases hpressure : call.pressure with
    | degraded =>
        rw [hpressure] at hhold hlower
        by_cases hroom : v > budget.minEvaluationConcurrency
        · exact hlower (by simp [target, hroom]) (by simp) hroom
        · exact hhold (by simp [target, hroom]) (fun _ => by omega)
    | pressured =>
        rw [hpressure] at hhold hlower
        by_cases hroom : v > budget.minEvaluationConcurrency + 1
        · exact hlower (by simp [target, hroom]) (by simp) (by omega)
        · exact hhold (by simp [target, hroom]) (by simp)
    | normal =>
        rw [hpressure] at hhold
        by_cases hraise : call.snapshot.queuedEvaluations > 0 ∧
            call.snapshot.cpuPercent.all (fun x => decide (x ≤ budget.cpuLowPercent)) = true ∧
            call.snapshot.rssMb.all (fun x => decide (x ≤ budget.memorySoftMb)) = true ∧
            v < budget.maxEvaluationConcurrency
        · have htarget : target budget .normal call.snapshot v = v + 1 := if_pos hraise
          obtain ⟨hqueue, hcpu, hmem, hroom⟩ := hraise
          have hw : Proper budget (v + 1) := ⟨hone, by omega, by omega⟩
          rw [adjust_of_proper hv hrested htarget hw, if_pos (by omega)]
          refine .raised hrested hpressure hqueue ⟨?_, ?_⟩ hroom
          · simpa [Option.all_eq_true] using hcpu
          · simpa [Option.all_eq_true] using hmem
        · exact hhold (if_neg hraise) (by simp)
  · rw [adjust_of_cooling hv hrested]
    exact .held (fun _ h => absurd h hrested)

/-! ## Runs -/

/-- A controller whose stored limit lies in the budget's range. -/
def Holds (budget : ResourceBudget) (controller : AdaptiveConcurrencyController) (v : Int) :
    Prop :=
  controller.effectiveMaxWorkers = some v ∧ Proper budget v

/-- A controller that holds a value answers it. -/
theorem Holds.workers {budget : ResourceBudget} {controller : AdaptiveConcurrencyController}
    {v : Int} (h : Holds budget controller v) : controller.workers = v := by
  obtain ⟨hstored, hproper⟩ := h
  have hone := hproper.one_le
  have hmin := hproper.min_le
  have hne : v ≠ 0 := by omega
  simp [AdaptiveConcurrencyController.workers, hstored, orElse, hne]

/-- What a call does to a controller in its range. -/
theorem Holds.adjusts {budget : ResourceBudget} {controller : AdaptiveConcurrencyController}
    {v : Int} (h : Holds budget controller v) (call : AdjustCall) :
    Adjusts budget v controller.lastAdjustAt call
      (controller.answer budget call, next budget controller call) := by
  obtain ⟨stored, last⟩ := controller
  obtain ⟨hstored, hproper⟩ := h
  have hsome : stored = some v := hstored
  subst hsome
  exact adjust_spec hproper last call

/-- A call, with names for its answer and for the controller after it. -/
theorem Holds.turn {budget : ResourceBudget} {controller : AdaptiveConcurrencyController}
    {v : Int} (h : Holds budget controller v) (call : AdjustCall) :
    ∃ answer result, controller.answer budget call = answer ∧
      next budget controller call = result ∧
      Adjusts budget v controller.lastAdjustAt call (answer, result) :=
  ⟨_, _, rfl, rfl, h.adjusts call⟩

/-- A controller as constructed holds a proper value. -/
theorem holds_create (settings : Settings) (effectiveMaxWorkers : Option Int)
    (lastAdjustAt : Option Rat) :
    ∃ v, Holds (ResourceBudget.fromSettings settings)
      (create (ResourceBudget.fromSettings settings) effectiveMaxWorkers lastAdjustAt) v := by
  cases effectiveMaxWorkers with
  | none =>
      refine ⟨_, rfl, ?_, le_rfl, ?_⟩
      · simp only [ResourceBudget.fromSettings]
        omega
      · simp only [ResourceBudget.fromSettings]
        omega
  | some workers =>
      refine ⟨_, rfl, ?_, ?_, ?_⟩
      · simp only [ResourceBudget.fromSettings]
        omega
      · simp only [ResourceBudget.clampConcurrency, ResourceBudget.fromSettings]
        omega
      · simp only [ResourceBudget.clampConcurrency, ResourceBudget.fromSettings]
        omega

/-- A call keeps the limit in the range, and answers it. -/
theorem Holds.step {budget : ResourceBudget} {controller : AdaptiveConcurrencyController}
    {v : Int} (h : Holds budget controller v) (call : AdjustCall) :
    Holds budget (next budget controller call) (controller.answer budget call) := by
  have hone := h.2.one_le
  have hmin := h.2.min_le
  have hmax := h.2.le_max
  obtain ⟨answer, result, hanswer, hnext, hadjusts⟩ := h.turn call
  rw [hanswer, hnext]
  cases hadjusts with
  | held => exact ⟨rfl, h.2⟩
  | raised hrested hpressure hqueue hheadroom hroom =>
      exact ⟨rfl, hone, by omega, by omega⟩
  | lowered hrested hpressure hroom => exact ⟨rfl, hone, by omega, by omega⟩

/-- So does one after any calls. -/
theorem Holds.run {budget : ResourceBudget} {controller : AdaptiveConcurrencyController}
    {v : Int} (h : Holds budget controller v) (calls : List AdjustCall) :
    ∃ w, Holds budget (controller.after budget calls) w := by
  induction calls generalizing controller v with
  | nil => exact ⟨v, h⟩
  | cons call calls ih => exact ih (h.step call)

/-- The call after `before` changes the limit. -/
def ChangesAt (controller : AdaptiveConcurrencyController) (budget : ResourceBudget)
    (before : List AdjustCall) (call : AdjustCall) : Prop :=
  (controller.after budget (before ++ [call])).workers ≠ (controller.after budget before).workers

/-- What a changing call requires and does. -/
theorem Holds.changes {budget : ResourceBudget} {controller : AdaptiveConcurrencyController}
    {v : Int} (h : Holds budget controller v) {call : AdjustCall}
    (hchange : (next budget controller call).workers ≠ controller.workers) :
    Rested controller budget call.now ∧
    (next budget controller call).lastAdjustAt = some call.now ∧
    (((next budget controller call).workers = controller.workers + 1 ∧
        call.pressure = .normal ∧ 0 < call.snapshot.queuedEvaluations ∧
        Headroom budget call.snapshot) ∨
      ((next budget controller call).workers = controller.workers - 1 ∧
        call.pressure ≠ .normal)) := by
  have hworkers := (h.step call).workers
  obtain ⟨answer, result, hanswer, hnext, hadjusts⟩ := h.turn call
  rw [hworkers, h.workers, hanswer] at hchange ⊢
  rw [hnext]
  cases hadjusts with
  | held => exact absurd rfl hchange
  | raised hrested hpressure hqueue hheadroom hroom =>
      exact ⟨hrested, rfl, .inl ⟨rfl, hpressure, hqueue, hheadroom⟩⟩
  | lowered hrested hpressure hroom => exact ⟨hrested, rfl, .inr ⟨rfl, hpressure⟩⟩

/-- A call that leaves the limit alone leaves the controller alone. -/
theorem Holds.stays {budget : ResourceBudget} {controller : AdaptiveConcurrencyController}
    {v : Int} (h : Holds budget controller v) {call : AdjustCall}
    (hsame : (next budget controller call).workers =
      controller.workers) :
    next budget controller call = controller := by
  have hworkers := (h.step call).workers
  obtain ⟨answer, result, hanswer, hnext, hadjusts⟩ := h.turn call
  rw [hworkers, h.workers, hanswer] at hsame
  rw [hnext]
  cases hadjusts with
  | held =>
      obtain ⟨stored, last⟩ := controller
      rw [← (show stored = some v from h.1)]
  | raised => omega
  | lowered => omega

/-- Without a change of the limit a run leaves the controller alone. -/
theorem Holds.quiet {budget : ResourceBudget} {controller : AdaptiveConcurrencyController}
    {v : Int} (h : Holds budget controller v) {calls : List AdjustCall}
    (hquiet : ∀ part call rest, calls = part ++ call :: rest →
      ¬ controller.ChangesAt budget part call) :
    controller.after budget calls = controller := by
  induction calls with
  | nil => rfl
  | cons call rest ih =>
      have hfirst : next budget controller call = controller := by
        have hsame := hquiet [] call rest rfl
        exact h.stays (not_not.mp hsame)
      rw [after_cons, hfirst]
      refine ih (fun part x tail hsplit => ?_)
      have hlater := hquiet (call :: part) x tail (by simp [hsplit])
      simpa [ChangesAt, hfirst] using hlater

/-- **Pacing.**  Consecutive changes move the limit by one, a cooldown apart. -/
theorem Holds.paced {budget : ResourceBudget} {controller : AdaptiveConcurrencyController}
    {v : Int} (h : Holds budget controller v) {before mid : List AdjustCall}
    {a b : AdjustCall} (ha : controller.ChangesAt budget before a)
    (hquiet : ∀ part call rest, mid = part ++ call :: rest →
      ¬ controller.ChangesAt budget (before ++ a :: part) call)
    (hb : controller.ChangesAt budget (before ++ a :: mid) b) :
    ((controller.after budget (before ++ a :: mid ++ [b])).workers -
      (controller.after budget (before ++ [a])).workers).natAbs = 1 ∧
    budget.adjustCooldownSeconds ≤ b.now - a.now := by
  obtain ⟨w, hw⟩ := h.run before
  obtain ⟨w', hw'⟩ := h.run (before ++ [a])
  have hstamp : (controller.after budget (before ++ [a])).lastAdjustAt = some a.now := by
    unfold ChangesAt at ha
    rw [after_snoc] at ha ⊢
    exact (hw.changes ha).2.1
  have hmid : controller.after budget (before ++ a :: mid) =
      controller.after budget (before ++ [a]) := by
    rw [List.append_cons, after_append]
    refine hw'.quiet (fun part call rest hsplit => ?_)
    have hsame := hquiet part call rest hsplit
    simpa [ChangesAt, after_append] using hsame
  unfold ChangesAt at hb
  rw [after_snoc, hmid] at hb
  obtain ⟨hrested, -, hdirection⟩ := hw'.changes hb
  rw [after_snoc, hmid]
  refine ⟨?_, ?_⟩
  · rcases hdirection with ⟨hup, -⟩ | ⟨hdown, -⟩
    · omega
    · omega
  · simpa [Rested, InteractiveFeedbackController.within, hstamp] using hrested

/-- **Degradation.**  DEGRADED calls past the cooldown lower the limit by one
each, down to the minimum. -/
theorem Holds.degrades {budget : ResourceBudget} {controller : AdaptiveConcurrencyController}
    {v : Int} (h : Holds budget controller v) {rounds : List AdjustCall}
    (hdegraded : ∀ call ∈ rounds, call.pressure = .degraded)
    (hrested : ∀ part call rest, rounds = part ++ call :: rest →
      Rested (controller.after budget part) budget call.now)
    (hmany : v - budget.minEvaluationConcurrency ≤ rounds.length) :
    (controller.after budget rounds).workers = budget.minEvaluationConcurrency := by
  induction rounds generalizing controller v with
  | nil =>
      have hmin := h.2.min_le
      rw [after_nil, h.workers]
      simp only [List.length_nil, Int.ofNat_zero] at hmany
      omega
  | cons call rest ih =>
      have hpressure := hdegraded call List.mem_cons_self
      have hfirst : Rested controller budget call.now := hrested [] call rest rfl
      have hanswer : controller.answer budget call - budget.minEvaluationConcurrency ≤
          rest.length := by
        have hlength : ((call :: rest).length : Int) = rest.length + 1 := by simp
        obtain ⟨answer, result, hanswer, -, hadjusts⟩ := h.turn call
        rw [hanswer]
        cases hadjusts with
        | held hfloor =>
            have hv := hfloor hpressure hfirst
            omega
        | raised hnow hnormal =>
            rw [hpressure] at hnormal
            cases hnormal
        | lowered => omega
      rw [after_cons]
      refine ih (h.step call) (fun x hx => hdegraded x (List.mem_cons_of_mem call hx)) ?_ hanswer
      intro part x tail hsplit
      exact hrested (call :: part) x tail (by simp [hsplit])

/-- **The envelope.**  Over any run of `adjust` from a constructed controller,
with any pressures, snapshots and clock readings. -/
theorem adjust_envelope (settings : Settings) (effectiveMaxWorkers : Option Int)
    (lastAdjustAt : Option Rat) :
    let budget := ResourceBudget.fromSettings settings
    let controller := create budget effectiveMaxWorkers lastAdjustAt
    (∀ before call,
      budget.minEvaluationConcurrency ≤ (controller.after budget before).answer budget call ∧
      (controller.after budget before).answer budget call ≤
        budget.maxEvaluationConcurrency ∧
      (controller.after budget (before ++ [call])).workers =
        (controller.after budget before).answer budget call) ∧
    (∀ before call, controller.ChangesAt budget before call →
      ((controller.after budget (before ++ [call])).workers -
        (controller.after budget before).workers).natAbs = 1) ∧
    (∀ before a mid b, controller.ChangesAt budget before a →
      (∀ part call rest, mid = part ++ call :: rest →
        ¬ controller.ChangesAt budget (before ++ a :: part) call) →
      controller.ChangesAt budget (before ++ a :: mid) b →
      ((controller.after budget (before ++ a :: mid ++ [b])).workers -
        (controller.after budget (before ++ [a])).workers).natAbs = 1 ∧
      budget.adjustCooldownSeconds ≤ b.now - a.now) ∧
    (∀ before call,
      (controller.after budget before).workers <
        (controller.after budget (before ++ [call])).workers →
      call.pressure = .normal ∧ 0 < call.snapshot.queuedEvaluations ∧
        Headroom budget call.snapshot) ∧
    (∀ before rounds, (∀ call ∈ rounds, call.pressure = .degraded) →
      (∀ part call rest, rounds = part ++ call :: rest →
        Rested (controller.after budget (before ++ part)) budget call.now) →
      budget.maxEvaluationConcurrency - budget.minEvaluationConcurrency ≤ rounds.length →
      (controller.after budget (before ++ rounds)).workers =
        budget.minEvaluationConcurrency) := by
  intro budget controller
  obtain ⟨v, hv⟩ : ∃ v, Holds budget controller v :=
    holds_create settings effectiveMaxWorkers lastAdjustAt
  clear_value controller budget
  refine ⟨?_, ?_, ?_, ?_, ?_⟩
  · intro before call
    obtain ⟨w, hw⟩ := hv.run before
    have hstep := hw.step call
    refine ⟨hstep.2.min_le, hstep.2.le_max, ?_⟩
    rw [after_snoc]
    exact hstep.workers
  · intro before call hchange
    obtain ⟨w, hw⟩ := hv.run before
    unfold ChangesAt at hchange
    rw [after_snoc] at hchange ⊢
    obtain ⟨-, -, hdirection⟩ := hw.changes hchange
    rcases hdirection with ⟨hup, -⟩ | ⟨hdown, -⟩
    · omega
    · omega
  · intro before a mid b ha hquiet hb
    exact hv.paced ha hquiet hb
  · intro before call hraise
    obtain ⟨w, hw⟩ := hv.run before
    rw [after_snoc] at hraise
    obtain ⟨-, -, hdirection⟩ := hw.changes (ne_of_gt hraise)
    rcases hdirection with ⟨-, hnormal, hqueue, hheadroom⟩ | ⟨hdown, -⟩
    · exact ⟨hnormal, hqueue, hheadroom⟩
    · omega
  · intro before rounds hdegraded hrested hmany
    obtain ⟨w, hw⟩ := hv.run before
    have hmax := hw.2.le_max
    rw [after_append]
    refine hw.degrades hdegraded ?_ ?_
    · intro part call rest hsplit
      rw [← after_append]
      exact hrested part call rest hsplit
    · exact le_trans (sub_le_sub_right hmax _) hmany

/-- A backlog with headroom raises the value. -/
theorem adjust_envelope_backlog :
    PressureState.normal = .normal ∧ (0 : Int) < 4 ∧
      Headroom (ResourceBudget.fromSettings { evaluationMaxWorkers := 3 })
        ⟨some 20, none, 4, 1, none⟩ :=
  (adjust_envelope { evaluationMaxWorkers := 3 } none none).2.2.2.1 []
    ⟨.normal, ⟨some 20, none, 4, 1, none⟩, 0⟩ (by decide +kernel)

end AdaptiveConcurrencyController

end ChallengeForge
