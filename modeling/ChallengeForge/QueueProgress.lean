import ChallengeForge.EvaluationQueue
import ChallengeForge.ResourceRuntime

/-!
# Whether a poll claims

One poll of the evaluation worker: it reads the plane, ticks its runtime,
publishes the result, and claims under the tick's budgets unless admission
holds.  The queue depth feeds the pressure state, the pressure state the HEAVY
budget, and the HEAVY budget the bypass rule.

* `process_one_claims_iff` — with nothing running and feedback disabled, a poll
  claims unless a hard limit is reached, the oldest row is HEAVY, and no LIGHT
  row may bypass it;
* `no_claim_of_heavy_backlog` — a backlog of HEAVY rows alone, once it is as deep
  as the hard limit, is claimed from by no poll;
* `heavy_backlog_stalls` — under the default settings a hundred jobs are enough.
-/

namespace ChallengeForge

open Keyed

namespace EvaluationDb

/-- Cheap counts for the resource-aware runtime control loop. -/
structure PlaneSnapshot where
  queued : Nat
  running : Nat
  runningHeavy : Nat
  oldestWorkloadClass : Option WorkloadClass

/-- `plane_snapshot`, in one state. -/
def planeSnapshot (db : EvaluationDb) : PlaneSnapshot where
  queued := db.queued
  running := db.running
  runningHeavy := db.runningHeavy
  oldestWorkloadClass := db.queue.head?.map EvaluationRow.workloadClass

end EvaluationDb

/-- An evaluation worker: its settings, its id and its runtime. -/
structure EvaluationWorker where
  settings : Settings
  workerId : String
  runtime : ResourceAwareRuntime

namespace EvaluationWorker

/-- A worker with the runtime its constructor builds from the settings. -/
def ofSettings (settings : Settings) (workerId : String) : EvaluationWorker where
  settings := settings
  workerId := workerId
  runtime := .ofSettings settings

/-- The runtime after reading the published interactive hint. -/
def hinted (worker : EvaluationWorker) (db : EvaluationDb) : ResourceAwareRuntime :=
  worker.runtime.setInteractiveP95Ms db.scheduler.interactiveP95Ms
    db.scheduler.interactiveSampleCount

/-- The tick of a poll. -/
def poll (worker : EvaluationWorker) (db : EvaluationDb) (host : HostSample)
    (clocks : Clocks) : Tick × ResourceAwareRuntime :=
  let plane := db.planeSnapshot
  (worker.hinted db).tick host plane.queued plane.running clocks

/-- The arguments of the claim that follows a tick. -/
def claimArgs (worker : EvaluationWorker) (tick : Tick) : ClaimArgs where
  workerId := worker.workerId
  schedulingPolicy := worker.settings.evaluationSchedulingPolicy
  maxWorkers := tick.effectiveMaxWorkers
  maxConcurrentHeavy := tick.effectiveMaxHeavy
  lightBypassLimit := worker.settings.evaluationLightBypassLimit

/-- `process_one` up to the commit of its claim: the row claimed, if any, the
store, and the worker with its runtime's new state. -/
def processOne (worker : EvaluationWorker) (db : EvaluationDb) (host : HostSample)
    (clocks : Clocks) (now : Timestamp) :
    Option EvaluationRow × EvaluationDb × EvaluationWorker :=
  let (tick, runtime) := worker.poll db host clocks
  let args := worker.claimArgs tick
  let worker := { worker with runtime := runtime }
  let db := db.persistRuntimeState tick.pressure tick.effectiveMaxWorkers
  if tick.admission.allowed = false then (none, db, worker)
  else
    match db.claimTransaction args now with
    | some (row, db) => (some row, db, worker)
    | none => (none, db, worker)

end EvaluationWorker

/-- The host sample is calm: the CPU is below the classifier's soft bound and
the memory below its soft limit. -/
def HostSample.Calm (host : HostSample) (budget : ResourceBudget) : Prop :=
  reaches host.cpuPercent ((budget.cpuLowPercent + budget.cpuHighPercent) / 2) = false ∧
  reaches host.rssMb budget.memorySoftMb = false

instance (host : HostSample) (budget : ResourceBudget) : Decidable (host.Calm budget) :=
  inferInstanceAs (Decidable (_ ∧ _))

namespace EvaluationDb

/-- With nothing running, only an empty HEAVY budget blocks. -/
theorem heavyIsBlocked_of_idle {db : EvaluationDb} (hidle : db.running = 0)
    {args : ClaimArgs} {row : EvaluationRow} :
    db.HeavyIsBlocked args row ↔
      row.workloadClass = .heavy ∧ args.maxConcurrentHeavy ≤ 0 := by
  have hheavy : db.runningHeavy = 0 := by
    have hle : db.runningHeavy ≤ db.running :=
      Table.count_mono (fun r _ hr => by
        simp only [EvaluationRow.isRunningHeavy_iff] at hr
        exact EvaluationRow.isRunning_iff.mpr hr.1)
    omega
  simp only [HeavyIsBlocked, hheavy, ClaimArgs.heavySlots, ClaimArgs.workers]
  refine and_congr_right (fun _ => ?_)
  omega

/-- A non-empty queue has an oldest row. -/
theorem exists_oldest {db : EvaluationDb} (hqueued : 0 < db.queued) :
    ∃ oldest, db.queue.head? = some oldest := by
  cases hqueue : db.queue with
  | cons oldest rest => exact ⟨oldest, rfl⟩
  | nil =>
      have hzero : db.queued = 0 :=
        Table.count_eq_zero_iff.mpr (Table.orderBy_eq_nil_iff.mp hqueue)
      omega

/-- A row behind the head can bypass it only if it is LIGHT. -/
theorem not_canBypass {db : EvaluationDb} {limit : Int}
    (hlight : ∀ row ∈ db.queue, row.workloadClass ≠ .light) : ¬ db.CanBypass limit := by
  unfold CanBypass
  split
  · rename_i oldest successor rest hqueue
    intro hbypass
    exact hlight successor (by simp [hqueue]) hbypass.2
  · exact not_false

/-- With nothing running, a claim goes through unless the head is HEAVY, the
HEAVY budget is empty, and the head cannot be bypassed. -/
theorem canClaim_of_idle {db : EvaluationDb} (hidle : db.running = 0)
    (hqueued : 0 < db.queued) {args : ClaimArgs} (hpolicy : args.schedulingPolicy ≠ .fifo) :
    db.CanClaim args ↔
      ¬ (args.maxConcurrentHeavy ≤ 0 ∧
        (∃ oldest ∈ db.queue.head?, oldest.workloadClass = .heavy) ∧
        ¬ db.CanBypass args.bypassLimit) := by
  have hslot : (db.running : Int) < args.workers := by
    simp only [hidle, ClaimArgs.workers]
    omega
  have hbounded : args.boundedPolicy = true := by
    unfold ClaimArgs.boundedPolicy
    cases hcase : args.schedulingPolicy with
    | fifo => exact absurd hcase hpolicy
    | boundedLightBypass => decide
    | resourceAware => decide
  obtain ⟨oldest, hhead⟩ := exists_oldest hqueued
  simp only [CanClaim, hslot, hbounded, heavyIsBlocked_of_idle hidle, hhead,
    Option.mem_some_iff, exists_eq_left', true_and]
  tauto

end EvaluationDb

namespace EvaluationWorker

variable {worker : EvaluationWorker} {db : EvaluationDb} {host : HostSample}
  {clocks : Clocks} {now : Timestamp}

/-- A poll claims when it is admitted and the claim can go through. -/
theorem processOne_isSome_iff {tick : Tick} (htick : (worker.poll db host clocks).1 = tick) :
    (worker.processOne db host clocks now).1.isSome = true ↔
      tick.admission.allowed = true ∧
        (db.persistRuntimeState tick.pressure tick.effectiveMaxWorkers).CanClaim
          (worker.claimArgs tick) := by
  have hclaim : ((db.persistRuntimeState tick.pressure tick.effectiveMaxWorkers).claimTransaction
      (worker.claimArgs tick) now).isSome = true ↔ _ :=
    EvaluationDb.claimTransaction_isSome_iff
  rw [← hclaim]
  simp only [processOne, htick]
  split
  · rename_i hheld
    simp [hheld]
  · rename_i hadmitted
    rw [Bool.not_eq_false] at hadmitted
    simp only [hadmitted, true_and]
    cases (db.persistRuntimeState tick.pressure tick.effectiveMaxWorkers).claimTransaction
        (worker.claimArgs tick) now with
    | none => exact Iff.rfl
    | some claimed => exact Iff.rfl

/-- The tick of an idle poll without feedback, as `tick_without_feedback` has it. -/
theorem poll_of_idle (host : HostSample) (clocks : Clocks)
    (henabled : worker.runtime.enabled = true)
    (hfeedback : worker.runtime.interactiveFeedback.enabled = false) (hidle : db.running = 0) :
    let tick := (worker.poll db host clocks).1
    let snapshot := host.snapshot db.queued 0 db.scheduler.interactiveP95Ms
    tick.admission.allowed = true ∧
    (worker.runtime.budget.HardLimitReached snapshot → tick.effectiveMaxHeavy = 0) ∧
    (¬ worker.runtime.budget.HardLimitReached snapshot →
      tick.effectiveMaxHeavy = worker.runtime.budget.maxConcurrentHeavy) := by
  have htick := (worker.hinted db).tick_without_feedback henabled hfeedback host db.queued
    clocks
  simp only [poll, EvaluationDb.planeSnapshot, hidle]
  exact htick

/-- The HEAVY budget of a claim after an idle poll is empty exactly when a hard
limit is reached. -/
theorem claimArgs_poll_of_idle (host : HostSample) (clocks : Clocks)
    (hbudget : worker.runtime.budget = ResourceBudget.fromSettings worker.settings)
    (henabled : worker.runtime.enabled = true)
    (hfeedback : worker.runtime.interactiveFeedback.enabled = false) (hidle : db.running = 0) :
    (worker.claimArgs (worker.poll db host clocks).1).maxConcurrentHeavy ≤ 0 ↔
      worker.runtime.budget.HardLimitReached
        (host.snapshot db.queued 0 db.scheduler.interactiveP95Ms) := by
  obtain ⟨-, hhard, hsoft⟩ := poll_of_idle host clocks henabled hfeedback hidle
  constructor
  · intro hle
    by_contra hcalm
    have hslots : (ResourceBudget.fromSettings worker.settings).maxConcurrentHeavy ≤ 0 := by
      rw [← hbudget, ← hsoft hcalm]
      exact hle
    have hone := ResourceBudget.one_le_maxConcurrentHeavy worker.settings
    omega
  · intro hreached
    exact (hhard hreached).le

/-- **Progress.**  With nothing running, the runtime enabled and interactive
feedback disabled, a poll claims a row exactly when it is not the case that a
hard limit is reached, the oldest queued row is HEAVY, and no LIGHT row behind
it may bypass it. -/
theorem process_one_claims_iff
    (hbudget : worker.runtime.budget = ResourceBudget.fromSettings worker.settings)
    (henabled : worker.runtime.enabled = true)
    (hfeedback : worker.runtime.interactiveFeedback.enabled = false)
    (hpolicy : worker.settings.evaluationSchedulingPolicy ≠ .fifo)
    (hqueued : 0 < db.queued) (hidle : db.running = 0) :
    (worker.processOne db host clocks now).1.isSome = true ↔
      ¬ (worker.runtime.budget.HardLimitReached
            (host.snapshot db.queued 0 db.scheduler.interactiveP95Ms) ∧
          (∃ oldest ∈ db.queue.head?, oldest.workloadClass = .heavy) ∧
          ¬ db.CanBypass worker.settings.evaluationLightBypassLimit) := by
  obtain ⟨hallowed, -, -⟩ := poll_of_idle host clocks henabled hfeedback hidle
  have hslots := claimArgs_poll_of_idle host clocks hbudget henabled hfeedback hidle
  rw [processOne_isSome_iff rfl, hallowed]
  generalize (worker.poll db host clocks).1 = tick at hslots ⊢
  have hlimit : (worker.claimArgs tick).bypassLimit =
      worker.settings.evaluationLightBypassLimit :=
    max_eq_right worker.settings.zero_le_lightBypassLimit
  have hcan : (db.persistRuntimeState tick.pressure tick.effectiveMaxWorkers).CanClaim
      (worker.claimArgs tick) ↔ _ :=
    EvaluationDb.canClaim_of_idle hidle hqueued hpolicy
  rw [hcan, hslots, hlimit]
  simp only [true_and]

/-- A backlog of HEAVY rows alone, at the hard queue depth: no poll claims,
whatever the host. -/
theorem no_claim_of_heavy_backlog (henabled : worker.runtime.enabled = true)
    (hfeedback : worker.runtime.interactiveFeedback.enabled = false)
    (hpolicy : worker.settings.evaluationSchedulingPolicy ≠ .fifo)
    (hqueued : 0 < db.queued) (hidle : db.running = 0)
    (hheavy : ∀ row ∈ db.evaluations, row.workloadClass = .heavy)
    (hdepth : worker.runtime.budget.maxQueuedEvaluationsHard ≤ db.queued) :
    (worker.processOne db host clocks now).1 = none := by
  obtain ⟨-, hhard, -⟩ := poll_of_idle host clocks henabled hfeedback hidle
  have hslots := hhard (Or.inr (Or.inr (Or.inl (by
    simp only [HostSample.snapshot]
    omega))))
  have hclass : ∀ row ∈ db.queue, row.workloadClass = .heavy :=
    fun row hrow => hheavy row (EvaluationDb.mem_queue.mp hrow).1
  obtain ⟨oldest, hhead⟩ := EvaluationDb.exists_oldest hqueued
  have hnot : ¬ (worker.processOne db host clocks now).1.isSome = true := by
    intro hclaims
    have hcan := ((processOne_isSome_iff rfl).mp hclaims).2
    refine (EvaluationDb.canClaim_of_idle hidle hqueued hpolicy).mp hcan ⟨hslots.le, ?_, ?_⟩
    · exact ⟨oldest, hhead, hclass oldest (List.mem_of_mem_head? hhead)⟩
    · refine EvaluationDb.not_canBypass (fun row hrow hlight => ?_)
      have hboth := (hclass row hrow).symm.trans hlight
      contradiction
  simpa using hnot

/-- A host with an idle CPU and memory to spare. -/
def calmHost : HostSample := ⟨some 0, some 100⟩

/-- A job that has just been queued. -/
def queuedRow (workloadClass : WorkloadClass) (id : Nat) : EvaluationRow where
  id := id
  submissionId := id
  status := .queued
  workloadClass := workloadClass
  currentStage := 0
  evaluationMode := .legacy
  deadlineAt := none
  createdAt := id
  startedAt := none
  completedAt := none
  attemptCount := 0
  failureReason := none
  score := none
  resultMetadata := []
  workerId := none

/-- A store with `n` jobs of one class, all of them queued. -/
def backlog (workloadClass : WorkloadClass) (n : Nat) : EvaluationDb where
  evaluations :=
    { rows := (List.range n).map (queuedRow workloadClass)
      nodup := by
        rw [List.map_map]
        exact List.nodup_range.map_on (fun i _ j _ hij => by simpa [queuedRow] using hij) }
  schedulerState := none

theorem queued_backlog (workloadClass : WorkloadClass) (n : Nat) :
    (backlog workloadClass n).queued = n := by
  have hall : ∀ row ∈ (backlog workloadClass n).evaluations.rows, row.isQueued = true := by
    intro row hrow
    obtain ⟨i, -, rfl⟩ := List.mem_map.mp hrow
    rfl
  calc (backlog workloadClass n).queued
      = (backlog workloadClass n).evaluations.rows.length := List.countP_eq_length.mpr hall
    _ = n := by simp [backlog]

theorem running_backlog (workloadClass : WorkloadClass) (n : Nat) :
    (backlog workloadClass n).running = 0 := by
  refine Table.count_eq_zero_iff.mpr (fun row hrow => ?_)
  obtain ⟨i, -, rfl⟩ := List.mem_map.mp hrow
  rfl

theorem workloadClass_of_backlog {workloadClass : WorkloadClass} {n : Nat} {row : EvaluationRow}
    (hrow : row ∈ (backlog workloadClass n).evaluations) :
    row.workloadClass = workloadClass := by
  obtain ⟨i, -, rfl⟩ := List.mem_map.mp hrow
  rfl

/-- A backlog of LIGHT jobs is claimed from at any depth. -/
theorem process_one_claims_light :
    ((ofSettings {} "worker-a").processOne (backlog .light 100) calmHost ⟨0, 0⟩ 0).1.isSome
      = true := by
  refine (process_one_claims_iff rfl rfl (by decide +kernel) (by decide) ?_
    (running_backlog .light 100)).mpr ?_
  · rw [queued_backlog]
    omega
  · intro hblocked
    obtain ⟨-, ⟨oldest, hhead, hheavy⟩, -⟩ := hblocked
    have hmem := EvaluationDb.mem_queue.mp (List.mem_of_mem_head? hhead)
    have hlight := workloadClass_of_backlog hmem.1
    rw [hheavy] at hlight
    contradiction

/-- A hundred HEAVY jobs and nothing running, under the default settings, on a
calm host: the worker claims none of them, now or at any later poll. -/
theorem heavy_backlog_stalls :
    let worker := ofSettings {} "worker-a"
    let db := backlog .heavy 100
    db.queued = 100 ∧ db.running = 0 ∧ calmHost.Calm worker.runtime.budget ∧
    worker.runtime.interactiveFeedback.enabled = false ∧
    ∀ clocks now, (worker.processOne db calmHost clocks now).1 = none := by
  refine ⟨queued_backlog .heavy 100, running_backlog .heavy 100, by decide +kernel,
    by decide +kernel, ?_⟩
  intro clocks now
  refine no_claim_of_heavy_backlog rfl (by decide +kernel) (by decide) ?_ (running_backlog _ _)
    (fun row hrow => workloadClass_of_backlog hrow) ?_
  · rw [queued_backlog]
    omega
  · rw [queued_backlog]
    exact le_refl (100 : Int)

end EvaluationWorker

end ChallengeForge
