import ChallengeForge.DomainModel
import ChallengeForge.KeyedTable

/-!
# The evaluation repository

The `evaluations` table, the singleton `evaluation_scheduler_state` row, and
the operations of `EvaluationRepository` that hand out jobs, each as one
transaction: `createQueued` inserts a job, `claimNext` is the claim decision
under the scheduler row's lock, and `claimTransaction` is what the worker makes
of it (commit a claimed row, roll back otherwise).

`createQueued_eq_some` and `claimTransaction_eq_some_iff` say what the two do;
later modules use these and never open the definitions.
-/

namespace ChallengeForge

open Keyed

/-- `score IS NULL OR (score >= 0 AND score <= 100)`: a stored score. -/
abbrev Score := { n : Int // 0 ≤ n ∧ n ≤ 100 }

/-- One evaluation job per submission. -/
structure EvaluationRow where
  id : UUID
  submissionId : UUID
  status : EvaluationStatus
  workloadClass : WorkloadClass
  currentStage : Nat
  evaluationMode : EvaluationMode
  deadlineAt : Option Timestamp
  createdAt : Timestamp
  startedAt : Option Timestamp
  completedAt : Option Timestamp
  attemptCount : Nat
  failureReason : Option String
  score : Option Score
  resultMetadata : JsonDict
  workerId : Option String
  deriving DecidableEq

/-- Singleton row serializing the deliberately small claiming policy. -/
structure EvaluationSchedulerStateRow where
  blockedHeavyId : Option UUID
  lightBypassCount : Nat
  pressureState : PressureState
  adaptiveMaxWorkers : Option Int
  interactiveP95Ms : Option Rat
  interactiveSampleCount : Nat
  poolWaitP95Ms : Option Rat
  deriving DecidableEq

/-- What the repository reads and writes.  The scheduler row is inserted by
the first claim or the first published runtime state. -/
structure EvaluationDb where
  evaluations : Table EvaluationRow EvaluationRow.id
  schedulerState : Option EvaluationSchedulerStateRow

namespace EvaluationRow

/-- `ORDER BY created_at, id`, ties included. -/
def fifoLe (a b : EvaluationRow) : Prop :=
  a.createdAt < b.createdAt ∨ (a.createdAt = b.createdAt ∧ a.id ≤ b.id)

instance : DecidableRel fifoLe := fun _ _ =>
  inferInstanceAs (Decidable (_ ∨ _))

instance : Std.Total fifoLe where
  total a b := by
    grind [fifoLe]

instance : IsTrans EvaluationRow fifoLe where
  trans a b c hab hbc := by
    grind [fifoLe]

/-- `(created_at, id)` is smaller. -/
def comesBefore (a b : EvaluationRow) : Prop :=
  a.createdAt < b.createdAt ∨ (a.createdAt = b.createdAt ∧ a.id < b.id)

instance : DecidableRel comesBefore := fun _ _ =>
  inferInstanceAs (Decidable (_ ∨ _))

theorem fifoLe.comesBefore {a b : EvaluationRow} (h : a.fifoLe b) (hne : a.id ≠ b.id) :
    a.comesBefore b := by
  grind [EvaluationRow.comesBefore, fifoLe]

/-- The row waits in the queue. -/
def isQueued (row : EvaluationRow) : Bool := row.status = .queued

/-- The row is claimed. -/
def isRunning (row : EvaluationRow) : Bool := row.status = .running

/-- The row is claimed and takes a HEAVY slot. -/
def isRunningHeavy (row : EvaluationRow) : Bool :=
  row.status = .running ∧ row.workloadClass = .heavy

@[simp] theorem isQueued_iff {row : EvaluationRow} :
    row.isQueued = true ↔ row.status = .queued := by
  simp [isQueued]

@[simp] theorem isRunning_iff {row : EvaluationRow} :
    row.isRunning = true ↔ row.status = .running := by
  simp [isRunning]

@[simp] theorem isRunningHeavy_iff {row : EvaluationRow} :
    row.isRunningHeavy = true ↔ row.status = .running ∧ row.workloadClass = .heavy := by
  simp [isRunningHeavy]

/-- The guard `id = … AND status = 'running' AND worker_id = …`. -/
def ownedBy (id : UUID) (workerId : String) (row : EvaluationRow) : Bool :=
  row.id = id ∧ row.status = .running ∧ row.workerId = some workerId

@[simp] theorem ownedBy_iff {id : UUID} {workerId : String} {row : EvaluationRow} :
    row.ownedBy id workerId = true ↔
      row.id = id ∧ row.status = .running ∧ row.workerId = some workerId := by
  simp [ownedBy]

/-- What a claim assigns to the row it takes. -/
def startRunning (row : EvaluationRow) (workerId : String) (now : Timestamp) :
    EvaluationRow :=
  { row with
    status := .running
    startedAt := some now
    attemptCount := row.attemptCount + 1
    workerId := some workerId
    failureReason := none }

@[simp] theorem startRunning_id (workerId : String) (now : Timestamp)
    (row : EvaluationRow) : (row.startRunning workerId now).id = row.id := rfl

end EvaluationRow

namespace EvaluationDb

/-- The row with a given id, as `session.get` finds it. -/
def get (db : EvaluationDb) (id : UUID) : Option EvaluationRow :=
  db.evaluations.find? id

/-- `SELECT … WHERE status = 'queued' ORDER BY created_at, id`. -/
def queue (db : EvaluationDb) : List EvaluationRow :=
  db.evaluations.orderBy EvaluationRow.fifoLe EvaluationRow.isQueued

/-- `SELECT count(*) … WHERE status = 'running'`. -/
def running (db : EvaluationDb) : Nat :=
  db.evaluations.count EvaluationRow.isRunning

/-- `SELECT count(*) … WHERE status = 'running' AND workload_class = 'heavy'`. -/
def runningHeavy (db : EvaluationDb) : Nat :=
  db.evaluations.count EvaluationRow.isRunningHeavy

/-- `SELECT count(*) … WHERE status = 'queued'`. -/
def queued (db : EvaluationDb) : Nat :=
  db.evaluations.count EvaluationRow.isQueued

end EvaluationDb

/-- The values of `INSERT … ON CONFLICT DO NOTHING` in a claim. -/
def EvaluationSchedulerStateRow.initial : EvaluationSchedulerStateRow where
  blockedHeavyId := none
  lightBypassCount := 0
  pressureState := .normal
  adaptiveMaxWorkers := none
  interactiveP95Ms := none
  interactiveSampleCount := 0
  poolWaitP95Ms := none

namespace EvaluationDb

/-- The scheduler row as a claim finds it, inserted on the way if missing. -/
def scheduler (db : EvaluationDb) : EvaluationSchedulerStateRow :=
  db.schedulerState.getD .initial

/-! ## Creating a job -/

/-- Insert a QUEUED job, unless its id or its submission is taken. -/
def createQueued (db : EvaluationDb) (id submissionId : UUID)
    (workloadClass : WorkloadClass) (evaluationMode : EvaluationMode)
    (deadlineAt : Option Timestamp) (currentStage : Nat) (now : Timestamp) :
    Option EvaluationDb :=
  if db.evaluations.rows.any (fun row => row.submissionId = submissionId) then none
  else
    (db.evaluations.insert
      { id := id
        submissionId := submissionId
        status := .queued
        workloadClass := workloadClass
        currentStage := currentStage
        evaluationMode := evaluationMode
        deadlineAt := deadlineAt
        createdAt := now
        startedAt := none
        completedAt := none
        attemptCount := 0
        failureReason := none
        score := none
        resultMetadata := []
        workerId := none }).map
      (fun evaluations => { db with evaluations := evaluations })

/-- A job as `create_queued` inserts it. -/
structure NewlyQueued (row : EvaluationRow) (id submissionId : UUID)
    (evaluationMode : EvaluationMode) (currentStage : Nat) : Prop where
  id : row.id = id
  submissionId : row.submissionId = submissionId
  status : row.status = .queued
  evaluationMode : row.evaluationMode = evaluationMode
  currentStage : row.currentStage = currentStage
  attemptCount : row.attemptCount = 0
  startedAt : row.startedAt = none
  completedAt : row.completedAt = none
  failureReason : row.failureReason = none
  score : row.score = none
  resultMetadata : row.resultMetadata = []
  workerId : row.workerId = none

/-- **Creating a job.**  It is the first of its submission, and comes beside the
rows there are. -/
theorem createQueued_inserts {db db' : EvaluationDb} {id submissionId : UUID}
    {workloadClass : WorkloadClass} {evaluationMode : EvaluationMode}
    {deadlineAt : Option Timestamp} {currentStage : Nat} {now : Timestamp}
    (h : db.createQueued id submissionId workloadClass evaluationMode deadlineAt currentStage
      now = some db') :
    (∀ other ∈ db.evaluations, other.submissionId ≠ submissionId) ∧
    ∃ row evaluations, NewlyQueued row id submissionId evaluationMode currentStage ∧
      db.evaluations.insert row = some evaluations ∧
      db' = { db with evaluations := evaluations } := by
  unfold createQueued at h
  split at h
  · cases h
  · rename_i hfirst
    obtain ⟨evaluations, hinsert, rfl⟩ := Option.map_eq_some_iff.mp h
    refine ⟨?_, _, evaluations, ?_, hinsert, rfl⟩
    · intro other hother hsame
      apply hfirst
      rw [List.any_eq_true]
      exact ⟨other, hother, by simpa using hsame⟩
    · exact ⟨rfl, rfl, rfl, rfl, rfl, rfl, rfl, rfl, rfl, rfl, rfl, rfl⟩

/-- A new job is a QUEUED row that was never attempted, beside the rows there are. -/
theorem createQueued_eq_some {db db' : EvaluationDb} {id submissionId : UUID}
    {workloadClass : WorkloadClass} {evaluationMode : EvaluationMode}
    {deadlineAt : Option Timestamp} {currentStage : Nat} {now : Timestamp}
    (h : db.createQueued id submissionId workloadClass evaluationMode deadlineAt currentStage
      now = some db') :
    ∃ row evaluations, row.status = .queued ∧ row.attemptCount = 0 ∧
      db.evaluations.insert row = some evaluations ∧
      db' = { db with evaluations := evaluations } := by
  obtain ⟨_, row, evaluations, hnew, hinsert, hdb⟩ := createQueued_inserts h
  exact ⟨row, evaluations, hnew.status, hnew.attemptCount, hinsert, hdb⟩

end EvaluationDb

/-! ## Claiming -/

/-- `evaluation_scheduling_policy`. -/
inductive SchedulingPolicy
  | fifo
  | boundedLightBypass
  | resourceAware
  deriving DecidableEq, Repr

/-- The keyword arguments of `claim_next`. -/
structure ClaimArgs where
  workerId : String
  schedulingPolicy : SchedulingPolicy
  maxWorkers : Int
  maxConcurrentHeavy : Int
  lightBypassLimit : Int
  deriving DecidableEq, Repr

namespace ClaimArgs

/-- `max(1, max_workers)`. -/
def workers (args : ClaimArgs) : Int := max 1 args.maxWorkers

/-- `max(0, min(max_concurrent_heavy, max_workers))`; 0 is intentional under
DEGRADED (block new HEAVY, allow LIGHT bypass). -/
def heavySlots (args : ClaimArgs) : Int := max 0 (min args.maxConcurrentHeavy args.workers)

/-- `max(0, light_bypass_limit)`. -/
def bypassLimit (args : ClaimArgs) : Int := max 0 args.lightBypassLimit

/-- `resource_aware` uses the same claim mechanics as bounded LIGHT bypass. -/
def boundedPolicy (args : ClaimArgs) : Bool :=
  (if args.schedulingPolicy = .resourceAware then .boundedLightBypass
    else args.schedulingPolicy) = SchedulingPolicy.boundedLightBypass

end ClaimArgs

namespace EvaluationSchedulerStateRow

/-- `state.blocked_heavy_id = None; state.light_bypass_count = 0`. -/
def unblocked (state : EvaluationSchedulerStateRow) : EvaluationSchedulerStateRow :=
  { state with blockedHeavyId := none, lightBypassCount := 0 }

/-- Count from zero when another row than the recorded one is blocked. -/
def blockedOn (state : EvaluationSchedulerStateRow) (id : UUID) :
    EvaluationSchedulerStateRow :=
  if state.blockedHeavyId ≠ some id then
    { state with blockedHeavyId := some id, lightBypassCount := 0 }
  else state

/-- `state.light_bypass_count += 1`. -/
def bypassed (state : EvaluationSchedulerStateRow) : EvaluationSchedulerStateRow :=
  { state with lightBypassCount := state.lightBypassCount + 1 }

/-- How often the given row has been bypassed, as far as the state knows. -/
def bypassesOf (state : EvaluationSchedulerStateRow) (id : UUID) : Nat :=
  if state.blockedHeavyId = some id then state.lightBypassCount else 0

@[simp] theorem blockedOn_blockedHeavyId (state : EvaluationSchedulerStateRow) (id : UUID) :
    (state.blockedOn id).blockedHeavyId = some id := by
  unfold blockedOn
  split
  · rfl
  · rename_i h
    simpa using h

@[simp] theorem blockedOn_lightBypassCount (state : EvaluationSchedulerStateRow)
    (id : UUID) : (state.blockedOn id).lightBypassCount = state.bypassesOf id := by
  by_cases h : state.blockedHeavyId = some id <;> simp [blockedOn, bypassesOf, h]

end EvaluationSchedulerStateRow

namespace EvaluationDb

/-- Assign the scheduler row. -/
def setScheduler (db : EvaluationDb) (state : EvaluationSchedulerStateRow) : EvaluationDb :=
  { db with schedulerState := some state }

/-- Write the RUNNING state of a claimed row. -/
def start (db : EvaluationDb) (row : EvaluationRow) (workerId : String) (now : Timestamp) :
    EvaluationDb :=
  { db with
    evaluations := db.evaluations.update (fun r => decide (r.id = row.id))
      (fun r => r.startRunning workerId now)
      (EvaluationRow.startRunning_id workerId now) }

theorem get_start (db : EvaluationDb) (x : EvaluationRow) (workerId : String)
    (now : Timestamp) (e : UUID) :
    (db.start x workerId now).get e =
      (db.get e).map (fun r => if r.id = x.id then r.startRunning workerId now else r) := by
  simp [get, start, Table.find?_update]

/-- Claim one job under FIFO plus a narrowly bounded LIGHT bypass: the row
returned, and the database as the open transaction leaves it. -/
def claimNext (db : EvaluationDb) (args : ClaimArgs) (now : Timestamp) :
    Option EvaluationRow × EvaluationDb :=
  let state := db.scheduler
  if (db.running : Int) ≥ args.workers then (none, db.setScheduler state)
  else
    match db.queue with
    | [] => (none, db.setScheduler state.unblocked)
    | oldest :: rest =>
      if oldest.workloadClass = .heavy then
        if (db.runningHeavy : Int) ≥ args.heavySlots ∨ args.heavySlots = 0 then
          if args.boundedPolicy = false then (none, db.setScheduler state)
          else
            let state := state.blockedOn oldest.id
            if (state.lightBypassCount : Int) ≥ args.bypassLimit then
              (none, db.setScheduler state)
            else
              -- only the immediate FIFO successor may bypass
              match rest with
              | [] => (none, db.setScheduler state)
              | successor :: _ =>
                if successor.workloadClass ≠ .light then (none, db.setScheduler state)
                else
                  (some (successor.startRunning args.workerId now),
                    (db.setScheduler state.bypassed).start successor args.workerId now)
        else
          (some (oldest.startRunning args.workerId now),
            (db.setScheduler state.unblocked).start oldest args.workerId now)
      else
        (some (oldest.startRunning args.workerId now),
          (db.setScheduler state.unblocked).start oldest args.workerId now)

/-- The claim as the worker runs it: commit when a row is returned, roll back
otherwise. -/
def claimTransaction (db : EvaluationDb) (args : ClaimArgs) (now : Timestamp) :
    Option (EvaluationRow × EvaluationDb) :=
  match db.claimNext args now with
  | (some row, db') => some (row, db')
  | (none, _) => none

/-- The oldest row is HEAVY while every HEAVY slot is occupied. -/
def HeavyIsBlocked (db : EvaluationDb) (args : ClaimArgs) (oldest : EvaluationRow) : Prop :=
  oldest.workloadClass = .heavy ∧ args.heavySlots ≤ db.runningHeavy

instance (db : EvaluationDb) (args : ClaimArgs) (oldest : EvaluationRow) :
    Decidable (db.HeavyIsBlocked args oldest) := inferInstanceAs (Decidable (_ ∧ _))

/-- What a claim decides: the row it takes and the scheduler row it leaves. -/
inductive ClaimDecision (db : EvaluationDb) (args : ClaimArgs) :
    EvaluationRow → EvaluationSchedulerStateRow → Prop
  | oldest {row rest} (hslot : (db.running : Int) < args.workers)
      (hqueue : db.queue = row :: rest) (hfree : ¬ db.HeavyIsBlocked args row) :
      ClaimDecision db args row db.scheduler.unblocked
  | bypass {oldest row rest} (hslot : (db.running : Int) < args.workers)
      (hqueue : db.queue = oldest :: row :: rest)
      (hblocked : db.HeavyIsBlocked args oldest) (hpolicy : args.boundedPolicy = true)
      (hlimit : (db.scheduler.bypassesOf oldest.id : Int) < args.bypassLimit)
      (hlight : row.workloadClass = .light) :
      ClaimDecision db args row (db.scheduler.blockedOn oldest.id).bypassed

/-- How `claim_next` asks whether the HEAVY slots are occupied. -/
theorem heavyIsBlocked_iff {db : EvaluationDb} {args : ClaimArgs} {oldest : EvaluationRow}
    (hheavy : oldest.workloadClass = .heavy) :
    ((db.runningHeavy : Int) ≥ args.heavySlots ∨ args.heavySlots = 0) ↔
      db.HeavyIsBlocked args oldest := by
  simp only [HeavyIsBlocked, hheavy, true_and]
  omega

/-- A claim that commits has decided on the row it starts. -/
theorem ClaimDecision.of_claimTransaction {db db' : EvaluationDb} {args : ClaimArgs}
    {now : Timestamp} {row' : EvaluationRow}
    (h : db.claimTransaction args now = some (row', db')) :
    ∃ row state, ClaimDecision db args row state ∧
      row' = row.startRunning args.workerId now ∧
      db' = (db.setScheduler state).start row args.workerId now := by
  unfold claimTransaction claimNext at h
  split at h
  · rename_i row'' db'' heq
    obtain ⟨rfl, rfl⟩ : row'' = row' ∧ db'' = db' := by simpa using h
    split at heq
    · simp at heq
    rename_i hslot
    split at heq
    · simp at heq
    rename_i oldest rest hqueue
    split at heq
    · rename_i hheavy
      dsimp only at heq
      split at heq
      · rename_i hfull
        have hblocked := (heavyIsBlocked_iff hheavy).mp hfull
        split at heq
        · simp at heq
        rename_i hpolicy
        split at heq
        · simp at heq
        rename_i hlimit
        split at heq
        · simp at heq
        rename_i successor rest'
        split at heq
        · simp at heq
        rename_i hlight
        simp only [Prod.mk.injEq, Option.some.injEq] at heq
        refine ⟨successor, _, .bypass (by omega) hqueue hblocked (by simpa using hpolicy)
          ?_ (by simpa using hlight), heq.1.symm, heq.2.symm⟩
        simpa using hlimit
      · rename_i hfree
        simp only [Prod.mk.injEq, Option.some.injEq] at heq
        exact ⟨oldest, _, .oldest (by omega) hqueue
          (fun hb => hfree ((heavyIsBlocked_iff hheavy).mpr hb)), heq.1.symm, heq.2.symm⟩
    · rename_i hlight
      simp only [Prod.mk.injEq, Option.some.injEq] at heq
      exact ⟨oldest, _, .oldest (by omega) hqueue (fun hb => hlight hb.1),
        heq.1.symm, heq.2.symm⟩
  · simp at h

/-- A decision is committed. -/
theorem ClaimDecision.claimTransaction {db : EvaluationDb} {args : ClaimArgs}
    {row : EvaluationRow} {state : EvaluationSchedulerStateRow}
    (h : ClaimDecision db args row state) (now : Timestamp) :
    db.claimTransaction args now = some (row.startRunning args.workerId now,
      (db.setScheduler state).start row args.workerId now) := by
  cases h with
  | oldest hslot hqueue hfree =>
      have hslot' : ¬ (db.running : Int) ≥ args.workers := by omega
      by_cases hheavy : row.workloadClass = .heavy
      · simp [EvaluationDb.claimTransaction, claimNext, hslot', hqueue, hheavy,
          heavyIsBlocked_iff hheavy, hfree]
      · simp [EvaluationDb.claimTransaction, claimNext, hslot', hqueue, hheavy]
  | @bypass oldest row rest hslot hqueue hblocked hpolicy hlimit hlight =>
      have hslot' : ¬ (db.running : Int) ≥ args.workers := by omega
      have hlimit' : ¬ (db.scheduler.bypassesOf oldest.id : Int) ≥ args.bypassLimit := by
        omega
      simp [EvaluationDb.claimTransaction, claimNext, hslot', hqueue, hblocked.1,
        heavyIsBlocked_iff hblocked.1, hblocked, hpolicy, hlimit', hlight]

/-- **Claim inversion.**  A claim commits exactly when a decision exists, and
then it starts the row decided on. -/
theorem claimTransaction_eq_some_iff {db db' : EvaluationDb} {args : ClaimArgs}
    {now : Timestamp} {row' : EvaluationRow} :
    db.claimTransaction args now = some (row', db') ↔
      ∃ row state, ClaimDecision db args row state ∧
        row' = row.startRunning args.workerId now ∧
        db' = (db.setScheduler state).start row args.workerId now := by
  constructor
  · intro hclaim
    exact ClaimDecision.of_claimTransaction hclaim
  · intro hdecided
    obtain ⟨row, state, hdec, rfl, rfl⟩ := hdecided
    exact hdec.claimTransaction now

/-- A LIGHT row directly behind the head may bypass it once more. -/
def CanBypass (db : EvaluationDb) (limit : Int) : Prop :=
  match db.queue with
  | oldest :: successor :: _ =>
      (db.scheduler.bypassesOf oldest.id : Int) < limit ∧ successor.workloadClass = .light
  | _ => False

instance (db : EvaluationDb) (limit : Int) : Decidable (db.CanBypass limit) := by
  unfold CanBypass
  split <;> infer_instance

/-- A claim can go through: a worker slot is free, and the oldest row is not
blocked or may be bypassed. -/
def CanClaim (db : EvaluationDb) (args : ClaimArgs) : Prop :=
  (db.running : Int) < args.workers ∧
    ∃ oldest ∈ db.queue.head?, ¬ db.HeavyIsBlocked args oldest ∨
      args.boundedPolicy = true ∧ db.CanBypass args.bypassLimit

instance (db : EvaluationDb) (args : ClaimArgs) : Decidable (db.CanClaim args) :=
  inferInstanceAs (Decidable (_ ∧ _))

/-- A decision exists exactly when a claim can go through. -/
theorem canClaim_iff {db : EvaluationDb} {args : ClaimArgs} :
    db.CanClaim args ↔ ∃ row state, ClaimDecision db args row state := by
  constructor
  · intro hcanClaim
    obtain ⟨hslot, oldest, hhead, hcan⟩ := hcanClaim
    obtain ⟨rest, hqueue⟩ := List.head?_eq_some_iff.mp hhead
    by_cases hblocked : db.HeavyIsBlocked args oldest
    · obtain ⟨hpolicy, hbypass⟩ := hcan.resolve_left (fun hfree => hfree hblocked)
      simp only [CanBypass, hqueue] at hbypass
      split at hbypass
      · rename_i head successor tail heq
        obtain ⟨rfl, rfl⟩ := List.cons.inj heq
        exact ⟨successor, _, .bypass hslot hqueue hblocked hpolicy hbypass.1 hbypass.2⟩
      · exact hbypass.elim
    · exact ⟨oldest, _, .oldest hslot hqueue hblocked⟩
  · intro hdecided
    obtain ⟨row, state, hdec⟩ := hdecided
    cases hdec with
    | oldest hslot hqueue hfree =>
        exact ⟨hslot, row, by simp [hqueue], Or.inl hfree⟩
    | @bypass oldest _ rest hslot hqueue hblocked hpolicy hlimit hlight =>
        refine ⟨hslot, oldest, by simp [hqueue], Or.inr ⟨hpolicy, ?_⟩⟩
        simp only [CanBypass, hqueue]
        exact ⟨hlimit, hlight⟩

/-- A claim commits exactly when it can go through. -/
theorem claimTransaction_isSome_iff {db : EvaluationDb} {args : ClaimArgs}
    {now : Timestamp} : (db.claimTransaction args now).isSome = true ↔ db.CanClaim args := by
  rw [canClaim_iff, Option.isSome_iff_exists]
  constructor
  · intro hsome
    obtain ⟨⟨row', db'⟩, hclaim⟩ := hsome
    obtain ⟨row, state, hdec, -⟩ := claimTransaction_eq_some_iff.mp hclaim
    exact ⟨row, state, hdec⟩
  · intro hdecided
    obtain ⟨row, state, hdec⟩ := hdecided
    exact ⟨_, claimTransaction_eq_some_iff.mpr ⟨row, state, hdec, rfl, rfl⟩⟩

end EvaluationDb

end ChallengeForge
