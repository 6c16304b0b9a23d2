import ChallengeForge.EvaluationWrites
import ChallengeForge.LabelledSystem

/-!
# The evaluation queue

The evaluation store under arbitrary sequences of its transactions: arrivals,
claims by any worker under any arguments, the four completions, recorded
execution attempts, stale recoveries and published runtime state.  A claim
that returns no row is rolled back.

`Effect` classifies what one transaction can do: add a QUEUED row, start the
row a claim decided on, or rewrite RUNNING rows in place (`transact_effect`).
Every invariant of the queue is derived from it.

* `claim_safety` — in every reachable state the worker and the HEAVY budgets
  hold, and a claim overtakes an older row only by the bounded LIGHT bypass.
-/

namespace ChallengeForge

open Keyed Labelled

namespace EvaluationDb

variable {db : EvaluationDb}

/-! ## The rows a claim sees -/

theorem mem_queue {row : EvaluationRow} :
    row ∈ db.queue ↔ row ∈ db.evaluations ∧ row.status = .queued := by
  simp [queue, Table.mem_orderBy]

/-- The first row of the queue comes before every other queued row. -/
theorem queue_first {x : EvaluationRow} {rest : List EvaluationRow}
    (h : db.queue = x :: rest) {row : EvaluationRow} (hrow : row ∈ db.evaluations)
    (hqueued : row.status = .queued) (hne : row ≠ x) : x.comesBefore row := by
  have hx : x ∈ db.queue := by rw [h]; exact List.mem_cons_self
  have hle : x.fifoLe row := Table.orderBy_first h hrow (by simpa using hqueued) hne
  refine hle.comesBefore (fun hid => hne ?_)
  exact (Table.eq_of_key_eq (mem_queue.mp hx).1 hrow hid).symm

/-- The second row of the queue comes before every queued row but the first. -/
theorem queue_second {x y : EvaluationRow} {rest : List EvaluationRow}
    (h : db.queue = x :: y :: rest) {row : EvaluationRow} (hrow : row ∈ db.evaluations)
    (hqueued : row.status = .queued) (hx : row ≠ x) (hy : row ≠ y) : y.comesBefore row := by
  have hmem : y ∈ db.queue := by rw [h]; simp
  have hle : y.fifoLe row := Table.orderBy_second h hrow (by simpa using hqueued) hx hy
  refine hle.comesBefore (fun hid => hy ?_)
  exact (Table.eq_of_key_eq (mem_queue.mp hmem).1 hrow hid).symm

theorem comesBefore_asymm {a b : EvaluationRow} (hab : a.comesBefore b) :
    ¬ b.comesBefore a := by
  unfold EvaluationRow.comesBefore at *
  grind

/-- The row a claim decides on was QUEUED. -/
theorem ClaimDecision.queued {args : ClaimArgs} {row : EvaluationRow}
    {state : EvaluationSchedulerStateRow} (h : db.ClaimDecision args row state) :
    row ∈ db.evaluations ∧ row.status = .queued := by
  cases h with
  | oldest hslot hqueue hfree =>
      exact mem_queue.mp (by rw [hqueue]; exact List.mem_cons_self)
  | bypass hslot hqueue hblocked hpolicy hlimit hlight =>
      exact mem_queue.mp (by rw [hqueue]; simp)

/-- **Overtaking.**  A claim leaves behind an older queued row only if that row
heads the queue, is HEAVY and blocked, and the claimed row is LIGHT and its
immediate successor. -/
theorem ClaimDecision.overtakes {args : ClaimArgs} {x y : EvaluationRow}
    {state : EvaluationSchedulerStateRow} (h : db.ClaimDecision args x state)
    (hy : y ∈ db.evaluations) (hqueued : y.status = .queued) (hbefore : y.comesBefore x) :
    (∀ z ∈ db.evaluations, z.status = .queued → z ≠ y → y.comesBefore z) ∧
    db.HeavyIsBlocked args y ∧ x.workloadClass = .light ∧
    ∀ z ∈ db.evaluations, z.status = .queued → ¬ (y.comesBefore z ∧ z.comesBefore x) := by
  have hne : y ≠ x := by
    intro heq
    subst heq
    exact comesBefore_asymm hbefore hbefore
  cases h with
  | oldest hslot hqueue hfree =>
      exact absurd hbefore (comesBefore_asymm (queue_first hqueue hy hqueued hne))
  | @bypass oldest _ rest hslot hqueue hblocked hpolicy hlimit hlight =>
      obtain rfl : y = oldest := by
        by_contra hyold
        exact comesBefore_asymm hbefore (queue_second hqueue hy hqueued hyold hne)
      refine ⟨fun z hz hzq hzne => queue_first hqueue hz hzq hzne, hblocked, hlight, ?_⟩
      intro z hz hzq hbetween
      obtain ⟨hyz, hzx⟩ := hbetween
      have hzy : z ≠ y := by
        intro heq
        subst heq
        exact comesBefore_asymm hyz hyz
      have hzx' : z ≠ x := by
        intro heq
        subst heq
        exact comesBefore_asymm hzx hzx
      exact comesBefore_asymm hzx (queue_second hqueue hz hzq hzy hzx')

end EvaluationDb

/-- The transactions on the evaluation store, with what they are called with. -/
inductive QueueAction
  | createQueued (id submissionId : UUID) (workloadClass : WorkloadClass)
      (evaluationMode : EvaluationMode) (deadlineAt : Option Timestamp)
      (currentStage : Nat) (now : Timestamp)
  | claimNext (args : ClaimArgs) (now : Timestamp)
  | complete (id : UUID) (workerId : String) (now : Timestamp) (c : Completion)
  | beginExecutionAttempt (id : UUID) (workerId : String) (attempt : ExecutionAttempt)
  | recoverStaleRunning (staleBefore : Timestamp) (maxAttempts : Int) (now : Timestamp)
      (os : UUID → OsView)
  | persistRuntimeState (pressureState : PressureState) (adaptiveMaxWorkers : Int)
  | persistInteractiveHint (interactiveP95Ms : Option Rat) (sampleCount : Int)
      (poolWaitP95Ms : Option Rat)

namespace EvaluationDb

/-- Run one transaction to its commit or its rollback. -/
def transact (db : EvaluationDb) : QueueAction → Option EvaluationDb
  | .createQueued id submissionId workload mode deadline stage now =>
      db.createQueued id submissionId workload mode deadline stage now
  | .claimNext args now =>
      match db.claimTransaction args now with
      | some (_, db') => some db'
      | none => some db
  | .complete id workerId now c => some (db.complete id workerId now c)
  | .beginExecutionAttempt id workerId attempt =>
      some (db.beginExecutionAttempt id workerId attempt)
  | .recoverStaleRunning staleBefore maxAttempts now os =>
      some (db.recoverStaleRunning staleBefore maxAttempts now os)
  | .persistRuntimeState pressure workers => some (db.persistRuntimeState pressure workers)
  | .persistInteractiveHint p95 samples poolWait =>
      some (db.persistInteractiveHint p95 samples poolWait)

/-- The queued row that a transaction claims, when it is a claim that commits. -/
def claimedRow (db : EvaluationDb) : QueueAction → Option EvaluationRow
  | .claimNext args now =>
      (db.claimTransaction args now).bind (fun c => db.get c.1.id)
  | _ => none

end EvaluationDb

/-- The queue as a labelled system, started with no evaluations. -/
def evaluationQueue : System EvaluationDb QueueAction where
  start db := db.evaluations.rows = []
  step := EvaluationDb.transact

/-- What a transaction can do. -/
inductive Effect (db : EvaluationDb) : QueueAction → EvaluationDb → Prop
  /-- A QUEUED row that was never attempted is added. -/
  | arrival {a row evaluations} (hno : db.claimedRow a = none) (hqueued : row.status = .queued)
      (hfresh : row.attemptCount = 0) (hinsert : db.evaluations.insert row = some evaluations) :
      Effect db a { db with evaluations := evaluations }
  /-- A claim starts the row it decided on. -/
  | claim {args now row state} (hdec : db.ClaimDecision args row state)
      (hclaimed : db.claimedRow (.claimNext args now) = some row) :
      Effect db (.claimNext args now)
        ((db.setScheduler state).start row args.workerId now)
  /-- RUNNING rows are rewritten; the bypass counter stays. -/
  | rewrite {a p f db'} (hno : db.claimedRow a = none) (hf : RunningRewrite p f)
      (hrows : db'.evaluations = db.evaluations.update p f hf.id)
      (hblocked : db'.scheduler.blockedHeavyId = db.scheduler.blockedHeavyId)
      (hcount : db'.scheduler.lightBypassCount = db.scheduler.lightBypassCount) :
      Effect db a db'

namespace EvaluationDb

variable {db db' : EvaluationDb}

/-- Nothing is rewritten. -/
theorem effect_of_rows_eq {a : QueueAction} (hno : db.claimedRow a = none)
    (hrows : db'.evaluations = db.evaluations)
    (hblocked : db'.scheduler.blockedHeavyId = db.scheduler.blockedHeavyId)
    (hcount : db'.scheduler.lightBypassCount = db.scheduler.lightBypassCount) :
    Effect db a db' :=
  .rewrite (p := fun _ => false) (f := fun row => row) hno
    ⟨by simp, fun _ => rfl, fun _ => rfl, fun _ => rfl,
      fun _ => Or.inr ⟨rfl, rfl, rfl⟩⟩
    (by rw [hrows, Table.update_eq_self (by simp)]) hblocked hcount

theorem effect_of_rewrite {a : QueueAction} (hno : db.claimedRow a = none)
    {p : EvaluationRow → Bool} {f : EvaluationRow → EvaluationRow}
    (hf : RunningRewrite p f) :
    Effect db a { db with evaluations := db.evaluations.update p f hf.id } :=
  .rewrite hno hf rfl rfl rfl

/-- **Transaction inversion.**  Every transaction has one of the three effects. -/
theorem transact_effect {a : QueueAction} (h : db.transact a = some db') :
    Effect db a db' := by
  cases a with
  | createQueued id submissionId workload mode deadline stage now =>
      obtain ⟨row, evaluations, hqueued, hfresh, hinsert, rfl⟩ := createQueued_eq_some h
      exact .arrival rfl hqueued hfresh hinsert
  | claimNext args now =>
      simp only [transact] at h
      split at h
      · rename_i x db'' hclaim
        cases h
        obtain ⟨row, state, hdec, rfl, rfl⟩ := claimTransaction_eq_some_iff.mp hclaim
        refine .claim hdec ?_
        simp only [claimedRow, hclaim, Option.bind_some]
        exact Table.find?_of_mem hdec.queued.1
      · rename_i hnone
        cases h
        exact effect_of_rows_eq (by simp [claimedRow, hnone]) rfl rfl rfl
  | complete id workerId now c =>
      cases h
      obtain ⟨f, hf, -, heq⟩ := db.complete_eq id workerId now c
      rw [heq]
      exact effect_of_rewrite rfl (hf.ownedRewrite id workerId)
  | beginExecutionAttempt id workerId attempt =>
      cases h
      exact effect_of_rewrite rfl (recordAttempt_rewrite id workerId attempt)
  | recoverStaleRunning staleBefore maxAttempts now os =>
      cases h
      exact effect_of_rewrite rfl (recover_rewrite staleBefore maxAttempts now os)
  | persistRuntimeState pressure workers =>
      cases h
      exact effect_of_rows_eq rfl rfl rfl rfl
  | persistInteractiveHint p95 samples poolWait =>
      cases h
      exact effect_of_rows_eq rfl rfl rfl rfl

/-! ## The budgets -/

section Counting

variable {p : EvaluationRow → Bool} {f : EvaluationRow → EvaluationRow}

/-- Rewriting RUNNING rows starts nothing. -/
theorem running_rewrite_le (hf : RunningRewrite p f)
    (hrows : db'.evaluations = db.evaluations.update p f hf.id) : db'.running ≤ db.running := by
  unfold running
  rw [hrows]
  refine Table.count_update_le hf.id (fun row _ hp _ => ?_)
  exact EvaluationRow.isRunning_iff.mpr (hf.running row hp)

theorem runningHeavy_rewrite_le (hf : RunningRewrite p f)
    (hrows : db'.evaluations = db.evaluations.update p f hf.id) :
    db'.runningHeavy ≤ db.runningHeavy := by
  unfold runningHeavy
  rw [hrows]
  refine Table.count_update_le hf.id (fun row _ hp hheavy => ?_)
  rw [EvaluationRow.isRunningHeavy_iff] at hheavy ⊢
  rcases hf.settled row with hsettled | ⟨hstatus, hclass, -⟩
  · exact absurd hheavy.1 hsettled
  · exact ⟨hf.running row hp, hclass ▸ hheavy.2⟩

/-- Starting one row starts at most one. -/
theorem running_start_le (db : EvaluationDb) (row : EvaluationRow) (workerId : String)
    (now : Timestamp) :
    (db.start row workerId now).running ≤ db.running + 1 := by
  exact Table.count_update_key_le (EvaluationRow.startRunning_id workerId now)

theorem runningHeavy_start_le (db : EvaluationDb) (row : EvaluationRow)
    (workerId : String) (now : Timestamp) :
    (db.start row workerId now).runningHeavy ≤ db.runningHeavy + 1 := by
  exact Table.count_update_key_le (EvaluationRow.startRunning_id workerId now)

/-- Starting a row that is not HEAVY leaves the HEAVY count alone. -/
theorem runningHeavy_start_eq {row : EvaluationRow} (hrow : row ∈ db.evaluations)
    (hlight : row.workloadClass ≠ .heavy) (workerId : String) (now : Timestamp) :
    (db.start row workerId now).runningHeavy ≤ db.runningHeavy := by
  refine Table.count_update_le (EvaluationRow.startRunning_id workerId now)
    (fun r hr hkey hheavy => ?_)
  obtain rfl : r = row := Table.eq_of_key_eq hr hrow (by simpa using hkey)
  exact absurd (EvaluationRow.isRunningHeavy_iff.mp hheavy).2 hlight

end Counting

end EvaluationDb

/-- Every claim's budgets are within `M` workers and `K` HEAVY slots. -/
def withinBudget (M K : Nat) : Condition EvaluationDb QueueAction
  | _, .claimNext args _ => args.maxWorkers ≤ M ∧ args.maxConcurrentHeavy ≤ K
  | _, _ => True

instance (M K : Nat) (db : EvaluationDb) (a : QueueAction) :
    Decidable (withinBudget M K db a) :=
  match a with
  | .claimNext .. => inferInstanceAs (Decidable (_ ∧ _))
  | .createQueued .. | .complete .. | .beginExecutionAttempt ..
  | .recoverStaleRunning .. | .persistRuntimeState .. | .persistInteractiveHint .. => isTrue trivial

/-- The budgets are kept. -/
structure WithinBudget (M K : Nat) (db : EvaluationDb) : Prop where
  running : db.running ≤ M
  runningHeavy : db.runningHeavy ≤ K

/-- A claim adds a RUNNING HEAVY row only below the HEAVY budget. -/
theorem EvaluationDb.ClaimDecision.runningHeavy_le {K : Nat} {db : EvaluationDb}
    {args : ClaimArgs} {row : EvaluationRow} {state : EvaluationSchedulerStateRow}
    (hdec : db.ClaimDecision args row state) (h : db.runningHeavy ≤ K)
    (hargs : args.maxConcurrentHeavy ≤ K) (workerId : String) (now : Timestamp) :
    ((db.setScheduler state).start row workerId now).runningHeavy ≤ K := by
  obtain ⟨hrow, -⟩ := hdec.queued
  have hslots : args.heavySlots ≤ K := by
    unfold ClaimArgs.heavySlots
    omega
  by_cases hheavy : row.workloadClass = .heavy
  · cases hdec with
    | oldest _ hqueue hfree =>
        have hroom : ¬ args.heavySlots ≤ (db.runningHeavy : Int) :=
          fun hfull => hfree ⟨hheavy, hfull⟩
        have hheavyStart := EvaluationDb.runningHeavy_start_le
          (db.setScheduler db.scheduler.unblocked) row workerId now
        have hsame : (db.setScheduler db.scheduler.unblocked).runningHeavy =
          db.runningHeavy := rfl
        omega
    | bypass _ _ _ _ _ hlight =>
        rw [hlight] at hheavy
        cases hheavy
  · have hkeep : ((db.setScheduler state).start row workerId now).runningHeavy ≤
        (db.setScheduler state).runningHeavy :=
      EvaluationDb.runningHeavy_start_eq hrow hheavy workerId now
    exact le_trans hkeep h

/-- A claim adds one RUNNING row below the worker budget. -/
theorem WithinBudget.claim {M K : Nat} {db : EvaluationDb} (h : WithinBudget M K db)
    (hM : 1 ≤ M) {args : ClaimArgs} {row : EvaluationRow}
    {state : EvaluationSchedulerStateRow} (hdec : db.ClaimDecision args row state)
    (hargs : args.maxWorkers ≤ M ∧ args.maxConcurrentHeavy ≤ K) (now : Timestamp) :
    WithinBudget M K ((db.setScheduler state).start row args.workerId now) := by
  have hworkers : args.workers ≤ M := by
    unfold ClaimArgs.workers
    omega
  have hslot : (db.running : Int) < args.workers := by
    cases hdec <;> assumption
  have hstart := EvaluationDb.running_start_le (db.setScheduler state) row args.workerId now
  have hrunning : (db.setScheduler state).running = db.running := rfl
  exact ⟨by omega, hdec.runningHeavy_le h.runningHeavy hargs.2 args.workerId now⟩

/-- The budgets hold in every state reached by claims within them. -/
theorem withinBudget_of_reach {M K : Nat} (hM : 1 ≤ M) {db : EvaluationDb}
    (h : evaluationQueue.Reach (withinBudget M K) db) : WithinBudget M K db := by
  refine h.invariant ?_ ?_
  · intro db hempty
    have hrows : db.evaluations.rows = [] := hempty
    constructor <;>
      simp [EvaluationDb.running, EvaluationDb.runningHeavy, Table.count, hrows]
  · intro db a db' hwithin hok hstep
    cases EvaluationDb.transact_effect hstep with
    | arrival _ hqueued hfresh hinsert =>
        constructor
        · simpa [EvaluationDb.running, Table.count_of_insert hinsert,
            EvaluationRow.isRunning, hqueued] using hwithin.running
        · simpa [EvaluationDb.runningHeavy, Table.count_of_insert hinsert,
            EvaluationRow.isRunningHeavy, hqueued] using hwithin.runningHeavy
    | claim hdec => exact hwithin.claim hM hdec hok _
    | rewrite _ hf hrows =>
        exact ⟨le_trans (EvaluationDb.running_rewrite_le hf hrows) hwithin.running,
          le_trans (EvaluationDb.runningHeavy_rewrite_le hf hrows) hwithin.runningHeavy⟩

/-- **Claim safety.**  When every claim's budgets are within `M` workers and `K`
HEAVY slots, every reachable state has at most `M` RUNNING rows and at most `K`
RUNNING HEAVY rows; and every claim made there returns a row that was QUEUED,
leaving an older queued row behind only when that row is the oldest, HEAVY and
blocked, and the claimed row is LIGHT and its immediate successor. -/
theorem claim_safety {M K : Nat} (hM : 1 ≤ M) {db : EvaluationDb}
    (h : evaluationQueue.Reach (withinBudget M K) db) :
    db.running ≤ M ∧ db.runningHeavy ≤ K ∧
    ∀ args now x db', db.claimTransaction args now = some (x, db') →
      ∃ row ∈ db.evaluations, row.status = .queued ∧
        x = row.startRunning args.workerId now ∧
        ∀ y ∈ db.evaluations, y.status = .queued → y.comesBefore row →
          (∀ z ∈ db.evaluations, z.status = .queued → z ≠ y → y.comesBefore z) ∧
          y.workloadClass = .heavy ∧ args.heavySlots ≤ db.runningHeavy ∧
          row.workloadClass = .light ∧
          ∀ z ∈ db.evaluations, z.status = .queued →
            ¬ (y.comesBefore z ∧ z.comesBefore row) := by
  obtain ⟨hrunning, hheavy⟩ := withinBudget_of_reach hM h
  refine ⟨hrunning, hheavy, fun args now x db' hclaim => ?_⟩
  obtain ⟨row, state, hdec, rfl, -⟩ := EvaluationDb.claimTransaction_eq_some_iff.mp hclaim
  obtain ⟨hrow, hqueued⟩ := hdec.queued
  refine ⟨row, hrow, hqueued, rfl, fun y hy hyq hbefore => ?_⟩
  obtain ⟨holdest, hblocked, hlight, hsucc⟩ := hdec.overtakes hy hyq hbefore
  exact ⟨holdest, hblocked.1, hblocked.2, hlight, hsucc⟩

/-- A store without evaluations or a scheduler row. -/
def emptyEvaluationDb : EvaluationDb := ⟨Table.empty, none⟩

/-- A claim under two workers, one HEAVY slot and two bypasses. -/
def laptopClaim (workerId : String) : ClaimArgs where
  workerId := workerId
  schedulingPolicy := .boundedLightBypass
  maxWorkers := 2
  maxConcurrentHeavy := 1
  lightBypassLimit := 2

/-- A system without any process alive. -/
def idleOs : OsView where
  processAlive _ := false
  containAttempt _ := ⟨false, [], [], false⟩

/-- One HEAVY row runs, another heads the queue, and a LIGHT row follows it. -/
def heavyHeadRun : List QueueAction :=
  [.createQueued 1 1 .heavy .legacy none 0 10,
   .claimNext (laptopClaim "worker-a") 11,
   .createQueued 2 2 .heavy .legacy none 0 12,
   .createQueued 3 3 .light .legacy none 0 13]

/-- `claim_safety` where a LIGHT row overtakes the blocked HEAVY head. -/
theorem claim_safety_heavy_head :
    ∃ db x db', evaluationQueue.Reach (withinBudget 2 1) db ∧
      db.claimTransaction (laptopClaim "worker-b") 14 = some (x, db') ∧ x.id = 3 ∧
      db.running ≤ 2 ∧ db.runningHeavy ≤ 1 ∧
      ∃ row ∈ db.evaluations, row.status = .queued ∧
        x = row.startRunning "worker-b" 14 := by
  obtain ⟨db, hreach, htest⟩ : ∃ db, evaluationQueue.Reach (withinBudget 2 1) db ∧
      (db.claimTransaction (laptopClaim "worker-b") 14).any (fun c => c.1.id = 3) = true :=
    System.reach_of_test emptyEvaluationDb heavyHeadRun _ rfl (by decide)
  obtain ⟨⟨x, db'⟩, hclaim, hid⟩ := (Option.any_eq_true ..).mp htest
  obtain ⟨hrunning, hheavy, hclaims⟩ := claim_safety (by decide) hreach
  obtain ⟨row, hrow, hqueued, hx, -⟩ := hclaims _ _ _ _ hclaim
  exact ⟨db, x, db', hreach, hclaim, by simpa using hid, hrunning, hheavy, row, hrow,
    hqueued, hx⟩

end ChallengeForge
