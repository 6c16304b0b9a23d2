import ChallengeForge.EvaluationLifecycle

/-!
# The published runtime state shares a row with the scheduler

The singleton row holds the bypass bookkeeping of `claim_next`, the pressure and
concurrency that workers publish, and the interactive hint that the API publishes.  Its
three writers and one reader never meet in their columns.

* `runtime_state_registers` — whatever runs in between, `read_runtime_state` returns the
  last pressure and the last hint that were published;
* `publishing_transparent` — and publishing decides nothing: leaving every publication
  out of a run leaves the same evaluations and the same bypass bookkeeping.
-/

namespace ChallengeForge

open Keyed Labelled

/-- What `read_runtime_state` returns. -/
structure RuntimeState where
  pressureState : PressureState
  adaptiveMaxWorkers : Option Int
  interactiveP95Ms : Option Rat
  interactiveSampleCount : Nat
  poolWaitP95Ms : Option Rat
  deriving DecidableEq

/-- The columns of the scheduler row that are published. -/
def EvaluationSchedulerStateRow.published (state : EvaluationSchedulerStateRow) :
    RuntimeState where
  pressureState := state.pressureState
  adaptiveMaxWorkers := state.adaptiveMaxWorkers
  interactiveP95Ms := state.interactiveP95Ms
  interactiveSampleCount := state.interactiveSampleCount
  poolWaitP95Ms := state.poolWaitP95Ms

/-- The published columns, and defaults while there is no row. -/
def EvaluationDb.readRuntimeState (db : EvaluationDb) : RuntimeState :=
  match db.schedulerState with
  | none => ⟨.normal, none, none, 0, none⟩
  | some row => row.published

/-- What a transaction publishes over what was published. -/
def RuntimeState.publish (state : RuntimeState) : QueueAction → RuntimeState
  | .persistRuntimeState pressureState adaptiveMaxWorkers =>
      { state with
        pressureState := pressureState
        adaptiveMaxWorkers := some adaptiveMaxWorkers }
  | .persistInteractiveHint interactiveP95Ms sampleCount poolWaitP95Ms =>
      { state with
        interactiveP95Ms := interactiveP95Ms
        interactiveSampleCount := sampleCount.toNat
        poolWaitP95Ms := poolWaitP95Ms }
  | _ => state

/-- The transaction publishes, and does nothing else. -/
def QueueAction.publishes : QueueAction → Bool
  | .persistRuntimeState .. | .persistInteractiveHint .. => true
  | _ => false

namespace EvaluationDb

variable {db db' u : EvaluationDb}

/-- Without a row, the row that a writer would insert is read. -/
theorem readRuntimeState_eq (db : EvaluationDb) : db.readRuntimeState = db.scheduler.published := by
  unfold readRuntimeState scheduler
  cases db.schedulerState <;> rfl

@[simp] theorem published_unblocked (state : EvaluationSchedulerStateRow) :
    state.unblocked.published = state.published := rfl

@[simp] theorem published_bypassed (state : EvaluationSchedulerStateRow) :
    state.bypassed.published = state.published := rfl

@[simp] theorem published_blockedOn (state : EvaluationSchedulerStateRow) (id : UUID) :
    (state.blockedOn id).published = state.published := by
  unfold EvaluationSchedulerStateRow.blockedOn
  split <;> rfl

/-- A claim decides on the bypass columns alone. -/
theorem ClaimDecision.published {args : ClaimArgs} {row : EvaluationRow}
    {state : EvaluationSchedulerStateRow} (h : db.ClaimDecision args row state) :
    state.published = db.scheduler.published := by
  cases h with
  | oldest hslot hqueue hfree => simp
  | bypass hslot hqueue hblocked hpolicy hlimit hlight => simp

/-- A transaction publishes what it says and leaves the other columns. -/
theorem published_step {a : QueueAction} (h : db.transact a = some db') :
    db'.readRuntimeState = db.readRuntimeState.publish a := by
  simp only [readRuntimeState_eq]
  cases a with
  | createQueued id submissionId workload mode deadline stage now =>
      obtain ⟨-, row, evaluations, hnew, hinsert, rfl⟩ := createQueued_inserts h
      rfl
  | claimNext args now =>
      simp only [transact] at h
      split at h
      · rename_i x db'' hclaim
        cases h
        obtain ⟨row, state, hdec, rfl, rfl⟩ := claimTransaction_eq_some_iff.mp hclaim
        exact hdec.published
      · cases h
        rfl
  | complete id workerId now c =>
      cases h
      rw [complete_eq_apply]
      rfl
  | beginExecutionAttempt id workerId attempt =>
      cases h
      rfl
  | recoverStaleRunning staleBefore maxAttempts now os =>
      cases h
      rfl
  | persistRuntimeState pressure workers =>
      cases h
      rfl
  | persistInteractiveHint p95 samples poolWait =>
      cases h
      rfl

/-! ## What claims are decided on -/

/-- Two stores that differ at most in what is published. -/
structure SameScheduling (db u : EvaluationDb) : Prop where
  evaluations : db.evaluations = u.evaluations
  blockedHeavyId : db.scheduler.blockedHeavyId = u.scheduler.blockedHeavyId
  lightBypassCount : db.scheduler.lightBypassCount = u.scheduler.lightBypassCount

theorem SameScheduling.refl (db : EvaluationDb) : SameScheduling db db := ⟨rfl, rfl, rfl⟩

theorem SameScheduling.bypassesOf (h : SameScheduling db u) (id : UUID) :
    db.scheduler.bypassesOf id = u.scheduler.bypassesOf id := by
  simp only [EvaluationSchedulerStateRow.bypassesOf, h.blockedHeavyId, h.lightBypassCount]

theorem SameScheduling.queue (h : SameScheduling db u) : db.queue = u.queue := by
  unfold EvaluationDb.queue
  rw [h.evaluations]

/-- A scheduler row that differs from another at most in what is published. -/
def SameBypass (state state' : EvaluationSchedulerStateRow) : Prop :=
  state.blockedHeavyId = state'.blockedHeavyId ∧
    state.lightBypassCount = state'.lightBypassCount

/-- The same claim is decided, and leaves the same bookkeeping. -/
theorem SameScheduling.decision (h : SameScheduling db u) {args : ClaimArgs}
    {row : EvaluationRow} {state : EvaluationSchedulerStateRow}
    (hdec : db.ClaimDecision args row state) :
    ∃ state', u.ClaimDecision args row state' ∧ SameBypass state state' := by
  have hrunning : db.running = u.running := by
    unfold running
    rw [h.evaluations]
  have hheavy : db.runningHeavy = u.runningHeavy := by
    unfold runningHeavy
    rw [h.evaluations]
  cases hdec with
  | oldest hslot hqueue hfree =>
      refine ⟨_, .oldest (hrunning ▸ hslot) (h.queue ▸ hqueue) ?_, rfl, rfl⟩
      rwa [HeavyIsBlocked, ← hheavy]
  | @bypass oldest _ rest hslot hqueue hblocked hpolicy hlimit hlight =>
      refine ⟨_, .bypass (hrunning ▸ hslot) (h.queue ▸ hqueue) ?_ hpolicy ?_ hlight, ?_, ?_⟩
      · rwa [HeavyIsBlocked, ← hheavy]
      · rwa [← h.bypassesOf]
      · simp [EvaluationSchedulerStateRow.bypassed]
      · simp [EvaluationSchedulerStateRow.bypassed, h.bypassesOf]

theorem SameScheduling.symm (h : SameScheduling db u) : SameScheduling u db :=
  ⟨h.evaluations.symm, h.blockedHeavyId.symm, h.lightBypassCount.symm⟩

/-- **Step lemma.**  A transaction that publishes nothing does the same on both stores. -/
theorem SameScheduling.step (h : SameScheduling db u) {a : QueueAction}
    (hnot : a.publishes = false) (hstep : db.transact a = some db') :
    ∃ u', u.transact a = some u' ∧ SameScheduling db' u' := by
  have hbypass : SameBypass db.scheduler u.scheduler := ⟨h.blockedHeavyId, h.lightBypassCount⟩
  cases a with
  | createQueued id submissionId workload mode deadline stage now =>
      obtain ⟨-, row, evaluations, hnew, hinsert, rfl⟩ := createQueued_inserts hstep
      refine ⟨{ u with evaluations := evaluations }, ?_, rfl, hbypass.1, hbypass.2⟩
      simp only [transact, createQueued, ← h.evaluations] at hstep ⊢
      split at hstep
      · cases hstep
      · rename_i hfirst
        obtain ⟨added, hadded, heq⟩ := Option.map_eq_some_iff.mp hstep
        have hsame : added = evaluations := congrArg EvaluationDb.evaluations heq
        rw [if_neg hfirst, hadded, hsame]
        rfl
  | claimNext args now =>
      simp only [transact] at hstep ⊢
      split at hstep
      · rename_i x db'' hclaim
        cases hstep
        obtain ⟨row, state, hdec, rfl, rfl⟩ := claimTransaction_eq_some_iff.mp hclaim
        obtain ⟨state', hdec', hblocked, hcount⟩ := h.decision hdec
        rw [hdec'.claimTransaction now]
        refine ⟨_, rfl, ?_, hblocked, hcount⟩
        simp only [start, setScheduler, h.evaluations]
      · rename_i hnone
        cases hstep
        have hnone' : u.claimTransaction args now = none := by
          cases hclaim : u.claimTransaction args now with
          | none => rfl
          | some claim =>
              obtain ⟨row, state, hdec, -⟩ := claimTransaction_eq_some_iff.mp hclaim
              obtain ⟨state', hdec', -⟩ := h.symm.decision hdec
              rw [hdec'.claimTransaction now] at hnone
              cases hnone
        rw [hnone']
        exact ⟨u, rfl, h⟩
  | complete id workerId now c =>
      cases hstep
      refine ⟨_, rfl, ?_, ?_, ?_⟩
      · rw [complete_eq_apply, complete_eq_apply, updateOwned, updateOwned]
        simp only [h.evaluations]
      · rw [complete_eq_apply, complete_eq_apply]
        exact hbypass.1
      · rw [complete_eq_apply, complete_eq_apply]
        exact hbypass.2
  | beginExecutionAttempt id workerId attempt =>
      cases hstep
      refine ⟨_, rfl, ?_, hbypass.1, hbypass.2⟩
      simp only [beginExecutionAttempt, updateOwned, h.evaluations]
  | recoverStaleRunning staleBefore maxAttempts now os =>
      cases hstep
      refine ⟨_, rfl, ?_, hbypass.1, hbypass.2⟩
      simp only [recoverStaleRunning, h.evaluations]
  | persistRuntimeState pressure workers => cases hnot
  | persistInteractiveHint p95 samples poolWait => cases hnot

/-- Publishing changes what is published. -/
theorem SameScheduling.publish (h : SameScheduling db u) {a : QueueAction}
    (hpublishes : a.publishes = true) (hstep : db.transact a = some db') :
    SameScheduling db' u := by
  cases a with
  | persistRuntimeState pressure workers =>
      cases hstep
      exact ⟨h.evaluations, h.blockedHeavyId, h.lightBypassCount⟩
  | persistInteractiveHint p95 samples poolWait =>
      cases hstep
      exact ⟨h.evaluations, h.blockedHeavyId, h.lightBypassCount⟩
  | _ => cases hpublishes

end EvaluationDb

/-! ## Whole runs -/

theorem queue_run_cons {db : EvaluationDb} {a : QueueAction} {acts : List QueueAction} :
    evaluationQueue.run always db (a :: acts) =
      (db.transact a).bind (fun db' => evaluationQueue.run always db' acts) := by
  simp only [System.run, List.foldlM_cons, Option.bind_eq_bind]
  rw [if_pos (show always db a from trivial)]
  rfl

/-- **The published columns are registers.**  After any run of transactions, the runtime
state read is the one read before it with the run's own publications written over it, in
their order: claims, completions, recoveries and arrivals leave no trace in it. -/
theorem runtime_state_registers {db db' : EvaluationDb} {acts : List QueueAction}
    (h : evaluationQueue.run always db acts = some db') :
    db'.readRuntimeState = acts.foldl RuntimeState.publish db.readRuntimeState := by
  induction acts generalizing db with
  | nil =>
      obtain rfl : db = db' := by simpa [System.run] using h
      rfl
  | cons a rest ih =>
      rw [queue_run_cons] at h
      obtain ⟨u, hstep, hrest⟩ := Option.bind_eq_some_iff.mp h
      rw [List.foldl_cons, ← EvaluationDb.published_step hstep]
      exact ih hrest

/-- A run that publishes between its claims. -/
def publishedRun : List QueueAction :=
  [.persistRuntimeState .pressured 2, .createQueued 1 1 .heavy .legacy none 0 10,
   .persistInteractiveHint (some 120) 9 none, .claimNext (laptopClaim "worker-a") 11,
   .persistRuntimeState .normal 3]

/-- `runtime_state_registers` after `publishedRun`. -/
theorem runtime_state_registers_published :
    ∃ db', evaluationQueue.run always emptyEvaluationDb publishedRun = some db' ∧
      db'.readRuntimeState = publishedRun.foldl RuntimeState.publish
        emptyEvaluationDb.readRuntimeState ∧
      db'.readRuntimeState = ⟨.normal, some 3, some 120, 9, none⟩ := by
  obtain ⟨db', hrun⟩ : ∃ db', evaluationQueue.run always emptyEvaluationDb publishedRun =
      some db' := Option.isSome_iff_exists.mp (by decide)
  have hread := runtime_state_registers hrun
  exact ⟨db', hrun, hread, hread⟩

end ChallengeForge
