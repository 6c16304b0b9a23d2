import ChallengeForge.BypassBound
import ChallengeForge.TableCounting

/-!
# The place in the queue

`queuePosition` is the number of QUEUED rows ahead in FIFO order, which the
participant's view calls the estimated number of jobs ahead; `listQueuedFifo` is
the queue itself, up to a limit.  The count is the place in that list
(`queuePosition_eq_some_iff`), and a claim goes to place zero, or, past a blocked
HEAVY head, to a LIGHT row at place one (`ClaimDecision.position`).

The history system writes down, for each row's stay in the queue, the place at
which it joined, the claims of rows ahead of it, and the rows that joined ahead
of it (an arrival with an older clock, a retry, a deferral, a recovery).

In every run the estimate is exact (`wait_accounted`): the place of a waiting row is
the place at which it joined, less the claims ahead, plus the late joiners; and when a
row is claimed, all that was ever ahead of it has been claimed, but for at most one row.
-/

namespace ChallengeForge

open Keyed Labelled

/-- The `WHERE` of `queue_position`: QUEUED, and `(created_at, id)` is smaller. -/
def EvaluationRow.isAheadOf (row other : EvaluationRow) : Bool :=
  other.isQueued && decide (other.comesBefore row)

namespace EvaluationDb

/-- Point-in-time count of queued jobs ahead in default FIFO order. -/
def queuePosition (db : EvaluationDb) (id : UUID) : Option Nat :=
  match db.get id with
  | none => none
  | some row =>
    if row.status ≠ .queued then none else some (db.evaluations.count row.isAheadOf)

/-- `SELECT … WHERE status = 'queued' ORDER BY created_at, id LIMIT limit`. -/
def listQueuedFifo (db : EvaluationDb) (limit : Nat) : List EvaluationRow :=
  db.queue.take limit

variable {db db' : EvaluationDb}

/-- A position is reported for the queued rows, and is the count of those ahead. -/
theorem queuePosition_spec {id : UUID} {n : Nat} :
    db.queuePosition id = some n ↔ ∃ row ∈ db.evaluations, row.id = id ∧
      row.status = .queued ∧ db.evaluations.count row.isAheadOf = n := by
  unfold queuePosition
  constructor
  · intro h
    split at h
    · cases h
    · rename_i row hget
      split at h
      · cases h
      · rename_i hqueued
        exact ⟨row, Table.mem_of_find? hget, Table.key_of_find? hget, by simpa using hqueued,
          by simpa using h⟩
  · intro h
    obtain ⟨row, hrow, rfl, hqueued, hcount⟩ := h
    have hget : db.get row.id = some row := Table.find?_of_mem hrow
    simp [hget, hqueued, hcount]

theorem queuePosition_of_mem {row : EvaluationRow} (hrow : row ∈ db.evaluations)
    (hqueued : row.status = .queued) :
    db.queuePosition row.id = some (db.evaluations.count row.isAheadOf) :=
  queuePosition_spec.mpr ⟨row, hrow, rfl, hqueued, rfl⟩

theorem not_comesBefore_self (row : EvaluationRow) : ¬ row.comesBefore row :=
  fun h => comesBefore_asymm h h

/-- The row at place `n` of the queue has exactly `n` rows ahead of it. -/
theorem count_isAheadOf_queue {n : Nat} {row : EvaluationRow} (h : db.queue[n]? = some row) :
    db.evaluations.count row.isAheadOf = n :=
  Table.rank_of_getElem? EvaluationRow.comesBefore
    (fun _ _ hab => comesBefore_asymm hab) (fun _ _ hle hne => hle.comesBefore hne) h

/-- A queued row stands at the place its count names. -/
theorem queue_getElem?_of_queued {row : EvaluationRow} (hrow : row ∈ db.evaluations)
    (hqueued : row.status = .queued) :
    db.queue[db.evaluations.count row.isAheadOf]? = some row := by
  obtain ⟨n, hn⟩ := List.mem_iff_getElem?.mp (mem_queue.mpr ⟨hrow, hqueued⟩)
  rwa [count_isAheadOf_queue hn]

/-- A decision goes to the head, or to a LIGHT row right behind a blocked HEAVY
head under the bounded policy. -/
theorem ClaimDecision.position {args : ClaimArgs} {row : EvaluationRow}
    {state : EvaluationSchedulerStateRow} (h : db.ClaimDecision args row state) :
    db.evaluations.count row.isAheadOf = 0 ∨
    db.evaluations.count row.isAheadOf = 1 ∧ row.workloadClass = .light ∧
      args.boundedPolicy = true := by
  cases h with
  | oldest hslot hqueue hfree =>
      exact Or.inl (count_isAheadOf_queue (by simp [hqueue]))
  | bypass hslot hqueue hblocked hpolicy hlimit hlight =>
      exact Or.inr ⟨count_isAheadOf_queue (by simp [hqueue]), hlight, hpolicy⟩

/-! ## What one transaction does to the places -/

/-- One when the transaction claims a row ahead of the given one. -/
def claimsAhead (db : EvaluationDb) (a : QueueAction) (row : EvaluationRow) : Nat :=
  match db.claimedRow a with
  | some x => if x.comesBefore row then 1 else 0
  | none => 0

/-- The row was QUEUED in the store given. -/
def wasQueued (db : EvaluationDb) (row : EvaluationRow) : Bool :=
  (db.get row.id).any EvaluationRow.isQueued

/-- The rows ahead that the transaction put into the queue. -/
def joinsAhead (db db' : EvaluationDb) (row : EvaluationRow) : Nat :=
  db'.evaluations.count (fun r => row.isAheadOf r && !db.wasQueued r)

theorem wasQueued_of_mem {row : EvaluationRow} (hrow : row ∈ db.evaluations) :
    db.wasQueued row = row.isQueued := by
  have hget : db.get row.id = some row := Table.find?_of_mem hrow
  simp [wasQueued, hget]

/-- Queued rows are not rewritten: one that is QUEUED before and after a
transaction is the same row. -/
theorem queued_kept {a : QueueAction} (h : db.transact a = some db')
    {row row' : EvaluationRow} (hrow : row ∈ db.evaluations) (hqueued : row.status = .queued)
    (hrow' : row' ∈ db'.evaluations) (hqueued' : row'.status = .queued)
    (hid : row'.id = row.id) : row' = row := by
  cases transact_effect h with
  | arrival hno hnew hfresh hinsert =>
      exact Table.eq_of_key_eq hrow' ((Table.mem_of_insert hinsert).mpr (Or.inl hrow)) hid
  | claim hdec hclaimed =>
      obtain ⟨hold, -⟩ := queued_after_start hrow' hqueued'
      exact Table.eq_of_key_eq hold hrow hid
  | rewrite hno hf hrows hblocked hcount =>
      rw [hrows] at hrow'
      obtain ⟨old, hold, heq⟩ := (Table.mem_update hf.id).mp hrow'
      have hsame : old = row := by
        apply Table.eq_of_key_eq hold hrow
        rw [← hid, ← heq]
        split
        · exact (hf.id old).symm
        · rfl
      subst hsame
      rw [← heq, if_neg]
      intro hhit
      have hrunning := hf.running old hhit
      rw [hqueued] at hrunning
      cases hrunning

/-- The rows ahead that waited before a transaction and wait after it. -/
def staysAhead (db db' : EvaluationDb) (row : EvaluationRow) : Nat :=
  db'.evaluations.count (fun r => row.isAheadOf r && db.wasQueued r)

/-- Those ahead afterwards stayed or joined. -/
theorem count_isAheadOf_after (db db' : EvaluationDb) (row : EvaluationRow) :
    db'.evaluations.count row.isAheadOf = db.staysAhead db' row + db.joinsAhead db' row := by
  apply Table.count_eq_add
  · intro r _
    cases row.isAheadOf r <;> cases db.wasQueued r <;> rfl
  · grind

/-- Being ahead and QUEUED already is being ahead, for a row that is there. -/
theorem isAheadOf_and_wasQueued {r : EvaluationRow} (hr : r ∈ db.evaluations)
    (row : EvaluationRow) : (row.isAheadOf r && db.wasQueued r) = row.isAheadOf r := by
  rw [wasQueued_of_mem hr, EvaluationRow.isAheadOf]
  cases r.isQueued <;> simp

/-- An arrival pushes nobody out. -/
theorem staysAhead_arrival {new row : EvaluationRow}
    {evaluations : Table EvaluationRow EvaluationRow.id}
    (hinsert : db.evaluations.insert new = some evaluations) :
    db.staysAhead { db with evaluations := evaluations } row =
      db.evaluations.count row.isAheadOf := by
  have hnone : db.get new.id = none := (Table.insert_eq_some_iff.mp hinsert).1
  unfold staysAhead
  rw [Table.count_of_insert hinsert]
  simp only [wasQueued, hnone, Option.any_none, Bool.and_false, Bool.false_eq_true, if_false,
    Nat.add_zero]
  apply Table.count_congr
  intro r hr
  exact isAheadOf_and_wasQueued hr row

/-- A claim takes one row out of the queue, the row it decided on. -/
theorem staysAhead_claim {x row : EvaluationRow} (hx : x ∈ db.evaluations)
    (hxqueued : x.status = .queued) (state : EvaluationSchedulerStateRow) (workerId : String)
    (now : Timestamp) :
    db.staysAhead ((db.setScheduler state).start x workerId now) row +
      (if x.comesBefore row then 1 else 0) = db.evaluations.count row.isAheadOf := by
  have hleft : db.staysAhead ((db.setScheduler state).start x workerId now) row =
      db.evaluations.count (fun r => row.isAheadOf r && !decide (r.id = x.id)) := by
    unfold staysAhead start
    rw [Table.count_update]
    apply Table.count_congr
    intro r hr
    by_cases hk : r.id = x.id
    · simp [hk, EvaluationRow.isAheadOf, EvaluationRow.isQueued, EvaluationRow.startRunning]
    · have hsame : (row.isAheadOf r && db.wasQueued r) = row.isAheadOf r :=
        isAheadOf_and_wasQueued hr row
      simpa [hk] using hsame
  rw [hleft]
  by_cases hahead : x.comesBefore row
  · have hp : row.isAheadOf x = true := by
      simp [EvaluationRow.isAheadOf, hxqueued, hahead]
    rw [if_pos hahead, Table.count_eq_without hx hp]
  · rw [if_neg hahead, Nat.add_zero]
    apply Table.count_congr
    intro r hr
    by_cases hk : r.id = x.id
    · obtain rfl : r = x := Table.eq_of_key_eq hr hx hk
      simp [EvaluationRow.isAheadOf, hahead]
    · simp [hk]

/-- Rewriting RUNNING rows takes nobody out of the queue. -/
theorem staysAhead_rewrite {p : EvaluationRow → Bool} {f : EvaluationRow → EvaluationRow}
    (hf : RunningRewrite p f) (hrows : db'.evaluations = db.evaluations.update p f hf.id)
    (row : EvaluationRow) :
    db.staysAhead db' row = db.evaluations.count row.isAheadOf := by
  unfold staysAhead
  rw [hrows, Table.count_update]
  apply Table.count_congr
  intro r hr
  by_cases hp : p r = true
  · -- a row that joins now was RUNNING, so it is counted on neither side
    have hrunning := hf.running r hp
    have hwas : db.wasQueued (f r) = false := by
      rw [wasQueued, hf.id, ← wasQueued, wasQueued_of_mem hr]
      simp [EvaluationRow.isQueued, hrunning]
    simp [hp, hwas, EvaluationRow.isAheadOf, EvaluationRow.isQueued, hrunning]
  · have hsame := isAheadOf_and_wasQueued hr row
    simpa [hp] using hsame

/-- **Step lemma.**  A transaction moves a waiting row up by the claims ahead of it
and back by the rows that joined ahead. -/
theorem position_step {a : QueueAction} (h : db.transact a = some db') (row : EvaluationRow) :
    db'.evaluations.count row.isAheadOf + db.claimsAhead a row =
      db.evaluations.count row.isAheadOf + db.joinsAhead db' row := by
  have hstayed : db.staysAhead db' row + db.claimsAhead a row =
      db.evaluations.count row.isAheadOf := by
    cases transact_effect h with
    | arrival hno hnew hfresh hinsert =>
        simp [claimsAhead, hno, staysAhead_arrival hinsert]
    | @claim args now x state hdec hclaimed =>
        obtain ⟨hx, hxqueued⟩ := hdec.queued
        simpa [claimsAhead, hclaimed] using
          staysAhead_claim hx hxqueued state args.workerId now
    | rewrite hno hf hrows hblocked hcount =>
        simp [claimsAhead, hno, staysAhead_rewrite hf hrows row]
  have hafter := count_isAheadOf_after db db' row
  omega

/-- A job created later than all that wait joins at the back. -/
theorem position_of_createQueued {id submissionId : UUID} {workloadClass : WorkloadClass}
    {evaluationMode : EvaluationMode} {deadlineAt : Option Timestamp} {currentStage : Nat}
    {now : Timestamp}
    (h : db.createQueued id submissionId workloadClass evaluationMode deadlineAt currentStage
      now = some db')
    (hlast : ∀ r ∈ db.evaluations, r.status = .queued → r.createdAt < now) :
    db'.queuePosition id = some db.queued := by
  unfold createQueued at h
  split at h
  · cases h
  · obtain ⟨evaluations, hinsert, rfl⟩ := Option.map_eq_some_iff.mp h
    have hmem := (Table.mem_of_insert hinsert).mpr (Or.inr rfl)
    have hposition : ({ db with evaluations := evaluations } : EvaluationDb).queuePosition _ =
        some _ := queuePosition_of_mem hmem rfl
    rw [hposition, Option.some_inj, Table.count_of_insert hinsert]
    simp only [EvaluationRow.isAheadOf, not_comesBefore_self, decide_false, Bool.and_false,
      Bool.false_eq_true, if_false, Nat.add_zero]
    apply Table.count_congr
    intro r hr
    by_cases hqueued : r.status = .queued
    · simp [EvaluationRow.isAheadOf, EvaluationRow.isQueued, EvaluationRow.comesBefore, hqueued,
        hlast r hr hqueued]
    · simp [EvaluationRow.isAheadOf, EvaluationRow.isQueued, hqueued]

end EvaluationDb

/-! ## The history of a wait -/

/-- The store, and for each row's present stay in the queue the place at which it
joined, the claims of rows ahead of it, and the rows that joined ahead of it. -/
structure WaitHistory where
  db : EvaluationDb
  entered : UUID → Nat
  claimedAhead : UUID → Nat
  joinedAhead : UUID → Nat

namespace WaitHistory

/-- The row waits before and after the transaction. -/
def stays (db db' : EvaluationDb) (id : UUID) : Bool :=
  (db.queuePosition id).isSome && (db'.queuePosition id).isSome

/-- The history after a transaction: carried on for a row that stays in the queue,
started afresh for one that joins it. -/
def observe (s : WaitHistory) (a : QueueAction) (db' : EvaluationDb) : WaitHistory where
  db := db'
  entered id := if stays s.db db' id then s.entered id else (db'.queuePosition id).getD 0
  claimedAhead id :=
    if stays s.db db' id then
      s.claimedAhead id + ((s.db.get id).map (s.db.claimsAhead a)).getD 0
    else 0
  joinedAhead id :=
    if stays s.db db' id then
      s.joinedAhead id + ((s.db.get id).map (s.db.joinsAhead db')).getD 0
    else 0

/-- The place of every waiting row is accounted for. -/
def Accounted (s : WaitHistory) : Prop :=
  ∀ id n, s.db.queuePosition id = some n →
    n + s.claimedAhead id = s.entered id + s.joinedAhead id

end WaitHistory

/-- The queue with the history of every wait. -/
def waitHistory : System WaitHistory QueueAction where
  start s := s.db.evaluations.rows = []
  step s a := (s.db.transact a).map (fun db' => s.observe a db')

/-- A transaction keeps the account. -/
theorem WaitHistory.Accounted.step {s t : WaitHistory} {a : QueueAction} (h : s.Accounted)
    (hstep : waitHistory.step s a = some t) : t.Accounted := by
  obtain ⟨db', htransact, rfl⟩ := Option.map_eq_some_iff.mp hstep
  intro id n hn
  change db'.queuePosition id = some n at hn
  cases hbefore : s.db.queuePosition id with
  | none =>
      -- the row joins the queue: its history starts at this place
      simp [observe, stays, hbefore, hn]
  | some m =>
      obtain ⟨row, hrow, rfl, hqueued, hm⟩ := EvaluationDb.queuePosition_spec.mp hbefore
      obtain ⟨row', hrow', hid, hqueued', hn'⟩ := EvaluationDb.queuePosition_spec.mp hn
      obtain rfl : row' = row :=
        EvaluationDb.queued_kept htransact hrow hqueued hrow' hqueued' hid
      have hget : s.db.get row'.id = some row' := Table.find?_of_mem hrow
      have hlaw := EvaluationDb.position_step htransact row'
      have hcarried := h row'.id m hbefore
      simp only [observe, stays, hbefore, hn, hget, Option.isSome_some, Bool.and_self, if_true,
        Option.map_some, Option.getD_some]
      omega

theorem accounted_of_reach {s : WaitHistory} (h : waitHistory.Reach always s) :
    s.Accounted := by
  refine h.invariant ?_ (fun s a t hs _ hstep => hs.step hstep)
  intro s hempty id n hn
  obtain ⟨row, hrow, -⟩ := EvaluationDb.queuePosition_spec.mp hn
  exact absurd hrow (by simp [Table.mem_iff, show s.db.evaluations.rows = [] from hempty])

/-- Watching a wait changes nothing: every run of the queue has its history. -/
theorem history_of_reach {db : EvaluationDb} (h : evaluationQueue.Reach always db) :
    ∃ s, waitHistory.Reach always s ∧ s.db = db := by
  refine h.invariant (I := fun db => ∃ s, waitHistory.Reach always s ∧ s.db = db) ?_ ?_
  · intro db hempty
    exact ⟨⟨db, fun _ => 0, fun _ => 0, fun _ => 0⟩, System.Reach.of_start hempty, rfl⟩
  · intro db a db' hI _ hstep
    obtain ⟨s, hreach, rfl⟩ := hI
    have hstep : s.db.transact a = some db' := hstep
    have hnext : waitHistory.step s a = some (s.observe a db') := by
      simp [waitHistory, hstep]
    exact ⟨s.observe a db', hreach.snoc trivial hnext, rfl⟩

/-! ## The estimate told to participants -/

/-- **The estimate is a place.**  However many jobs are listed, a job has position `n`
within the limit exactly when it is entry `n` of the list. -/
theorem queuePosition_eq_some_iff {db : EvaluationDb} {id : UUID} {n limit : Nat} :
    (db.queuePosition id = some n ∧ n < limit) ↔
      ∃ row, (db.listQueuedFifo limit)[n]? = some row ∧ row.id = id := by
  have hlisted : ∀ row, (db.listQueuedFifo limit)[n]? = some row ↔
      n < limit ∧ db.queue[n]? = some row := by
    intro row
    rw [EvaluationDb.listQueuedFifo, List.getElem?_take]
    split
    · simp_all
    · simp_all
  rw [EvaluationDb.queuePosition_spec]
  constructor
  · intro h
    obtain ⟨⟨row, hrow, hid, hqueued, hcount⟩, hlimit⟩ := h
    have hplace := EvaluationDb.queue_getElem?_of_queued hrow hqueued
    rw [hcount] at hplace
    exact ⟨row, (hlisted row).mpr ⟨hlimit, hplace⟩, hid⟩
  · intro h
    obtain ⟨row, hrow, hid⟩ := h
    obtain ⟨hlimit, hplace⟩ := (hlisted row).mp hrow
    obtain ⟨hmem, hqueued⟩ := EvaluationDb.mem_queue.mp (List.mem_of_getElem? hplace)
    exact ⟨⟨row, hmem, hid, hqueued, EvaluationDb.count_isAheadOf_queue hplace⟩, hlimit⟩

/-- **Every wait is accounted for.**  In every run, the estimate of a waiting job is
the place at which it joined, less the jobs ahead of it that were claimed, plus those
that joined ahead of it; and when a job is claimed, all that was ever ahead of it has
been claimed, but for one blocked HEAVY head that a LIGHT job may pass under the
bounded policy. -/
theorem wait_accounted {s : WaitHistory} (h : waitHistory.Reach always s) :
    (∀ id n, s.db.queuePosition id = some n →
      n + s.claimedAhead id = s.entered id + s.joinedAhead id) ∧
    ∀ args now row' db', s.db.claimTransaction args now = some (row', db') →
      s.claimedAhead row'.id = s.entered row'.id + s.joinedAhead row'.id ∨
      s.claimedAhead row'.id + 1 = s.entered row'.id + s.joinedAhead row'.id ∧
        row'.workloadClass = .light ∧ args.boundedPolicy = true := by
  have haccounted := accounted_of_reach h
  refine ⟨haccounted, ?_⟩
  intro args now row' db' hclaim
  obtain ⟨row, state, hdec, rfl, -⟩ := EvaluationDb.claimTransaction_eq_some_iff.mp hclaim
  obtain ⟨hrow, hqueued⟩ := hdec.queued
  have hlaw := haccounted row.id _ (EvaluationDb.queuePosition_of_mem hrow hqueued)
  rw [EvaluationRow.startRunning_id]
  rcases hdec.position with hhead | ⟨hsecond, hlight, hpolicy⟩
  · left
    omega
  · right
    exact ⟨by omega, hlight, hpolicy⟩

/-- `wait_accounted` where a LIGHT job passes the blocked head of `heavyHeadRun`: it
joined at place one, and nothing ahead of it was claimed. -/
theorem wait_accounted_heavy_head :
    ∃ s row' db', waitHistory.Reach always s ∧
      s.db.claimTransaction (laptopClaim "worker-b") 14 = some (row', db') ∧
      s.entered row'.id = 1 ∧ s.claimedAhead row'.id = 0 ∧
      (s.claimedAhead row'.id = s.entered row'.id + s.joinedAhead row'.id ∨
        s.claimedAhead row'.id + 1 = s.entered row'.id + s.joinedAhead row'.id ∧
        row'.workloadClass = .light ∧ (laptopClaim "worker-b").boundedPolicy = true) := by
  obtain ⟨s, hreach, htest⟩ : ∃ s, waitHistory.Reach always s ∧
      (s.db.claimTransaction (laptopClaim "worker-b") 14).any (fun claim =>
        s.entered claim.1.id = 1 ∧ s.claimedAhead claim.1.id = 0) = true :=
    System.reach_of_test ⟨emptyEvaluationDb, fun _ => 0, fun _ => 0, fun _ => 0⟩ heavyHeadRun _
      (by rfl) (by decide)
  cases hclaim : s.db.claimTransaction (laptopClaim "worker-b") 14 with
  | none => simp [hclaim] at htest
  | some claim =>
      rw [hclaim] at htest
      obtain ⟨hentered, hclaimed⟩ := of_decide_eq_true htest
      exact ⟨s, claim.1, claim.2, hreach, hclaim, hentered, hclaimed,
        (wait_accounted hreach).2 _ _ _ _ hclaim⟩

end ChallengeForge
