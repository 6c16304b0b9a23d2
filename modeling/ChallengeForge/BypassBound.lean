import ChallengeForge.EvaluationQueue

/-!
# How often a HEAVY evaluation is bypassed

The queue with a history: for every queued row, how many LIGHT rows behind it
were claimed since it joined the queue.  The history is written by the observer
only; the transactions are those of `EvaluationQueue`.

The durable bypass counter knows one row at a time.  It bounds the history of
that row, but it starts over whenever another row heads the queue, and a
requeued older row can do that while the bypassed HEAVY row still waits.

* `bypass_bound` — as long as no claim goes through while the counter of a
  waiting HEAVY row stands on another row's head position, the history of every
  waiting HEAVY row is at most the limit;
* `bypass_bound_fails` — without that condition it is not.
-/

namespace ChallengeForge

open Keyed Labelled

/-- The store, and the bypasses each queued row has suffered in its stay. -/
structure BypassHistory where
  db : EvaluationDb
  bypasses : UUID → Nat

namespace EvaluationDb

/-- One more bypass when the transaction claims a LIGHT row behind `row`. -/
def bypassedBy (db : EvaluationDb) (a : QueueAction) (row : EvaluationRow) : Nat :=
  match db.claimedRow a with
  | some x => if x.workloadClass = .light ∧ row.comesBefore x then 1 else 0
  | none => 0

/-- The history after a transaction: kept for a row that stays QUEUED, zero for
a row that joins the queue. -/
def tally (db db' : EvaluationDb) (a : QueueAction) (bypasses : UUID → Nat) : UUID → Nat :=
  fun id =>
    match db.get id, db'.get id with
    | some row, some row' =>
      if row.status = .queued ∧ row'.status = .queued then
        bypasses id + db.bypassedBy a row
      else 0
    | _, _ => 0

/-- A claim goes through although the scheduler row holds a positive count for
a queued row that is not the oldest. -/
def LosesCount (db : EvaluationDb) (args : ClaimArgs) : Prop :=
  db.CanClaim args ∧ 0 < db.scheduler.lightBypassCount ∧
    ∃ row ∈ db.queue.tail, db.scheduler.blockedHeavyId = some row.id

instance (db : EvaluationDb) (args : ClaimArgs) : Decidable (db.LosesCount args) :=
  inferInstanceAs (Decidable (_ ∧ _))

theorem tally_of_stays {db db' : EvaluationDb} {a : QueueAction} {bypasses : UUID → Nat}
    {row : EvaluationRow} (hrow : row ∈ db.evaluations) (hrow' : row ∈ db'.evaluations)
    (hqueued : row.status = .queued) :
    db.tally db' a bypasses row.id = bypasses row.id + db.bypassedBy a row := by
  simp [tally, get, Table.find?_of_mem hrow, Table.find?_of_mem hrow', hqueued]

/-- Only a row that was QUEUED before has a history. -/
theorem queued_of_tally_pos {db db' : EvaluationDb} {a : QueueAction}
    {bypasses : UUID → Nat} {id : UUID} (h : 0 < db.tally db' a bypasses id) :
    ∃ row ∈ db.evaluations, row.id = id ∧ row.status = .queued := by
  unfold tally at h
  split at h
  · rename_i row row' hget hget'
    split at h
    · rename_i hboth
      exact ⟨row, Table.mem_of_find? hget, Table.key_of_find? hget, hboth.1⟩
    · omega
  · omega

theorem bypassedBy_of_none {db : EvaluationDb} {a : QueueAction} {row : EvaluationRow}
    (h : db.claimedRow a = none) : db.bypassedBy a row = 0 := by
  simp [bypassedBy, h]

theorem bypassedBy_of_not_before {db : EvaluationDb} {a : QueueAction}
    {row x : EvaluationRow} (h : db.claimedRow a = some x) (hbefore : ¬ row.comesBefore x) :
    db.bypassedBy a row = 0 := by
  simp [bypassedBy, h, hbefore]

theorem bypassedBy_le_one (db : EvaluationDb) (a : QueueAction) (row : EvaluationRow) :
    db.bypassedBy a row ≤ 1 := by
  unfold bypassedBy
  split
  · split <;> omega
  · omega

/-- A queued row other than the head is in the tail of the queue. -/
theorem mem_queue_tail {db : EvaluationDb} {x row : EvaluationRow}
    {rest : List EvaluationRow} (h : db.queue = x :: rest) (hrow : row ∈ db.evaluations)
    (hqueued : row.status = .queued) (hne : row ≠ x) : row ∈ db.queue.tail := by
  have hmem : row ∈ x :: rest := h ▸ mem_queue.mpr ⟨hrow, hqueued⟩
  simpa [h] using (List.mem_cons.mp hmem).resolve_left hne

/-- After a claim starts `x`, the queued rows are the old ones but `x`. -/
theorem queued_after_start {db : EvaluationDb} {x row : EvaluationRow} {workerId : String}
    {now : Timestamp}
    (hrow : row ∈ (db.start x workerId now).evaluations) (hqueued : row.status = .queued) :
    row ∈ db.evaluations ∧ row ≠ x := by
  obtain ⟨old, hold, heq⟩ :=
    (Table.mem_update (EvaluationRow.startRunning_id workerId now)).mp hrow
  by_cases hkey : old.id = x.id
  · simp only [hkey, decide_true, if_true] at heq
    subst heq
    cases hqueued
  · obtain rfl : old = row := by simpa [hkey] using heq
    exact ⟨hold, fun heq => hkey (by rw [heq])⟩

end EvaluationDb

/-- The queue with its bypass history. -/
def bypassHistory : System BypassHistory QueueAction where
  start s := s.db.evaluations.rows = [] ∧ ∀ id, s.bypasses id = 0
  step s a := (s.db.transact a).map (fun db' =>
    { db := db', bypasses := s.db.tally db' a s.bypasses })

/-- Every claim runs under `bounded_light_bypass` with limit `L`. -/
def underLimit (L : Nat) : Condition BypassHistory QueueAction
  | _, .claimNext args _ =>
      args.schedulingPolicy = .boundedLightBypass ∧ args.lightBypassLimit = L
  | _, _ => True

/-- … and none goes through at the expense of a waiting row's count. -/
def keepsCount (L : Nat) : Condition BypassHistory QueueAction
  | s, .claimNext args now => underLimit L s (.claimNext args now) ∧ ¬ s.db.LosesCount args
  | _, _ => True

instance (L : Nat) (s : BypassHistory) (a : QueueAction) : Decidable (underLimit L s a) :=
  match a with
  | .claimNext .. => inferInstanceAs (Decidable (_ ∧ _))
  | .createQueued .. | .complete .. | .beginExecutionAttempt ..
  | .recoverStaleRunning .. | .persistRuntimeState .. | .persistInteractiveHint .. => isTrue trivial

instance (L : Nat) (s : BypassHistory) (a : QueueAction) : Decidable (keepsCount L s a) :=
  match a with
  | .claimNext .. => inferInstanceAs (Decidable (_ ∧ _))
  | .createQueued .. | .complete .. | .beginExecutionAttempt ..
  | .recoverStaleRunning .. | .persistRuntimeState .. | .persistInteractiveHint .. => isTrue trivial

/-- The scheduler row accounts for the history of every waiting HEAVY row. -/
def Accounted (L : Nat) (s : BypassHistory) : Prop :=
  ∀ row ∈ s.db.evaluations, row.status = .queued → row.workloadClass = .heavy →
    0 < s.bypasses row.id →
      s.db.scheduler.blockedHeavyId = some row.id ∧
      s.bypasses row.id ≤ s.db.scheduler.lightBypassCount ∧
      s.db.scheduler.lightBypassCount ≤ L

/-- The history of the head never exceeds what the counter says of it. -/
theorem Accounted.le_bypassesOf {L : Nat} {s : BypassHistory} (h : Accounted L s)
    {row : EvaluationRow} (hrow : row ∈ s.db.evaluations) (hqueued : row.status = .queued)
    (hheavy : row.workloadClass = .heavy) :
    s.bypasses row.id ≤ s.db.scheduler.bypassesOf row.id := by
  by_cases hpos : 0 < s.bypasses row.id
  · obtain ⟨hblocked, hle, -⟩ := h row hrow hqueued hheavy hpos
    simpa [EvaluationSchedulerStateRow.bypassesOf, hblocked] using hle
  · omega

/-- Under the condition, a claim that goes through finds no history on a waiting
HEAVY row behind the head. -/
theorem Accounted.behind_head {L : Nat} {s : BypassHistory} (h : Accounted L s)
    {args : ClaimArgs} (hcan : s.db.CanClaim args) (hkeep : ¬ s.db.LosesCount args)
    {row x : EvaluationRow} {rest : List EvaluationRow} (hqueue : s.db.queue = x :: rest)
    (hrow : row ∈ s.db.evaluations) (hqueued : row.status = .queued)
    (hheavy : row.workloadClass = .heavy) (hne : row ≠ x) : s.bypasses row.id = 0 := by
  by_contra hpos
  obtain ⟨hblocked, hle, -⟩ := h row hrow hqueued hheavy (Nat.pos_of_ne_zero hpos)
  exact hkeep ⟨hcan, by omega, row,
    EvaluationDb.mem_queue_tail hqueue hrow hqueued hne, hblocked⟩

/-- A claim that goes through keeps the account. -/
theorem Accounted.claim {L : Nat} {s : BypassHistory} (h : Accounted L s)
    {args : ClaimArgs} {now : Timestamp} {x : EvaluationRow}
    {state : EvaluationSchedulerStateRow} (hdec : s.db.ClaimDecision args x state)
    (hclaimed : s.db.claimedRow (.claimNext args now) = some x)
    (hlimit : args.lightBypassLimit = L) (hkeep : ¬ s.db.LosesCount args) :
    let db' := (s.db.setScheduler state).start x args.workerId now
    Accounted L ⟨db', s.db.tally db' (.claimNext args now) s.bypasses⟩ := by
  intro db' row hrow' hqueued hheavy hpos
  dsimp only at hpos ⊢
  have hcan : s.db.CanClaim args := EvaluationDb.canClaim_iff.mpr ⟨x, state, hdec⟩
  obtain ⟨hrow, hne⟩ : row ∈ s.db.evaluations ∧ row ≠ x :=
    EvaluationDb.queued_after_start hrow' hqueued
  rw [EvaluationDb.tally_of_stays hrow hrow' hqueued] at hpos ⊢
  cases hdec with
  | oldest hslot hqueue hfree =>
      -- the head itself is claimed, so nothing is bypassed
      have hbypass := EvaluationDb.bypassedBy_of_not_before hclaimed
        (EvaluationDb.comesBefore_asymm (EvaluationDb.queue_first hqueue hrow hqueued hne))
      have hzero := h.behind_head hcan hkeep hqueue hrow hqueued hheavy hne
      omega
  | @bypass oldest _ rest hslot hqueue hblocked hpolicy hroom hlight =>
      by_cases hhead : row = oldest
      · subst hhead
        have hone := s.db.bypassedBy_le_one (.claimNext args now) row
        have hle := h.le_bypassesOf hrow hqueued hheavy
        have hcount : (s.db.scheduler.bypassesOf row.id : Int) < L := by
          unfold ClaimArgs.bypassLimit at hroom
          omega
        have hblockedId : db'.scheduler.blockedHeavyId = some row.id :=
          EvaluationSchedulerStateRow.blockedOn_blockedHeavyId _ _
        have hbumped : db'.scheduler.lightBypassCount =
            s.db.scheduler.bypassesOf row.id + 1 :=
          congrArg (· + 1) (EvaluationSchedulerStateRow.blockedOn_lightBypassCount _ _)
        exact ⟨hblockedId, by omega, by omega⟩
      · -- the claimed row is second, so it comes before every other waiting row
        have hbypass := EvaluationDb.bypassedBy_of_not_before hclaimed
          (EvaluationDb.comesBefore_asymm
            (EvaluationDb.queue_second hqueue hrow hqueued hhead hne))
        have hzero := h.behind_head hcan hkeep hqueue hrow hqueued hheavy hhead
        omega

/-- **Step lemma.**  Every step that keeps the count keeps the account. -/
theorem Accounted.step {L : Nat} {s t : BypassHistory} {a : QueueAction}
    (h : Accounted L s) (hok : keepsCount L s a) (hstep : bypassHistory.step s a = some t) :
    Accounted L t := by
  obtain ⟨db', htransact, rfl⟩ := Option.map_eq_some_iff.mp hstep
  cases EvaluationDb.transact_effect htransact with
  | claim hdec hclaimed => exact h.claim hdec hclaimed hok.1.2 hok.2
  | @arrival _ new evaluations hno hqueuedNew hfresh hinsert =>
      intro row hrow' hqueued hheavy hpos
      dsimp only at hrow' hpos ⊢
      obtain ⟨old, hold, hid, holdq⟩ := EvaluationDb.queued_of_tally_pos hpos
      have hmem : old ∈ evaluations := (Table.mem_of_insert hinsert).mpr (Or.inl hold)
      obtain rfl : old = row := Table.eq_of_key_eq hmem hrow' hid
      rw [EvaluationDb.tally_of_stays hold hmem holdq,
        EvaluationDb.bypassedBy_of_none hno] at hpos ⊢
      exact h old hold hqueued hheavy hpos
  | @rewrite _ p f _ hno hf hrows hblocked hcount =>
      intro row hrow' hqueued hheavy hpos
      dsimp only at hrow' hpos ⊢
      obtain ⟨old, hold, hid, holdq⟩ := EvaluationDb.queued_of_tally_pos hpos
      have hmiss : p old = false := by
        by_contra hhit
        have hrunning := hf.running old (by simpa using hhit)
        rw [holdq] at hrunning
        cases hrunning
      have hmem : old ∈ db'.evaluations := by
        rw [hrows]
        exact (Table.mem_update hf.id).mpr ⟨old, hold, by simp [hmiss]⟩
      obtain rfl : old = row := Table.eq_of_key_eq hmem hrow' hid
      rw [EvaluationDb.tally_of_stays hold hmem holdq,
        EvaluationDb.bypassedBy_of_none hno] at hpos ⊢
      rw [hblocked, hcount]
      exact h old hold hqueued hheavy hpos

/-- **The bypass bound.**  In every run in which no claim goes through while the
scheduler row counts bypasses of a queued row that is no longer the oldest, a
HEAVY evaluation is bypassed at most `L` times during one stay in the queue. -/
theorem bypass_bound {L : Nat} {s : BypassHistory}
    (h : bypassHistory.Reach (keepsCount L) s) {row : EvaluationRow}
    (hrow : row ∈ s.db.evaluations) (hqueued : row.status = .queued)
    (hheavy : row.workloadClass = .heavy) : s.bypasses row.id ≤ L := by
  have haccounted : Accounted L s := by
    refine h.invariant ?_ (fun s a t hs hok hstep => hs.step hok hstep)
    intro s hstart row hrow
    exact absurd hrow (by simp [Table.mem_iff, hstart.1])
  by_cases hpos : 0 < s.bypasses row.id
  · obtain ⟨-, hle, hcount⟩ := haccounted row hrow hqueued hheavy hpos
    omega
  · omega

/-- `bypass_bound` at the start of `heavyHeadRun`'s continuation: after one
bypass the waiting HEAVY row has a history of one, within the limit of two. -/
theorem bypass_bound_heavy_head :
    ∃ s, bypassHistory.Reach (keepsCount 2) s ∧
      ∃ row ∈ s.db.evaluations, row.status = .queued ∧ row.workloadClass = .heavy ∧
        s.bypasses row.id = 1 ∧ s.bypasses row.id ≤ 2 := by
  obtain ⟨s, hreach, htest⟩ : ∃ s, bypassHistory.Reach (keepsCount 2) s ∧
      s.db.evaluations.rows.any (fun row => row.status = .queued ∧
        row.workloadClass = .heavy ∧ s.bypasses row.id = 1) = true :=
    System.reach_of_test ⟨emptyEvaluationDb, fun _ => 0⟩
      (heavyHeadRun ++ [.claimNext (laptopClaim "worker-b") 14]) _
      ⟨rfl, fun _ => rfl⟩ (by decide)
  obtain ⟨row, hrow, hq⟩ := List.any_eq_true.mp htest
  obtain ⟨hqueued, hheavy, hone⟩ := of_decide_eq_true hq
  exact ⟨s, hreach, row, hrow, hqueued, hheavy, hone,
    bypass_bound hreach hrow hqueued hheavy⟩

/-- A claim of the failing run: eight workers, one HEAVY slot, two bypasses. -/
def wideClaim (workerId : String) : ClaimArgs where
  workerId := workerId
  schedulingPolicy := .boundedLightBypass
  maxWorkers := 8
  maxConcurrentHeavy := 1
  lightBypassLimit := 2

/-- A LIGHT row 1 and a HEAVY row 2 run, HEAVY row 3 waits with LIGHT rows 4 to
6 behind it.  After the two bypasses row 1 is found stale and requeued in front
of row 3; claiming it resets the count, and row 6 bypasses row 3 once more. -/
def requeueResetRun : List QueueAction :=
  [.createQueued 1 1 .light .legacy none 0 1,
   .claimNext (wideClaim "worker-a") 2,
   .createQueued 2 2 .heavy .legacy none 0 20,
   .claimNext (wideClaim "worker-b") 21,
   .createQueued 3 3 .heavy .legacy none 0 22,
   .createQueued 4 4 .light .legacy none 0 23,
   .createQueued 5 5 .light .legacy none 0 24,
   .createQueued 6 6 .light .legacy none 0 25,
   .claimNext (wideClaim "worker-c") 26,
   .claimNext (wideClaim "worker-d") 27,
   .claimNext (wideClaim "worker-e") 28,
   .recoverStaleRunning 10 3 40 (fun _ => idleOs),
   .claimNext (wideClaim "worker-e") 41,
   .claimNext (wideClaim "worker-f") 42]

/-- **The bound fails.**  A HEAVY row waiting under a limit of two is bypassed
three times in one stay. -/
theorem bypass_bound_fails :
    ∃ s, bypassHistory.Reach (underLimit 2) s ∧
      ∃ row ∈ s.db.evaluations, row.status = .queued ∧ row.workloadClass = .heavy ∧
        s.bypasses row.id = 3 := by
  obtain ⟨s, hreach, htest⟩ : ∃ s, bypassHistory.Reach (underLimit 2) s ∧
      s.db.evaluations.rows.any (fun row => row.status = .queued ∧
        row.workloadClass = .heavy ∧ s.bypasses row.id = 3) = true :=
    System.reach_of_test ⟨emptyEvaluationDb, fun _ => 0⟩ requeueResetRun _
      ⟨rfl, fun _ => rfl⟩ (by decide)
  obtain ⟨row, hrow, hq⟩ := List.any_eq_true.mp htest
  obtain ⟨hqueued, hheavy, hthree⟩ := of_decide_eq_true hq
  exact ⟨s, hreach, row, hrow, hqueued, hheavy, hthree⟩

end ChallengeForge
