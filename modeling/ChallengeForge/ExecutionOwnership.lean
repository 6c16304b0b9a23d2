import ChallengeForge.EvaluationFleet

/-!
# Live executions of an evaluation

The evaluation fleet in synthetic-execution mode on one host.  Between its
claim and its result a worker spawns an operating-system process and, in a
later transaction, records the process in the row; stale recovery contains the
recorded process before it requeues the row.

Two windows stay open: a worker does not look at the row again before it
spawns, and a process is alive before its pid is durable.

* `execution_exclusive` — in every run that stays out of both windows, no
  evaluation ever has two live processes;
* `execution_exclusive_fails` — in the second window it can.
-/

namespace ChallengeForge

open Keyed Labelled Claims

/-- A live execution process, and the claim it was spawned for. -/
structure LiveProcess (Process : Type) where
  pid : Int
  evaluation : UUID
  attempt : Nat
  worker : Process

/-- The fleet, what each worker has spawned in its current claim, and the
processes alive. -/
structure Host (Process : Type) where
  fleet : Fleet Process
  spawned : Process → Option ExecutionAttempt
  live : Table (LiveProcess Process) LiveProcess.pid

/-- What can happen on a host. -/
inductive HostAction (Process : Type)
  | createQueued (id submissionId : UUID) (workloadClass : WorkloadClass)
      (evaluationMode : EvaluationMode) (deadlineAt : Option Timestamp)
      (currentStage : Nat) (now : Timestamp)
  | claimNext (p : Process) (args : ClaimArgs) (now : Timestamp)
  | spawn (p : Process) (pid : Int) (attempt : ExecutionAttempt)
  | beginExecutionAttempt (p : Process)
  | exit (pid : Int)
  | complete (p : Process) (now : Timestamp) (c : Completion)
  | die (p : Process)
  | recoverStaleRunning (staleBefore : Timestamp) (maxAttempts : Int) (now : Timestamp)
      (os : UUID → OsView) (killed : List Int)

namespace Host

variable {Process : Type}

/-- Containment does its work: of the processes recorded in stale rows, each one
alive is killed or reported as surviving, and no other process is killed. -/
def Contains (s : Host Process) (staleBefore : Timestamp) (os : UUID → OsView)
    (killed : List Int) : Prop :=
  (∀ row ∈ s.fleet.db.evaluations, row.isStale staleBefore = true →
    ∀ x ∈ s.live, row.recordedPid = some x.pid →
      x.pid ∈ killed ∨ row.survivesContainment (os row.id) = true) ∧
  ∀ pid ∈ killed, ∃ row ∈ s.fleet.db.evaluations,
    row.isStale staleBefore = true ∧ row.recordedPid = some pid

instance (s : Host Process) (staleBefore : Timestamp) (os : UUID → OsView)
    (killed : List Int) : Decidable (s.Contains staleBefore os killed) :=
  inferInstanceAs (Decidable (_ ∧ _))

variable [DecidableEq Process] (workerIdOf : Process → String)

/-- A fleet step that leaves the processes alone. -/
def onFleet (s : Host Process) (a : FleetAction Process) : Option (Host Process) :=
  (s.fleet.step workerIdOf a).map (fun fleet => { s with fleet := fleet })

/-- A step on the host.  The executor returns after its process has ended, so a
worker writes its result only then; a worker that dies leaves its process
behind. -/
def step (s : Host Process) : HostAction Process → Option (Host Process)
  | .createQueued id submissionId workload mode deadline stage now =>
      s.onFleet workerIdOf (.createQueued id submissionId workload mode deadline stage now)
  | .claimNext p args now =>
      (s.onFleet workerIdOf (.claimNext p args now)).map (fun t =>
        { t with spawned := Function.update t.spawned p none })
  | .spawn p pid attempt =>
      match s.fleet.held p, s.spawned p with
      | some (e, n), none =>
        if attempt.rootPid = some pid then
          (s.live.insert ⟨pid, e, n, p⟩).map (fun live =>
            { s with spawned := Function.update s.spawned p (some attempt), live := live })
        else none
      | _, _ => none
  | .beginExecutionAttempt p =>
      match s.spawned p with
      | some attempt => s.onFleet workerIdOf (.beginExecutionAttempt p attempt)
      | none => none
  | .exit pid => some { s with live := s.live.delete (fun x => decide (x.pid = pid)) }
  | .complete p now c =>
      if ∀ x ∈ s.live, x.worker = p → s.fleet.held p ≠ some (x.evaluation, x.attempt) then
        (s.onFleet workerIdOf (.complete p now c)).map (fun t =>
          { t with spawned := Function.update t.spawned p none })
      else none
  | .die p =>
      (s.onFleet workerIdOf (.die p)).map (fun t =>
        { t with spawned := Function.update t.spawned p none })
  | .recoverStaleRunning staleBefore maxAttempts now os killed =>
      if s.Contains staleBefore os killed then
        (s.onFleet workerIdOf (.recoverStaleRunning staleBefore maxAttempts now os)).map
          (fun t => { t with live := t.live.delete (fun x => decide (x.pid ∈ killed)) })
      else none

end Host

/-- The host as a labelled system, started idle. -/
def executionHost {Process : Type} [DecidableEq Process] (workerIdOf : Process → String) :
    System (Host Process) (HostAction Process) where
  start s := s.fleet.Idle ∧ s.live.rows = []
  step := Host.step workerIdOf

namespace Host

variable {Process : Type}

/-- The two windows are avoided: a worker spawns only while its claim is the
row's latest and was not requeued, and recovery finds every live process of a
stale row with attempts left recorded in that row. -/
def outsideWindows : Condition (Host Process) (HostAction Process)
  | s, .spawn p _ _ =>
      ∀ claim ∈ s.fleet.held p,
        ∃ row ∈ s.fleet.db.evaluations, row.id = claim.1 ∧
          row.attemptCount = claim.2 ∧ row.status ≠ .queued
  | s, .recoverStaleRunning staleBefore maxAttempts _ _ _ =>
      ∀ row ∈ s.fleet.db.evaluations, row.isStale staleBefore = true →
        (row.attemptCount : Int) < maxAttempts →
          ∀ x ∈ s.live, x.evaluation = row.id → row.recordedPid = some x.pid
  | _, _ => True

instance (s : Host Process) (a : HostAction Process) : Decidable (outsideWindows s a) :=
  match a with
  | .spawn p _ _ => inferInstanceAs (Decidable (∀ claim ∈ s.fleet.held p, _))
  | .recoverStaleRunning .. =>
      inferInstanceAs (Decidable (∀ row ∈ s.fleet.db.evaluations, _))
  | .createQueued .. | .claimNext .. | .beginExecutionAttempt .. | .exit ..
  | .complete .. | .die .. => isTrue trivial

/-- What keeps the executions apart. -/
structure Exclusive (s : Host Process) : Prop where
  /-- A live process belongs to the latest claim of a row that was not requeued. -/
  latest : ∀ x ∈ s.live, ∃ row ∈ s.fleet.db.evaluations, row.id = x.evaluation ∧
    row.attemptCount = x.attempt ∧ row.status ≠ .queued
  /-- An evaluation has one live process. -/
  unique : ∀ x ∈ s.live, ∀ y ∈ s.live, x.evaluation = y.evaluation → x = y
  /-- Whoever holds the claim of a live process spawned it. -/
  spawner : ∀ x ∈ s.live, ∀ p, s.fleet.held p = some (x.evaluation, x.attempt) →
    x.worker = p ∧ s.spawned p ≠ none

variable {s t : Host Process}

/-- Fewer processes alive, each still on the latest claim of its row, and no
claim newly held. -/
theorem Exclusive.shrink (h : s.Exclusive) (hlive : ∀ x ∈ t.live, x ∈ s.live)
    (hlatest : ∀ x ∈ t.live, ∃ row ∈ t.fleet.db.evaluations, row.id = x.evaluation ∧
      row.attemptCount = x.attempt ∧ row.status ≠ .queued)
    (hheld : ∀ x ∈ t.live, ∀ p, t.fleet.held p = some (x.evaluation, x.attempt) →
      s.fleet.held p = some (x.evaluation, x.attempt) ∧ t.spawned p = s.spawned p) :
    t.Exclusive where
  latest := hlatest
  unique x hx y hy := h.unique x (hlive x hx) y (hlive y hy)
  spawner x hx p hp := by
    obtain ⟨hold, hsame⟩ := hheld x hx p hp
    rw [hsame]
    exact h.spawner x (hlive x hx) p hold

/-- A rewrite that requeues no row with a live process keeps the live processes
on the latest claims. -/
theorem latest_rewrite (h : s.Exclusive) {p : EvaluationRow → Bool}
    {f : EvaluationRow → EvaluationRow} (hf : RunningRewrite p f) {db : EvaluationDb}
    (hrows : db.evaluations = s.fleet.db.evaluations.update p f hf.id)
    {x : LiveProcess Process} (hx : x ∈ s.live)
    (hkeep : ∀ row ∈ s.fleet.db.evaluations, row.id = x.evaluation →
      row.attemptCount = x.attempt → p row = true → (f row).status ≠ .queued) :
    ∃ row ∈ db.evaluations, row.id = x.evaluation ∧ row.attemptCount = x.attempt ∧
      row.status ≠ .queued := by
  obtain ⟨row, hrow, hid, hcount, hstatus⟩ := h.latest x hx
  have hmem : (if p row = true then f row else row) ∈ db.evaluations := by
    rw [hrows]
    exact (Table.mem_update hf.id).mpr ⟨row, hrow, rfl⟩
  by_cases hp : p row = true
  · rw [if_pos hp] at hmem
    exact ⟨f row, hmem, by rw [hf.id, hid], by rw [hf.attemptCount, hcount],
      hkeep row hrow hid hcount hp⟩
  · rw [if_neg hp] at hmem
    exact ⟨row, hmem, hid, hcount, hstatus⟩

section Steps

variable [DecidableEq Process] {workerIdOf : Process → String}

/-- **Fleet simulation.**  Every host step is a fleet step or leaves the fleet
alone. -/
theorem fleet_simulation {a : HostAction Process} (hstep : s.step workerIdOf a = some t) :
    (evaluationFleet workerIdOf).Path always s.fleet t.fleet := by
  have hfleet : ∀ {b : FleetAction Process} {u : Host Process},
      s.onFleet workerIdOf b = some u →
        (evaluationFleet workerIdOf).Path always s.fleet u.fleet := by
    intro b u hu
    obtain ⟨fleet, hb, rfl⟩ := Option.map_eq_some_iff.mp hu
    exact System.Path.single trivial hb
  cases a with
  | createQueued id submissionId workload mode deadline stage now => exact hfleet hstep
  | claimNext p args now =>
      simp only [step] at hstep
      obtain ⟨u, hu, rfl⟩ := Option.map_eq_some_iff.mp hstep
      have hpath := hfleet hu
      exact hpath
  | spawn p pid attempt =>
      simp only [step] at hstep
      split at hstep
      · split at hstep
        · obtain ⟨live, -, rfl⟩ := Option.map_eq_some_iff.mp hstep
          exact System.Path.refl _
        · cases hstep
      · cases hstep
  | beginExecutionAttempt p =>
      simp only [step] at hstep
      split at hstep
      · exact hfleet hstep
      · cases hstep
  | exit pid =>
      cases hstep
      exact System.Path.refl _
  | complete p now c =>
      simp only [step] at hstep
      split at hstep
      · obtain ⟨u, hu, rfl⟩ := Option.map_eq_some_iff.mp hstep
        have hpath := hfleet hu
        exact hpath
      · cases hstep
  | die p =>
      simp only [step] at hstep
      obtain ⟨u, hu, rfl⟩ := Option.map_eq_some_iff.mp hstep
      have hpath := hfleet hu
      exact hpath
  | recoverStaleRunning staleBefore maxAttempts now os killed =>
      simp only [step] at hstep
      split at hstep
      · obtain ⟨u, hu, rfl⟩ := Option.map_eq_some_iff.mp hstep
        have hpath := hfleet hu
        exact hpath
      · cases hstep

/-- The fleet of a reachable host is reachable. -/
theorem fleet_of_reach {ok : Condition (Host Process) (HostAction Process)}
    (h : (executionHost workerIdOf).Reach ok s) :
    (evaluationFleet workerIdOf).Reach always s.fleet :=
  h.simulate (f := Host.fleet)
    (fun u (hstart : u.fleet.Idle ∧ u.live.rows = []) => hstart.1)
    (fun _ _ _ _ _ hstep => fleet_simulation hstep)

/-! ## What each step does to the live processes -/

theorem Exclusive.claim (h : s.Exclusive) {p : Process} {args : ClaimArgs} {now : Timestamp}
    (hstep : s.step workerIdOf (.claimNext p args now) = some t) : t.Exclusive := by
  obtain ⟨u, hu, rfl⟩ := Option.map_eq_some_iff.mp hstep
  obtain ⟨fleet, hfleet, rfl⟩ := Option.map_eq_some_iff.mp hu
  obtain ⟨hidle, rfl | ⟨row, state, hdec, rfl⟩⟩ := Fleet.claim_cases hfleet
  · -- nothing to claim
    refine h.shrink (fun _ hx => hx) h.latest (fun x _ q hq => ⟨hq, ?_⟩)
    have hqp : q ≠ p := by
      intro heq
      rw [heq, hidle] at hq
      cases hq
    exact Function.update_of_ne hqp _ _
  obtain ⟨hrow, hqueued⟩ := hdec.queued
  -- the claimed row was QUEUED, so it has no live process
  have hother : ∀ x ∈ s.live, x.evaluation ≠ row.id := by
    intro x hx hid
    obtain ⟨old, hold, hoid, -, hstatus⟩ := h.latest x hx
    obtain rfl : old = row := Table.eq_of_key_eq hold hrow (hoid.trans hid)
    exact hstatus hqueued
  refine h.shrink (fun _ hx => hx) (fun x hx => ?_) (fun x hx q hq => ?_)
  · obtain ⟨old, hold, hoid, hcount, hstatus⟩ := h.latest x hx
    have hmiss : old.id ≠ row.id := by
      rw [hoid]
      exact hother x hx
    refine ⟨old, ?_, hoid, hcount, hstatus⟩
    exact (Table.mem_update (EvaluationRow.startRunning_id (workerIdOf p) now)).mpr
      ⟨old, hold, by simp [hmiss]⟩
  · dsimp only at hq ⊢
    have hqp : q ≠ p := by
      intro heq
      subst heq
      rw [Function.update_self] at hq
      exact hother x hx (congrArg Prod.fst (Option.some.inj hq)).symm
    rw [Function.update_of_ne hqp] at hq
    exact ⟨hq, Function.update_of_ne hqp _ _⟩

/-- A spawn under the latest claim finds no live process of its evaluation. -/
theorem Exclusive.spawn (h : s.Exclusive) (hsound : s.fleet.tickets.Sound) {p : Process}
    {pid : Int} {attempt : ExecutionAttempt}
    (hok : outsideWindows s (.spawn p pid attempt))
    (hstep : s.step workerIdOf (.spawn p pid attempt) = some t) : t.Exclusive := by
  simp only [step] at hstep
  split at hstep
  swap
  · cases hstep
  rename_i e n hheld hfresh
  split at hstep
  swap
  · cases hstep
  obtain ⟨live, hinsert, rfl⟩ := Option.map_eq_some_iff.mp hstep
  obtain ⟨row, hrow, hid, hcount, hstatus⟩ := hok (e, n) hheld
  dsimp only at hid hcount
  have hnone : ∀ x ∈ s.live, x.evaluation ≠ e := by
    intro x hx hxe
    obtain ⟨old, hold, hoid, hocount, -⟩ := h.latest x hx
    obtain rfl : old = row := Table.eq_of_key_eq hold hrow (by rw [hoid, hid, hxe])
    have hclaim : s.fleet.held p = some (x.evaluation, x.attempt) := by
      rw [hheld, hxe, ← hcount, hocount]
    exact (h.spawner x hx p hclaim).2 hfresh
  refine ⟨fun x hx => ?_, fun x hx y hy hxy => ?_, fun x hx q hq => ?_⟩
  · rcases (Table.mem_of_insert hinsert).mp hx with hold | hnew
    · exact h.latest x hold
    · subst hnew
      exact ⟨row, hrow, hid, hcount, hstatus⟩
  · rcases (Table.mem_of_insert hinsert).mp hx with hxold | hxnew <;>
      rcases (Table.mem_of_insert hinsert).mp hy with hyold | hynew
    · exact h.unique x hxold y hyold hxy
    · subst hynew
      exact absurd hxy (hnone x hxold)
    · subst hxnew
      exact absurd hxy.symm (hnone y hyold)
    · rw [hxnew, hynew]
  · rcases (Table.mem_of_insert hinsert).mp hx with hold | hnew
    · obtain ⟨hworker, hspawned⟩ := h.spawner x hold q hq
      refine ⟨hworker, ?_⟩
      by_cases hqp : q = p
      · simp [hqp]
      · simpa [Function.update_of_ne hqp] using hspawned
    · subst hnew
      obtain rfl : p = q := hsound.held_inj hheld hq
      exact ⟨rfl, by simp⟩

/-- A worker's own write requeues only what it owns, and its process has ended. -/
theorem Exclusive.complete (h : s.Exclusive) (hinj : Function.Injective workerIdOf)
    (hclaimed : s.fleet.Claimed workerIdOf) (hsound : s.fleet.tickets.Sound)
    {p : Process} {now : Timestamp} {c : Completion}
    (hstep : s.step workerIdOf (.complete p now c) = some t) : t.Exclusive := by
  simp only [step] at hstep
  split at hstep
  swap
  · cases hstep
  rename_i hexited
  obtain ⟨u, hu, rfl⟩ := Option.map_eq_some_iff.mp hstep
  obtain ⟨fleet, hfleet, rfl⟩ := Option.map_eq_some_iff.mp hu
  obtain ⟨⟨e, n⟩, hheld, rfl⟩ := Option.map_eq_some_iff.mp hfleet
  obtain ⟨f, hf, -, heq⟩ := s.fleet.db.complete_eq e (workerIdOf p) now c
  refine h.shrink (fun _ hx => hx) (fun x hx => ?_) (fun x hx q hq => ?_)
  · refine latest_rewrite h (hf.ownedRewrite e (workerIdOf p))
      (congrArg EvaluationDb.evaluations heq) hx (fun row hrow hid hcount howned => ?_)
    -- the guard matched, so `p` owns the row under its latest claim
    obtain ⟨hrowid, hrunning, hworker⟩ := EvaluationRow.ownedBy_iff.mp howned
    obtain ⟨q, hq, hqworker⟩ := hclaimed row hrow hrunning
    obtain rfl : p = q := hinj (Option.some.inj (hworker.symm.trans hqworker))
    have howner : s.fleet.tickets.owner row.id = some p := by
      rw [Fleet.owner_of_running hrow hrunning, hq]
    have hn : n = row.attemptCount := by
      rw [← Fleet.issued_of_mem hrow]
      exact hsound.owner_current howner (by rw [hrowid]; exact hheld)
    have hclaim : s.fleet.held p = some (x.evaluation, x.attempt) := by
      rw [hheld, ← hid, ← hcount, hrowid, hn]
    exact absurd hclaim (hexited x hx (h.spawner x hx p hclaim).1)
  · obtain ⟨hqp, hheldq⟩ := Fleet.held_of_release hq
    exact ⟨hheldq, Function.update_of_ne hqp _ _⟩

/-- Recovery requeues a row only when its recorded process is dead, and every
live process of the row is the recorded one. -/
theorem Exclusive.recover (h : s.Exclusive) {staleBefore : Timestamp} {maxAttempts : Int}
    {now : Timestamp} {os : UUID → OsView} {killed : List Int}
    (hok : outsideWindows s (.recoverStaleRunning staleBefore maxAttempts now os killed))
    (hstep : s.step workerIdOf
      (.recoverStaleRunning staleBefore maxAttempts now os killed) = some t) :
    t.Exclusive := by
  simp only [step] at hstep
  split at hstep
  swap
  · cases hstep
  rename_i hcontains
  obtain ⟨u, hu, rfl⟩ := Option.map_eq_some_iff.mp hstep
  obtain ⟨fleet, hfleet, rfl⟩ := Option.map_eq_some_iff.mp hu
  cases hfleet
  have hlive : ∀ x ∈ s.live.delete (fun x => decide (x.pid ∈ killed)),
      x ∈ s.live ∧ x.pid ∉ killed := by
    intro x hx
    obtain ⟨hmem, hpid⟩ := Table.mem_delete.mp hx
    exact ⟨hmem, by simpa using hpid⟩
  refine h.shrink (fun x hx => (hlive x hx).1) (fun x hx => ?_) (fun x _ p hp => ⟨hp, rfl⟩)
  obtain ⟨hmem, hsurvives⟩ := hlive x hx
  refine latest_rewrite h (EvaluationDb.recover_rewrite staleBefore maxAttempts now os) rfl
    hmem (fun row hrow hid _ hstale hqueued => ?_)
  obtain ⟨hleft, hdead⟩ := EvaluationRow.recover_queued hqueued
  have hrecorded := hok row hrow hstale hleft x hmem hid.symm
  rcases hcontains.1 row hrow hstale x hmem hrecorded with hkilled | hsurvived
  · exact hsurvives hkilled
  · rw [hdead] at hsurvived
    cases hsurvived

/-- **Step lemma.**  Every step outside the two windows keeps executions apart. -/
theorem Exclusive.step (h : s.Exclusive) (hinj : Function.Injective workerIdOf)
    (hclaimed : s.fleet.Claimed workerIdOf) (hsound : s.fleet.tickets.Sound)
    {a : HostAction Process} (hok : outsideWindows s a)
    (hstep : s.step workerIdOf a = some t) : t.Exclusive := by
  cases a with
  | createQueued id submissionId workload mode deadline stage now =>
      obtain ⟨fleet, hfleet, rfl⟩ := Option.map_eq_some_iff.mp hstep
      obtain ⟨db, hcreate, rfl⟩ := Option.map_eq_some_iff.mp hfleet
      obtain ⟨new, evaluations, -, -, hinsert, rfl⟩ := EvaluationDb.createQueued_eq_some hcreate
      refine h.shrink (fun _ hx => hx) (fun x hx => ?_) (fun _ _ _ hp => ⟨hp, rfl⟩)
      obtain ⟨row, hrow, hrest⟩ := h.latest x hx
      exact ⟨row, (Table.mem_of_insert hinsert).mpr (Or.inl hrow), hrest⟩
  | claimNext p args now => exact h.claim hstep
  | spawn p pid attempt => exact h.spawn hsound hok hstep
  | beginExecutionAttempt p =>
      simp only [Host.step] at hstep
      split at hstep
      swap
      · cases hstep
      rename_i attempt hspawned
      obtain ⟨fleet, hfleet, rfl⟩ := Option.map_eq_some_iff.mp hstep
      obtain ⟨⟨e, n⟩, hheld, rfl⟩ := Option.map_eq_some_iff.mp hfleet
      refine h.shrink (fun _ hx => hx) (fun x hx => ?_) (fun _ _ _ hp => ⟨hp, rfl⟩)
      refine latest_rewrite h (EvaluationDb.recordAttempt_rewrite e (workerIdOf p) attempt)
        rfl hx (fun row _ _ _ howned => ?_)
      have hrunning := (EvaluationRow.ownedBy_iff.mp howned).2.1
      simp [EvaluationDb.recordAttempt, hrunning]
  | exit pid =>
      cases hstep
      have hlive : ∀ x ∈ s.live.delete (fun x => decide (x.pid = pid)), x ∈ s.live :=
        fun x hx => (Table.mem_delete.mp hx).1
      exact h.shrink hlive (fun x hx => h.latest x (hlive x hx)) (fun _ _ _ hp => ⟨hp, rfl⟩)
  | complete p now c => exact h.complete hinj hclaimed hsound hstep
  | die p =>
      simp only [Host.step] at hstep
      obtain ⟨u, hu, rfl⟩ := Option.map_eq_some_iff.mp hstep
      obtain ⟨fleet, hfleet, rfl⟩ := Option.map_eq_some_iff.mp hu
      cases hfleet
      refine h.shrink (fun _ hx => hx) h.latest (fun x _ q hq => ?_)
      obtain ⟨hqp, hheldq⟩ := Fleet.held_of_release hq
      exact ⟨hheldq, Function.update_of_ne hqp _ _⟩
  | recoverStaleRunning staleBefore maxAttempts now os killed => exact h.recover hok hstep

/-- **One live execution.**  With distinct worker ids, in every run that stays
out of the two windows, no evaluation has two live processes. -/
theorem execution_exclusive (hinj : Function.Injective workerIdOf)
    (h : (executionHost workerIdOf).Reach outsideWindows s) (e : UUID) :
    s.live.count (fun x => x.evaluation = e) ≤ 1 := by
  have hexclusive : s.Exclusive := by
    refine h.induct ?_ (fun u a t hreach hu hok hstep => ?_)
    · intro u hstart
      have hnone : ∀ x, ¬ x ∈ u.live := by
        intro x hx
        simp [Table.mem_iff, hstart.2] at hx
      exact ⟨fun x hx => absurd hx (hnone x), fun x hx => absurd hx (hnone x),
        fun x hx => absurd hx (hnone x)⟩
    · have hfleet := fleet_of_reach hreach
      exact hu.step hinj (Fleet.claimed_of_reach hfleet) (Fleet.sound_of_reach hfleet) hok
        hstep
  refine Table.count_le_one (fun x hx y hy hxe hye => ?_)
  exact hexclusive.unique x hx y hy
    ((of_decide_eq_true hxe).trans (of_decide_eq_true hye).symm)

end Steps

theorem twoWorkers_injective : Function.Injective Fleet.twoWorkers := by
  intro a b h
  cases a <;> cases b <;> first | rfl | exact absurd h (by decide)

/-- The execution a worker records, with the given root pid. -/
def sampleAttempt (pid : Int) : ExecutionAttempt where
  executionAttemptId := "attempt"
  evaluationId := "1"
  workerId := "worker"
  workload := "SUCCESS"
  rootPid := some pid
  pgid := some pid
  workspace := none
  ownership := "pid_tracking_only"

/-- Every process is alive and dies when contained. -/
def obedientOs : OsView where
  processAlive _ := true
  containAttempt _ := ⟨true, [100], [], false⟩

/-- The first worker records its process in time; recovery kills it before the
second worker claims and spawns. -/
def recordedRun : List (HostAction Bool) :=
  [.createQueued 1 1 .light .syntheticExecution none 0 1,
   .claimNext true (laptopClaim "") 2,
   .spawn true 100 (sampleAttempt 100),
   .beginExecutionAttempt true,
   .recoverStaleRunning 10 3 40 (fun _ => obedientOs) [100],
   .claimNext false (laptopClaim "") 41,
   .spawn false 200 (sampleAttempt 200)]

/-- `execution_exclusive` on that run: the second process is the only one. -/
theorem execution_exclusive_recorded :
    ∃ s, (executionHost Fleet.twoWorkers).Reach outsideWindows s ∧
      s.live.count (fun x => x.pid = 200) = 1 ∧
      s.live.count (fun x => x.evaluation = 1) ≤ 1 := by
  obtain ⟨s, hreach, htest⟩ :
      ∃ s, (executionHost Fleet.twoWorkers).Reach outsideWindows s ∧
        decide (s.live.count (fun x => x.pid = 200) = 1) = true :=
    System.reach_of_test ⟨⟨emptyEvaluationDb, fun _ => none, fun _ => none⟩,
      fun _ => none, Table.empty⟩ recordedRun _ ⟨⟨rfl, fun _ => rfl⟩, rfl⟩ (by decide)
  exact ⟨s, hreach, of_decide_eq_true htest,
    execution_exclusive twoWorkers_injective hreach 1⟩

/-- The first worker's process is alive but not recorded when the row is found
stale; it is requeued, and the second worker spawns another one. -/
def unrecordedRun : List (HostAction Bool) :=
  [.createQueued 1 1 .light .syntheticExecution none 0 1,
   .claimNext true (laptopClaim "") 2,
   .spawn true 100 (sampleAttempt 100),
   .recoverStaleRunning 10 3 40 (fun _ => idleOs) [],
   .claimNext false (laptopClaim "") 41,
   .spawn false 200 (sampleAttempt 200)]

/-- **Two live executions.**  With distinct worker ids and working containment,
an evaluation can have two live processes. -/
theorem execution_exclusive_fails :
    Function.Injective Fleet.twoWorkers ∧
    ∃ s, (executionHost Fleet.twoWorkers).Reach always s ∧
      s.live.count (fun x => x.evaluation = 1) = 2 := by
  refine ⟨twoWorkers_injective, ?_⟩
  obtain ⟨s, hreach, htest⟩ : ∃ s, (executionHost Fleet.twoWorkers).Reach always s ∧
      decide (s.live.count (fun x => x.evaluation = 1) = 2) = true :=
    System.reach_of_test ⟨⟨emptyEvaluationDb, fun _ => none, fun _ => none⟩,
      fun _ => none, Table.empty⟩ unrecordedRun _ ⟨⟨rfl, fun _ => rfl⟩, rfl⟩ (by decide)
  exact ⟨s, hreach, of_decide_eq_true htest⟩

end Host

end ChallengeForge
