import ChallengeForge.HostProcesses

/-!
# Whom stale recovery signals

Recovery knows the execution of a stale row by a pid.  Between the execution and
its recovery that pid may have passed to another process, and the recovery may run
on another host, where the pid means something else.

* `Lineage` — in every reachable state a child of an attempt's process belongs to
  the attempt, and all its processes are on the host that launched it;
* `recovers_own_iff` — recovery signals only processes of the recorded attempt,
  and requeues the row only when the attempt's own process is dead, exactly when
  the pid still names the attempt and the host is the one it ran on.
-/

namespace ChallengeForge

open Keyed Labelled

namespace Hosts

variable {Host : Type} {s t : Hosts Host}

/-- What the tables say about the attempts. -/
structure Lineage (s : Hosts Host) : Prop where
  born : ∀ host, ∀ p ∈ s.processes host, p.born < s.clock
  positive : ∀ host, ∀ p ∈ s.processes host, 0 < p.pid
  /-- The children of an attempt's process belong to the attempt. -/
  inherited : ∀ host, ∀ p ∈ s.processes host, ∀ q ∈ s.processes host,
    q.ppid = some p.pid → p.born < q.born → ∀ id, p.attempt = some id → q.attempt = some id
  /-- The processes of an attempt are on the host that launched it, and its root
  has the pid it was launched with. -/
  launched : ∀ host, ∀ p ∈ s.processes host, ∀ id, p.attempt = some id →
    ∃ launch, s.attempts id = some launch ∧ launch.host = host ∧
      (p.root = true → launch.pid = p.pid)

/-- Fewer processes, each a process there was, perhaps adopted or a zombie. -/
theorem Lineage.shrink (h : s.Lineage) (hclock : t.clock = s.clock)
    (hattempts : t.attempts = s.attempts)
    (hprocesses : ∀ host, ∀ p ∈ t.processes host, ∃ q ∈ s.processes host, p.pid = q.pid ∧
      p.born = q.born ∧ p.attempt = q.attempt ∧ p.root = q.root ∧
      (p.ppid = q.ppid ∨ p.ppid = none)) : t.Lineage where
  born host p hp := by
    obtain ⟨q, hq, -, hborn, -⟩ := hprocesses host p hp
    rw [hborn, hclock]
    exact h.born host q hq
  positive host p hp := by
    obtain ⟨q, hq, hpid, -⟩ := hprocesses host p hp
    rw [hpid]
    exact h.positive host q hq
  inherited host p hp c hc hppid hborn id hid := by
    obtain ⟨q, hq, hqpid, hqborn, hqattempt, -⟩ := hprocesses host p hp
    obtain ⟨d, hd, -, hdborn, hdattempt, -, hkept | hnone⟩ := hprocesses host c hc
    · rw [hdattempt]
      exact h.inherited host q hq d hd (by rw [← hkept, hppid, hqpid]) (by omega) id
        (by rw [← hqattempt, hid])
    · rw [hnone] at hppid
      cases hppid
  launched host p hp id hid := by
    obtain ⟨q, hq, hqpid, -, hqattempt, hqroot, -⟩ := hprocesses host p hp
    rw [hattempts, hqpid, hqroot]
    exact h.launched host q hq id (by rw [← hqattempt, hid])

section Steps

variable [DecidableEq Host]

theorem attempts_of_appear {host : Host} {r : OsProcess} (h : s.appear host r = some t) :
    t.attempts = s.attempts := by
  unfold Hosts.appear at h
  split at h
  · obtain ⟨table, -, rfl⟩ := Option.map_eq_some_iff.mp h
    rfl
  · cases h

/-- A process appears: it is the youngest, so it is nobody's parent, and its own
parent hands down the attempt it belongs to. -/
theorem Lineage.appear (h : s.Lineage) {host : Host} {r : OsProcess}
    (happear : s.appear host r = some t) {attempts : String → Option (Launch Host)}
    (hborn : r.born = s.clock)
    (hparent : ∀ p ∈ s.processes host, r.ppid = some p.pid → ∀ id, p.attempt = some id →
      r.attempt = some id)
    (hold : ∀ id launch, s.attempts id = some launch → attempts id = some launch)
    (hlaunched : ∀ id, r.attempt = some id → ∃ launch, attempts id = some launch ∧
      launch.host = host ∧ (r.root = true → launch.pid = r.pid)) :
    ({ t with attempts := attempts } : Hosts Host).Lineage := by
  unfold Hosts.appear at happear
  split at happear
  swap
  · cases happear
  rename_i hpos
  obtain ⟨table, hinsert, rfl⟩ := Option.map_eq_some_iff.mp happear
  have hcases : ∀ other, ∀ p ∈ Function.update s.processes host table other,
      p ∈ s.processes other ∨ (other = host ∧ p = r) := by
    intro other p hp
    by_cases hother : other = host
    · subst hother
      rw [Function.update_self] at hp
      rcases (Table.mem_of_insert hinsert).mp hp with hmem | hnew
      · exact Or.inl hmem
      · exact Or.inr ⟨rfl, hnew⟩
    · rw [Function.update_of_ne hother] at hp
      exact Or.inl hp
  constructor
  · intro other p hp
    rcases hcases other p hp with hmem | ⟨-, rfl⟩
    · have := h.born other p hmem
      show p.born < s.clock + 1
      omega
    · show p.born < s.clock + 1
      omega
  · intro other p hp
    rcases hcases other p hp with hmem | ⟨-, rfl⟩
    · exact h.positive other p hmem
    · exact hpos
  · intro other p hp q hq hppid hyounger id hid
    rcases hcases other p hp with hpmem | ⟨rfl, rfl⟩
    · rcases hcases other q hq with hqmem | ⟨rfl, rfl⟩
      · exact h.inherited other p hpmem q hqmem hppid hyounger id hid
      · exact hparent p hpmem hppid id hid
    · rcases hcases other q hq with hqmem | ⟨-, rfl⟩
      · have := h.born other q hqmem
        omega
      · omega
  · intro other p hp id hid
    rcases hcases other p hp with hmem | ⟨rfl, rfl⟩
    · obtain ⟨launch, hlaunch, hrest⟩ := h.launched other p hmem id hid
      exact ⟨launch, hold id launch hlaunch, hrest⟩
    · exact hlaunched id hid

theorem Lineage.step (h : s.Lineage) {a : ProcessEvent Host} (hstep : s.step a = some t) :
    t.Lineage := by
  cases a with
  | start host pid =>
      have hsame := attempts_of_appear hstep
      exact h.appear hstep rfl (by simp) (fun _ _ hlaunch => hsame ▸ hlaunch) (by simp)
  | fork host parent pid =>
      obtain ⟨p, hfound, happear⟩ := Option.bind_eq_some_iff.mp hstep
      have hp := Table.mem_of_find? hfound
      have hsame := attempts_of_appear happear
      refine h.appear happear rfl ?_ (fun _ _ hlaunch => hsame ▸ hlaunch) ?_
      · intro q hq hppid id hid
        obtain rfl : p = q := Table.eq_of_key_eq hp hq (Option.some.inj hppid)
        exact hid
      · intro id hid
        obtain ⟨launch, hlaunch, hhost, -⟩ := h.launched host p hp id hid
        exact ⟨launch, hsame ▸ hlaunch, hhost, by simp⟩
  | launch host worker pid attemptId =>
      simp only [Hosts.step] at hstep
      split at hstep
      swap
      · cases hstep
      rename_i w hfound hfresh
      split at hstep
      swap
      · cases hstep
      rename_i hworker
      obtain ⟨u, happear, rfl⟩ := Option.map_eq_some_iff.mp hstep
      have hw := Table.mem_of_find? hfound
      refine h.appear happear rfl ?_ ?_ ?_
      · -- a worker belongs to no attempt
        intro q hq hppid id hid
        obtain rfl : w = q := Table.eq_of_key_eq hw hq (Option.some.inj hppid)
        rw [hworker] at hid
        cases hid
      · intro id launch hlaunch
        have hne : id ≠ attemptId := by
          intro heq
          rw [heq, hfresh] at hlaunch
          cases hlaunch
        rwa [Function.update_of_ne hne]
      · intro id hid
        cases hid
        exact ⟨⟨host, pid⟩, Function.update_self .., rfl, fun _ => rfl⟩
  | exit host pid =>
      cases hstep
      refine h.shrink rfl rfl ?_
      intro other p hp
      by_cases hother : other = host
      · subst hother
        simp only [setTable, Function.update_self] at hp
        obtain ⟨q, hq, rfl⟩ := (Table.mem_update _).mp hp
        refine ⟨q, hq, ?_⟩
        split <;> simp
      · simp only [setTable, Function.update_of_ne hother] at hp
        exact ⟨p, hp, rfl, rfl, rfl, rfl, Or.inl rfl⟩
  | reap host pid adopted =>
      cases hstep
      refine h.shrink rfl rfl ?_
      intro other p hp
      by_cases hother : other = host
      · subst hother
        simp only [setTable, Function.update_self] at hp
        obtain ⟨q, hq, rfl⟩ := (Table.mem_update _).mp hp
        refine ⟨q, (Table.mem_delete.mp hq).1, ?_⟩
        split <;> simp
      · simp only [setTable, Function.update_of_ne hother] at hp
        exact ⟨p, hp, rfl, rfl, rfl, rfl, Or.inl rfl⟩

theorem lineage_of_reach (h : (hostProcesses Host).Reach always s) : s.Lineage := by
  refine h.invariant ?_ (fun _ _ _ hs _ hstep => hs.step hstep)
  intro s hstart
  have hnone : ∀ host, ∀ p, ¬ p ∈ s.processes host := by
    intro host p hp
    simp [Table.mem_iff, hstart.1 host] at hp
  exact ⟨fun host p hp => absurd hp (hnone host p), fun host p hp => absurd hp (hnone host p),
    fun host p hp => absurd hp (hnone host p), fun host p hp => absurd hp (hnone host p)⟩

end Steps

/-- The descendants of an attempt's process belong to the attempt. -/
theorem Lineage.descends (h : s.Lineage) {host : Host} {p q : OsProcess}
    (hp : p ∈ s.processes host) (hdescends : (s.processes host).Descends p q) {id : String}
    (hid : p.attempt = some id) : q ∈ s.processes host ∧ q.attempt = some id := by
  induction hdescends with
  | single hchild =>
      exact ⟨hchild.1, h.inherited host p hp _ hchild.1 hchild.2.1 hchild.2.2 id hid⟩
  | tail _ hchild ih =>
      exact ⟨hchild.1,
        h.inherited host _ ih.1 _ hchild.1 hchild.2.1 hchild.2.2 id ih.2⟩

/-! ## The recovery of a row -/

/-- The processes that recovery signals for a stale row. -/
def signalled (s : Hosts Host) (os : HostOs) (host : Host) (row : EvaluationRow) :
    List OsProcess :=
  match ExecutionAttempt.fromMetadata row.resultMetadata with
  | some attempt =>
      if pidAlive (s.processes host) attempt.rootPid then
        (containAttempt os (s.processes host) attempt).signalled
      else []
  | none => []

/-- The hosts when recovery is done with a stale row. -/
def contained [DecidableEq Host] (s : Hosts Host) (os : HostOs) (host : Host)
    (row : EvaluationRow) : Hosts Host :=
  match ExecutionAttempt.fromMetadata row.resultMetadata with
  | some attempt =>
      if pidAlive (s.processes host) attempt.rootPid then
        s.setTable host (containAttempt os (s.processes host) attempt).processes
      else s
  | none => s

/-- The record of a row shows the pid of what its attempt started. -/
def Recorded (s : Hosts Host) (row : EvaluationRow) : Prop :=
  ∀ attempt, ExecutionAttempt.fromMetadata row.resultMetadata = some attempt →
    ∀ launch, s.attempts attempt.executionAttemptId = some launch →
      attempt.rootPid = some launch.pid

/-- The attempt's own process has exited. -/
def Ended (s : Hosts Host) (attemptId : String) : Prop :=
  ∀ host, ∀ p ∈ s.processes host, p.IsRootOf attemptId → p.zombie = true

/-- The recorded pid can be trusted on this host. -/
structure Recognised (s : Hosts Host) (host : Host) (row : EvaluationRow) (maxAttempts : Int) :
    Prop where
  /-- A process alive under the recorded pid belongs to the recorded attempt. -/
  tree : ∀ attempt, ExecutionAttempt.fromMetadata row.resultMetadata = some attempt →
    ∀ p ∈ s.processes host, attempt.rootPid = some p.pid → p.zombie = false →
      p.attempt = some attempt.executionAttemptId
  /-- If the row has attempts left, its own process is not alive elsewhere. -/
  here : (row.attemptCount : Int) < maxAttempts →
    ∀ attempt, ExecutionAttempt.fromMetadata row.resultMetadata = some attempt →
      ∀ other, ∀ p ∈ s.processes other, p.IsRootOf attempt.executionAttemptId →
        p.zombie = false → other = host

/-- What the recovery of a row should be: it signals the recorded attempt only,
and requeues the row only when that attempt's own process has exited. -/
structure RecoversOwn [DecidableEq Host] (s : Hosts Host) (os : HostOs) (host : Host)
    (row row' : EvaluationRow) : Prop where
  signals : ∀ p ∈ s.signalled os host row, ∃ attempt,
    ExecutionAttempt.fromMetadata row.resultMetadata = some attempt ∧
      p.attempt = some attempt.executionAttemptId
  requeues : row'.status = .queued →
    ∀ attempt, ExecutionAttempt.fromMetadata row.resultMetadata = some attempt →
      (s.contained os host row).Ended attempt.executionAttemptId

section Recovery

variable {os : HostOs} {host : Host} {row : EvaluationRow} {attempt : ExecutionAttempt}

/-- A live process under the recorded pid. -/
theorem pidAlive_recorded (h : s.Lineage) {p : OsProcess} (hp : p ∈ s.processes host)
    (hpid : attempt.rootPid = some p.pid) (halive : p.zombie = false) :
    pidAlive (s.processes host) attempt.rootPid = true :=
  pidAlive_iff.mpr ⟨p, hp, hpid, h.positive host p hp, halive⟩

/-- While the recorded pid is the attempt's, only the attempt is signalled. -/
theorem signals_own (h : s.Lineage)
    (hattempt : ExecutionAttempt.fromMetadata row.resultMetadata = some attempt)
    (htree : ∀ p ∈ s.processes host, attempt.rootPid = some p.pid → p.zombie = false →
      p.attempt = some attempt.executionAttemptId) :
    ∀ p ∈ s.signalled os host row, p.attempt = some attempt.executionAttemptId := by
  intro p hp
  simp only [signalled, hattempt] at hp
  split at hp
  swap
  · cases hp
  rename_i halive
  obtain ⟨root, hroot, hpid, hpos, hlive⟩ := pidAlive_iff.mp halive
  have hown := htree root hroot hpid hlive
  rcases signalled_of_root hroot hpos hlive hpid hp with rfl | hdescends
  · exact hown
  · exact (h.descends hroot hdescends hown).2

/-- Any live process under the recorded pid is signalled. -/
theorem signals_recorded (h : s.Lineage)
    (hattempt : ExecutionAttempt.fromMetadata row.resultMetadata = some attempt)
    {p : OsProcess} (hp : p ∈ s.processes host) (hpid : attempt.rootPid = some p.pid)
    (halive : p.zombie = false) : p ∈ s.signalled os host row := by
  simp only [signalled, hattempt, pidAlive_recorded h hp hpid halive, if_true]
  exact root_signalled hp (h.positive host p hp) halive hpid

/-- A row with attempts left is requeued unless its execution survives. -/
theorem queued_of_dead {view : OsView} {maxAttempts : Int} {now : Timestamp}
    (hattempt : ExecutionAttempt.fromMetadata row.resultMetadata = some attempt)
    (hleft : (row.attemptCount : Int) < maxAttempts)
    (hdead : view.orphanSuspected attempt = false) :
    (row.recover view maxAttempts now).status = .queued := by
  have hcount : ¬ (row.attemptCount : Int) ≥ maxAttempts := by omega
  simp [EvaluationRow.recover, hattempt, hdead, EvaluationRow.requeueOrAbandon, hcount]

variable [DecidableEq Host] {maxAttempts : Int} {now : Timestamp}

/-- A process after the containment was there before, and on its own host the
containment has left it. -/
theorem mem_contained
    (hattempt : ExecutionAttempt.fromMetadata row.resultMetadata = some attempt)
    {other : Host} {p : OsProcess} (hp : p ∈ (s.contained os host row).processes other) :
    p ∈ s.processes other ∧ (other = host → pidAlive (s.processes host) attempt.rootPid = true →
      p ∈ (containAttempt os (s.processes host) attempt).processes) := by
  simp only [contained, hattempt] at hp
  split at hp
  · simp only [setTable] at hp
    by_cases hother : other = host
    · subst hother
      rw [Function.update_self] at hp
      exact ⟨mem_of_contained hp, fun _ _ => hp⟩
    · rw [Function.update_of_ne hother] at hp
      exact ⟨hp, fun heq => absurd heq hother⟩
  · rename_i hdead
    exact ⟨hp, fun _ halive => absurd halive hdead⟩

/-- **Recovery of one row.**  It is what it should be exactly when the recorded pid
can be trusted. -/
theorem recoversOwn_iff (h : s.Lineage) (hrecorded : s.Recorded row) :
    s.RecoversOwn os host row (row.recover (hostView os (s.processes host)) maxAttempts now) ↔
      s.Recognised host row maxAttempts := by
  constructor
  · intro hown
    have htree : ∀ attempt, ExecutionAttempt.fromMetadata row.resultMetadata = some attempt →
        ∀ p ∈ s.processes host, attempt.rootPid = some p.pid → p.zombie = false →
          p.attempt = some attempt.executionAttemptId := by
      intro attempt hattempt p hp hpid halive
      obtain ⟨found, hfound, hp⟩ := hown.signals p (signals_recorded h hattempt hp hpid halive)
      rw [hattempt] at hfound
      cases hfound
      exact hp
    refine ⟨htree, ?_⟩
    intro hleft attempt hattempt other p hp hroot halive
    obtain ⟨launch, hlaunch, hhost, -⟩ := h.launched other p hp _ hroot.1
    by_cases hpid : pidAlive (s.processes host) attempt.rootPid = true
    · -- the process found here belongs to the attempt, which is on one host
      obtain ⟨q, hq, hqpid, -, hqalive⟩ := pidAlive_iff.mp hpid
      obtain ⟨launch', hlaunch', hhost', -⟩ :=
        h.launched host q hq _ (htree attempt hattempt q hq hqpid hqalive)
      rw [hlaunch] at hlaunch'
      cases hlaunch'
      exact hhost.symm.trans hhost'
    · -- nothing is found here, and the row is requeued
      have hdead : (hostView os (s.processes host)).orphanSuspected attempt = false := by
        rw [orphanSuspected_hostView]
        simpa using hpid
      have hended := hown.requeues (queued_of_dead hattempt hleft hdead) attempt hattempt
      have hsame : s.contained os host row = s := by
        simp [contained, hattempt, hpid]
      rw [hsame] at hended
      have hzombie := hended other p hp hroot
      rw [halive] at hzombie
      cases hzombie
  · intro hrecognised
    constructor
    · intro p hp
      cases hattempt : ExecutionAttempt.fromMetadata row.resultMetadata with
      | none => simp [signalled, hattempt] at hp
      | some attempt =>
          exact ⟨attempt, rfl, signals_own h hattempt (hrecognised.tree attempt hattempt) p hp⟩
    · intro hqueued attempt hattempt other p hp hroot
      obtain ⟨hleft, hsurvives⟩ := EvaluationRow.recover_queued hqueued
      obtain ⟨hbefore, hafter⟩ := mem_contained hattempt hp
      by_contra hzombie
      have halive : p.zombie = false := by simpa using hzombie
      obtain rfl : other = host :=
        hrecognised.here hleft attempt hattempt other p hbefore hroot halive
      obtain ⟨launch, hlaunch, -, hpid⟩ := h.launched other p hbefore _ hroot.1
      have hrootPid : attempt.rootPid = some p.pid := by
        rw [hrecorded attempt hattempt launch hlaunch, hpid hroot.2]
      have hfound := pidAlive_recorded h hbefore hrootPid halive
      -- the attempt's own process is left alive, so containment reports it
      have hreported : (containAttempt os (s.processes other) attempt).report.stillAlive ≠ [] :=
        root_reported (h.positive other p hbefore) halive hrootPid (hafter rfl hfound)
      have hsurvived : row.survivesContainment (hostView os (s.processes other)) = true := by
        simp only [EvaluationRow.survivesContainment, hattempt, Option.any_some,
          orphanSuspected_hostView, hfound, Bool.true_and, Bool.not_eq_true']
        simpa [hostView] using hreported
      rw [hsurvives] at hsurvived
      cases hsurvived

end Recovery

/-! ## The recovery of every stale row -/

/-- **Whom stale recovery touches.**  Recovery handles each stale row in some
reachable state of the hosts.  It signals only processes of the recorded attempts,
and requeues only rows whose own process has exited, if and only if each recorded
pid can be trusted on the recovering host. -/
theorem recovers_own_iff [DecidableEq Host] (os : HostOs) (host : Host) (db : EvaluationDb)
    (staleBefore : Timestamp) (maxAttempts : Int) (now : Timestamp) (turn : UUID → Hosts Host)
    (hreach : ∀ row ∈ db.evaluations, row.isStale staleBefore = true →
      (hostProcesses Host).Reach always (turn row.id))
    (hrecorded : ∀ row ∈ db.evaluations, row.isStale staleBefore = true →
      (turn row.id).Recorded row) :
    (∀ row ∈ db.evaluations, row.isStale staleBefore = true →
      ∀ row' ∈ (db.recoverStaleRunning staleBefore maxAttempts now
        (fun id => hostView os ((turn id).processes host))).evaluations, row'.id = row.id →
        (turn row.id).RecoversOwn os host row row') ↔
    ∀ row ∈ db.evaluations, row.isStale staleBefore = true →
      (turn row.id).Recognised host row maxAttempts := by
  let view := fun id => hostView os ((turn id).processes host)
  have hrecovered : ∀ row ∈ db.evaluations, row.isStale staleBefore = true → ∀ row',
      (row' ∈ (db.recoverStaleRunning staleBefore maxAttempts now view).evaluations ∧
        row'.id = row.id) ↔ row' = row.recover (view row.id) maxAttempts now := by
    intro row hrow hstale row'
    have hkey : ∀ r : EvaluationRow, (r.recover (view r.id) maxAttempts now).id = r.id :=
      fun r => (r.recover_spec (view r.id) maxAttempts now).1
    have hmem : row.recover (view row.id) maxAttempts now ∈
        (db.recoverStaleRunning staleBefore maxAttempts now view).evaluations :=
      (Table.mem_update hkey).mpr ⟨row, hrow, by rw [if_pos hstale]⟩
    constructor
    · rintro ⟨hrow', hid⟩
      exact Table.eq_of_key_eq hrow' hmem (hid.trans (hkey row).symm)
    · rintro rfl
      exact ⟨hmem, hkey row⟩
  constructor
  · intro hall row hrow hstale
    obtain ⟨hmem, hid⟩ := (hrecovered row hrow hstale _).mpr rfl
    exact (recoversOwn_iff (lineage_of_reach (hreach row hrow hstale))
      (hrecorded row hrow hstale)).mp (hall row hrow hstale _ hmem hid)
  · intro hall row hrow hstale row' hrow' hid
    obtain rfl := (hrecovered row hrow hstale row').mp ⟨hrow', hid⟩
    exact (recoversOwn_iff (lineage_of_reach (hreach row hrow hstale))
      (hrecorded row hrow hstale)).mpr (hall row hrow hstale)

/-! ## A pid that changed hands, and a pid of another host -/

/-- Children up to a depth. -/
def walkChildren (t : ProcessTable) : Nat → OsProcess → List OsProcess
  | 0, _ => []
  | depth + 1, p =>
      (t.select (fun q => decide (q.ppid = some p.pid ∧ p.born < q.born))).flatMap
        (fun q => q :: walkChildren t depth q)

theorem descends_of_walk {t : ProcessTable} {depth : Nat} {p q : OsProcess}
    (h : q ∈ walkChildren t depth p) : t.Descends p q := by
  induction depth generalizing p with
  | zero => cases h
  | succ depth ih =>
      obtain ⟨c, hc, hq⟩ := List.mem_flatMap.mp h
      obtain ⟨hmem, hlink⟩ := Table.mem_select.mp hc
      have hchild : t.Child p c := ⟨hmem, of_decide_eq_true hlink⟩
      rcases List.mem_cons.mp hq with rfl | hbelow
      · exact .single hchild
      · exact .head hchild (ih hbelow)

/-- A host on which processes obey. -/
def posixOs : HostOs where
  nt := false
  descendants t p := walkChildren t t.rows.length p
  descends _ _ _ h := descends_of_walk h
  outlives _ _ := false
  pathExists _ := false

/-- A worker on the first host runs an attempt under pid 100. -/
def launchRun : List (ProcessEvent Bool) :=
  [.start true 10, .launch true 10 100 "attempt", .fork true 100 101]

/-- The attempt ends, and another process gets its pid. -/
def pidReusedRun : List (ProcessEvent Bool) :=
  launchRun ++ [.exit true 101, .reap true 101 false, .exit true 100, .reap true 100 false,
    .start true 100]

/-- What the worker records of the launch. -/
def launchedAttempt : ExecutionAttempt :=
  ⟨"attempt", "1", "worker", "SUCCESS", some 100, some 100, none, "pid_tracking_only"⟩

/-- The row of the attempt, stale. -/
def staleRow : EvaluationRow where
  id := 1
  submissionId := 2
  status := .running
  workloadClass := .light
  currentStage := 0
  evaluationMode := .syntheticExecution
  deadlineAt := none
  createdAt := 0
  startedAt := some 1
  completedAt := none
  attemptCount := 1
  failureReason := none
  score := none
  resultMetadata := [("execution_attempt", .obj launchedAttempt.toMetadata)]
  workerId := some "worker"

/-- The database with `staleRow` only. -/
def staleDb : EvaluationDb := ⟨⟨[staleRow], by simp⟩, none⟩

/-- Two hosts that run nothing. -/
def noProcesses : Hosts Bool := ⟨fun _ => Table.empty, fun _ => none, 0⟩

theorem fromMetadata_staleRow :
    ExecutionAttempt.fromMetadata staleRow.resultMetadata = some launchedAttempt :=
  ExecutionAttempt.fromMetadata_of_get rfl (by decide) (by decide)

/-- The record of the row is that of the launch. -/
theorem recorded_staleRow {s : Hosts Bool}
    (h : (s.attempts "attempt").map Launch.pid = some 100) : s.Recorded staleRow := by
  intro attempt hattempt launch hlaunch
  rw [fromMetadata_staleRow] at hattempt
  cases hattempt
  rw [show s.attempts "attempt" = some launch from hlaunch] at h
  exact h.symm

/-- Recovery on the host of the attempt signals the attempt's two processes. -/
theorem recovers_own_same_host :
    ∃ s, (hostProcesses Bool).Reach always s ∧
      (s.signalled posixOs true staleRow).map OsProcess.pid = [100, 101] ∧
      ∀ row ∈ staleDb.evaluations, row.isStale 10 = true →
        ∀ row' ∈ (staleDb.recoverStaleRunning 10 3 20
          (fun _ => hostView posixOs (s.processes true))).evaluations, row'.id = row.id →
          s.RecoversOwn posixOs true row row' := by
  obtain ⟨s, hreach, htest⟩ : ∃ s, (hostProcesses Bool).Reach always s ∧
      decide ((s.signalled posixOs true staleRow).map OsProcess.pid = [100, 101] ∧
        (s.attempts "attempt").map Launch.pid = some 100 ∧
        (∀ p ∈ s.processes true, p.pid = 100 → p.attempt = some "attempt") ∧
        ∀ p ∈ s.processes false, p.attempt = none) = true :=
    System.reach_of_test noProcesses launchRun _ ⟨fun _ => rfl, rfl⟩ (by decide)
  obtain ⟨hsignalled, hlaunch, htree, helsewhere⟩ := of_decide_eq_true htest
  have hrow : ∀ row ∈ staleDb.evaluations, row = staleRow := by
    intro row hrow
    simpa [Table.mem_iff, staleDb] using hrow
  refine ⟨s, hreach, hsignalled, (recovers_own_iff posixOs true staleDb 10 3 20 (fun _ => s)
    (fun _ _ _ => hreach) ?_).mpr ?_⟩
  · intro row hmem _
    rw [hrow row hmem]
    exact recorded_staleRow hlaunch
  · intro row hmem _
    rw [hrow row hmem]
    constructor
    · intro attempt hattempt p hp hpid _
      rw [fromMetadata_staleRow] at hattempt
      cases hattempt
      exact htree p hp (Option.some.inj hpid).symm
    · intro _ attempt _ other p hp hroot _
      cases other with
      | true => rfl
      | false =>
          have hnone := hroot.1
          rw [helsewhere p hp] at hnone
          cases hnone

/-- **The wrong process.**  After the pid has been reused recovery signals a process
that belongs to no attempt; on another host it requeues the row while the attempt's
own process is alive. -/
theorem recovers_own_fails :
    (∃ s, (hostProcesses Bool).Reach always s ∧ s.Recorded staleRow ∧
      ∃ p ∈ s.signalled posixOs true staleRow, p.attempt = none) ∧
    ∃ s, (hostProcesses Bool).Reach always s ∧ s.Recorded staleRow ∧
      (staleRow.recover (hostView posixOs (s.processes false)) 3 20).status = .queued ∧
      ¬ (s.contained posixOs false staleRow).Ended "attempt" := by
  constructor
  · obtain ⟨s, hreach, htest⟩ : ∃ s, (hostProcesses Bool).Reach always s ∧
        decide ((s.attempts "attempt").map Launch.pid = some 100 ∧
          ∃ p ∈ s.signalled posixOs true staleRow, p.attempt = none) = true :=
      System.reach_of_test noProcesses pidReusedRun _ ⟨fun _ => rfl, rfl⟩ (by decide)
    obtain ⟨hlaunch, hsignalled⟩ := of_decide_eq_true htest
    exact ⟨s, hreach, recorded_staleRow hlaunch, hsignalled⟩
  · obtain ⟨s, hreach, htest⟩ : ∃ s, (hostProcesses Bool).Reach always s ∧
        decide ((s.attempts "attempt").map Launch.pid = some 100 ∧
          (staleRow.recover (hostView posixOs (s.processes false)) 3 20).status = .queued ∧
          ∃ p ∈ (s.contained posixOs false staleRow).processes true,
            p.IsRootOf "attempt" ∧ p.zombie = false) = true :=
      System.reach_of_test noProcesses launchRun _ ⟨fun _ => rfl, rfl⟩ (by decide)
    obtain ⟨hlaunch, hqueued, p, hp, hroot, halive⟩ := of_decide_eq_true htest
    refine ⟨s, hreach, recorded_staleRow hlaunch, hqueued, ?_⟩
    intro hended
    have hzombie := hended true p hp hroot
    rw [halive] at hzombie
    cases hzombie

end Hosts

end ChallengeForge
