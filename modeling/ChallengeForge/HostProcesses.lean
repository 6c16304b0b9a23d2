import ChallengeForge.EvaluationWrites
import ChallengeForge.LabelledSystem

/-!
# Processes of the hosts

The process tables of the hosts on which workers run, and how they evolve: a
process forks, exits, stays behind as a zombie until it is reaped, and leaves its
pid to the next one.  A child belongs to the execution attempt its parent belongs
to; a worker launches the root of a new attempt.

* `containAttempt` — containment of an attempt on one host, as `contain_attempt`
  does it: by pid;
* `Lineage` — what the tables of a reachable state say about the attempts.
-/

namespace ChallengeForge

open Keyed Labelled

/-- A process of a host. -/
structure OsProcess where
  pid : Int
  /-- `none` for a process adopted by init. -/
  ppid : Option Int
  /-- Its creation time. -/
  born : Nat
  zombie : Bool
  /-- The execution attempt to whose tree it belongs. -/
  attempt : Option String
  /-- It is the process that was started for the attempt. -/
  root : Bool
  deriving DecidableEq

/-- A pid names one process at a time. -/
abbrev ProcessTable := Table OsProcess OsProcess.pid

/-- The process was started for the attempt. -/
def OsProcess.IsRootOf (p : OsProcess) (attemptId : String) : Prop :=
  p.attempt = some attemptId ∧ p.root = true

instance (p : OsProcess) (attemptId : String) : Decidable (p.IsRootOf attemptId) :=
  inferInstanceAs (Decidable (_ ∧ _))

namespace ProcessTable

/-- `pid_exists(pid) and status() != STATUS_ZOMBIE`. -/
def alive (t : ProcessTable) (pid : Int) : Bool :=
  (t.find? pid).any (fun p => !p.zombie)

theorem alive_iff {t : ProcessTable} {pid : Int} :
    t.alive pid = true ↔ ∃ p ∈ t, p.pid = pid ∧ p.zombie = false := by
  simp only [alive, Option.any_eq_true, Bool.not_eq_true']
  constructor
  · rintro ⟨p, hfound, halive⟩
    exact ⟨p, Table.mem_of_find? hfound, Table.key_of_find? hfound, halive⟩
  · rintro ⟨p, hp, rfl, halive⟩
    exact ⟨p, Table.find?_of_mem hp, halive⟩

/-- A process is the child of the one its `ppid` names, unless that one is younger. -/
def Child (t : ProcessTable) (p q : OsProcess) : Prop :=
  q ∈ t ∧ q.ppid = some p.pid ∧ p.born < q.born

/-- Children, their children, and so on. -/
def Descends (t : ProcessTable) : OsProcess → OsProcess → Prop := Relation.TransGen t.Child

end ProcessTable

/-- The ways of ending a process. -/
inductive EndSignal
  | taskkill
  | terminate
  | kill
  deriving DecidableEq

/-- The operating system and `psutil`, as containment meets them. -/
structure HostOs where
  /-- `os.name == "nt"`. -/
  nt : Bool
  /-- `Process.children(recursive=True)`. -/
  descendants : ProcessTable → OsProcess → List OsProcess
  descends : ∀ t p q, q ∈ descendants t p → t.Descends p q
  /-- The process outlives the signal. -/
  outlives : EndSignal → OsProcess → Bool
  /-- `Path(workspace).exists()`. -/
  pathExists : String → Bool

/-! ## Containment -/

section Containment

variable (os : HostOs) (t : ProcessTable)

/-- `pid_alive`. -/
def pidAlive (pid : Option Int) : Bool :=
  pid.any (fun pid => decide (0 < pid) && t.alive pid)

/-- The root, if it is alive, and all its descendants. -/
def collectTreePids (rootPid : Option Int) : List Int :=
  if pidAlive t rootPid then
    match rootPid.bind t.find? with
    | some root => root.pid :: (os.descendants t root).map OsProcess.pid
    | none => []
  else []

/-- What containment does on a host: whom it signals and what is left. -/
structure ContainmentRun where
  signalled : List OsProcess
  processes : ProcessTable
  report : Containment

/-- `contain_attempt`: terminate the tree, wait, and kill what is left. -/
def containAttempt (attempt : ExecutionAttempt) : ContainmentRun :=
  let pids := collectTreePids os t attempt.rootPid
  let procs := pids.filterMap t.find?
  -- on Windows `taskkill /T` goes before, on the same tree
  let taskkill := os.nt && pidAlive t attempt.rootPid
  let struck := if taskkill then procs else []
  let terminated := if taskkill then procs.filter (os.outlives .taskkill) else procs
  let killed := terminated.filter (os.outlives .terminate)
  let left := killed.filter (os.outlives .kill)
  let processes := t.delete (fun p => decide (p ∈ procs ∧ p ∉ left))
  { signalled := struck ++ terminated ++ killed
    processes := processes
    report :=
      { wasAlive := pidAlive t attempt.rootPid
        killedPids := (if taskkill then attempt.rootPid.toList else []) ++
          terminated.map OsProcess.pid ++ killed.map OsProcess.pid
        stillAlive := pids.filter (fun pid => pidAlive processes (some pid))
        workspaceExists := attempt.workspace.any os.pathExists } }

/-- What stale recovery sees of the host it runs on. -/
def hostView : OsView where
  processAlive := t.alive
  containAttempt attempt := (containAttempt os t attempt).report

@[simp] theorem orphanSuspected_hostView (attempt : ExecutionAttempt) :
    (hostView os t).orphanSuspected attempt = pidAlive t attempt.rootPid := by
  cases h : attempt.rootPid <;>
    simp [OsView.orphanSuspected, OsView.pidAlive, hostView, pidAlive, h]

variable {os t}

/-- A pid is alive when a process that is no zombie has it. -/
theorem pidAlive_iff {pid : Option Int} :
    pidAlive t pid = true ↔ ∃ p ∈ t, pid = some p.pid ∧ 0 < p.pid ∧ p.zombie = false := by
  cases pid with
  | none => simp [pidAlive]
  | some n =>
      simp only [pidAlive, Option.any_some, Bool.and_eq_true, decide_eq_true_eq,
        ProcessTable.alive_iff, Option.some.injEq]
      constructor
      · rintro ⟨hpos, p, hp, rfl, halive⟩
        exact ⟨p, hp, rfl, hpos, halive⟩
      · rintro ⟨p, hp, rfl, hpos, halive⟩
        exact ⟨hpos, p, hp, rfl, halive⟩

/-- The pids of a live root: its own, and those of its descendants. -/
theorem collectTreePids_of_root {root : OsProcess} (hroot : root ∈ t) (hpos : 0 < root.pid)
    (halive : root.zombie = false) :
    collectTreePids os t (some root.pid) =
      root.pid :: (os.descendants t root).map OsProcess.pid := by
  have hpid : pidAlive t (some root.pid) = true := pidAlive_iff.mpr ⟨root, hroot, rfl, hpos, halive⟩
  have hfind : t.find? root.pid = some root := Table.find?_of_mem hroot
  simp [collectTreePids, hpid, hfind]

/-- Whoever is signalled is the root or descends from it. -/
theorem signalled_of_root {attempt : ExecutionAttempt} {root : OsProcess} (hroot : root ∈ t)
    (hpos : 0 < root.pid) (halive : root.zombie = false) (hpid : attempt.rootPid = some root.pid)
    {p : OsProcess} (hp : p ∈ (containAttempt os t attempt).signalled) :
    p = root ∨ t.Descends root p := by
  have hprocs : p ∈ (collectTreePids os t attempt.rootPid).filterMap t.find? := by
    simp only [containAttempt, List.mem_append] at hp
    rcases hp with (hstruck | hterminated) | hkilled
    · split at hstruck
      · exact hstruck
      · cases hstruck
    · split at hterminated
      · exact (List.mem_filter.mp hterminated).1
      · exact hterminated
    · have hterminated := (List.mem_filter.mp hkilled).1
      split at hterminated
      · exact (List.mem_filter.mp hterminated).1
      · exact hterminated
  rw [hpid, collectTreePids_of_root hroot hpos halive] at hprocs
  obtain ⟨pid, hmem, hfound⟩ := List.mem_filterMap.mp hprocs
  have hpt := Table.mem_of_find? hfound
  have hkey := Table.key_of_find? hfound
  rcases List.mem_cons.mp hmem with rfl | htree
  · exact Or.inl (Table.eq_of_key_eq hpt hroot hkey)
  · obtain ⟨q, hq, rfl⟩ := List.mem_map.mp htree
    have hdescends := os.descends t root q hq
    have hqt : q ∈ t := by
      cases hdescends with
      | single hchild => exact hchild.1
      | tail _ hchild => exact hchild.1
    obtain rfl : p = q := Table.eq_of_key_eq hpt hqt hkey
    exact Or.inr hdescends

/-- A live root is signalled. -/
theorem root_signalled {attempt : ExecutionAttempt} {root : OsProcess} (hroot : root ∈ t)
    (hpos : 0 < root.pid) (halive : root.zombie = false) (hpid : attempt.rootPid = some root.pid) :
    root ∈ (containAttempt os t attempt).signalled := by
  have hprocs : root ∈ (collectTreePids os t attempt.rootPid).filterMap t.find? := by
    rw [hpid, collectTreePids_of_root hroot hpos halive]
    exact List.mem_filterMap.mpr ⟨root.pid, List.mem_cons_self, Table.find?_of_mem hroot⟩
  simp only [containAttempt, List.mem_append]
  by_cases htaskkill : (os.nt && pidAlive t attempt.rootPid) = true
  · rw [if_pos htaskkill]
    exact Or.inl (Or.inl hprocs)
  · rw [if_neg htaskkill, if_neg htaskkill]
    exact Or.inl (Or.inr hprocs)

/-- Containment starts no process. -/
theorem mem_of_contained {attempt : ExecutionAttempt} {p : OsProcess}
    (hp : p ∈ (containAttempt os t attempt).processes) : p ∈ t :=
  (Table.mem_delete.mp hp).1

/-- A root that is still alive is reported. -/
theorem root_reported {attempt : ExecutionAttempt} {root : OsProcess} (hpos : 0 < root.pid)
    (halive : root.zombie = false) (hpid : attempt.rootPid = some root.pid)
    (hleft : root ∈ (containAttempt os t attempt).processes) :
    (containAttempt os t attempt).report.stillAlive ≠ [] := by
  have hroot := mem_of_contained hleft
  have hreported : root.pid ∈ (containAttempt os t attempt).report.stillAlive := by
    refine List.mem_filter.mpr ⟨?_, pidAlive_iff.mpr ⟨root, hleft, rfl, hpos, halive⟩⟩
    rw [hpid, collectTreePids_of_root hroot hpos halive]
    exact List.mem_cons_self
  exact List.ne_nil_of_mem hreported

end Containment

/-! ## How the tables evolve -/

/-- The process that an attempt started. -/
structure Launch (Host : Type) where
  host : Host
  pid : Int

/-- The process tables of the hosts, and what the attempts started. -/
structure Hosts (Host : Type) where
  processes : Host → ProcessTable
  attempts : String → Option (Launch Host)
  clock : Nat

/-- What the hosts do between two calls of a worker. -/
inductive ProcessEvent (Host : Type)
  /-- A process that no process of the table started. -/
  | start (host : Host) (pid : Int)
  | fork (host : Host) (parent pid : Int)
  /-- A worker starts the process of an attempt. -/
  | launch (host : Host) (worker pid : Int) (attemptId : String)
  | exit (host : Host) (pid : Int)
  /-- A zombie, or a process whose exit nobody waits for, leaves the table; its
  children are adopted, or keep naming it. -/
  | reap (host : Host) (pid : Int) (adopted : Bool)

namespace Hosts

variable {Host : Type} [DecidableEq Host]

/-- One host with another table. -/
def setTable (s : Hosts Host) (host : Host) (t : ProcessTable) : Hosts Host :=
  { s with processes := Function.update s.processes host t }

/-- A process appears, if its pid is free. -/
def appear (s : Hosts Host) (host : Host) (p : OsProcess) : Option (Hosts Host) :=
  if 0 < p.pid then
    ((s.processes host).insert p).map (fun t =>
      { s.setTable host t with clock := s.clock + 1 })
  else none

/-- What an event does; `none` where it cannot happen. -/
def step (s : Hosts Host) : ProcessEvent Host → Option (Hosts Host)
  | .start host pid => s.appear host ⟨pid, none, s.clock, false, none, false⟩
  | .fork host parent pid =>
      ((s.processes host).find? parent).bind (fun p =>
        s.appear host ⟨pid, some p.pid, s.clock, false, p.attempt, false⟩)
  | .launch host worker pid attemptId =>
      match (s.processes host).find? worker, s.attempts attemptId with
      | some w, none =>
          if w.attempt = none then
            (s.appear host ⟨pid, some w.pid, s.clock, false, some attemptId, true⟩).map (fun t =>
              { t with attempts := Function.update s.attempts attemptId (some ⟨host, pid⟩) })
          else none
      | _, _ => none
  | .exit host pid =>
      some (s.setTable host ((s.processes host).update (fun p => decide (p.pid = pid))
        (fun p => { p with zombie := true }) (fun _ => rfl)))
  | .reap host pid adopted =>
      some (s.setTable host (((s.processes host).delete (fun p => decide (p.pid = pid))).update
        (fun p => decide (adopted = true ∧ p.ppid = some pid))
        (fun p => { p with ppid := none }) (fun _ => rfl)))

end Hosts

/-- The hosts, before any attempt was made. -/
def hostProcesses (Host : Type) [DecidableEq Host] : System (Hosts Host) (ProcessEvent Host) where
  start s := (∀ host, (s.processes host).rows = []) ∧ s.attempts = fun _ => none
  step := Hosts.step

end ChallengeForge
