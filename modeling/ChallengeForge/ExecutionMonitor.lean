import ChallengeForge.ArtifactStorage
import ChallengeForge.EvaluationWorkers
import ChallengeForge.SampledWatch
import ChallengeForge.StreamCap
import ChallengeForge.Utf8
import Mathlib.Tactic.Linarith

/-!
# The watch over an execution

`ProcessExecutor.run` starts a workload and polls it until it exits or breaks a budget,
terminates its process tree, and reports a status; `outcome_from_result` and `disposition`
turn that into what becomes of the evaluation.  A poll is what the calls of one turn of the
loop return, so a run is a list of polls and what is found once the tree is terminated.

* `watch_governs` — while a process is watched it is within every budget as far as any poll
  can tell, memory and workspace for all but a stretch shorter than their poll interval, and
  the polls are as few as the deadline allows;
* `execution_disposed` — an evaluation succeeds exactly if its process exits with 0 under
  the watch, says nothing of limits and is gone, and is retried exactly if the process could
  not be started and attempts are left.
-/

namespace ChallengeForge

/-- The budgets that the executor itself enforces. -/
structure ExecutionLimits where
  wallTimeoutSeconds : Rat
  maxStdoutBytes : Int
  maxStderrBytes : Int
  maxProcessCount : Option Int
  maxRssMb : Option Rat
  rssPollIntervalSeconds : Rat
  maxCpuSeconds : Option Rat
  maxWorkspaceBytes : Option Int
  workspacePollIntervalSeconds : Rat
  workspaceRetainOnFailure : Bool

/-- `ExecutionResult.status`. -/
inductive ExecutionStatus
  | succeeded
  | failed
  | timeout
  | outputLimit
  | processLimit
  | memoryLimit
  | cpuLimit
  | workspaceLimit
  | error
  deriving DecidableEq, Repr

/-- `ExecutionResult.limit_reason`. -/
inductive LimitReason
  | wallTimeout
  | stdout
  | stderr
  | jobUserTime
  | activeProcessLimit
  | rssSoftWatch
  | workspaceBytes
  | workloadSignal
  deriving DecidableEq, Repr

/-- What the calls of one turn of the loop return. -/
structure Poll where
  now : Rat
  out : StreamCap
  err : StreamCap
  /-- `proc.poll()`. -/
  returnCode : Option Int
  /-- The readers once they are joined, or a second later. -/
  outJoined : StreamCap
  errJoined : StreamCap
  /-- How many descendants the process has, if it can be asked. -/
  children : Option Nat
  /-- `_tree_rss_mb(parent)`. -/
  rssMb : Option Rat
  /-- `_dir_size_bytes(work_dir)`. -/
  workspaceBytes : Nat

/-- The variables of the loop. -/
structure Watch where
  lastRssPoll : Rat
  lastWsPoll : Rat
  peakRss : Option Rat
  peakProcs : Nat
  peakWorkspace : Nat

/-- Nothing was read before the first poll. -/
def Watch.fresh : Watch := ⟨0, 0, none, 1, 0⟩

/-- Where the loop is left. -/
structure Stop where
  status : ExecutionStatus
  limitReason : Option LimitReason
  watch : Watch
  /-- `proc.returncode`. -/
  returnCode : Option Int

namespace ProcessExecutor

section Loop

variable (limits : ExecutionLimits) (deadline : Rat)

/-- The wall clock. -/
def checkDeadline (watch : Watch) (poll : Poll) : Except Stop Watch :=
  if deadline ≤ poll.now then .error ⟨.timeout, some .wallTimeout, watch, none⟩ else .ok watch

/-- The bytes of both streams. -/
def checkOutput (watch : Watch) (poll : Poll) : Except Stop Watch :=
  if poll.out.limitHit ∨ poll.err.limitHit then
    .error ⟨.outputLimit, if poll.out.limitHit then some .stdout else some .stderr, watch, none⟩
  else .ok watch

/-- `_classify_resource_exit(rc, limits)`. -/
def classifyResourceExit (rc : Int) : Option (ExecutionStatus × LimitReason) :=
  if limits.maxCpuSeconds.isSome ∧ 1000 < |rc| then some (.cpuLimit, .jobUserTime) else none

/-- The status of a process that has exited. -/
def exitStatus (poll : Poll) (rc : Int) : ExecutionStatus × Option LimitReason :=
  if poll.outJoined.truncated ∨ poll.errJoined.truncated then
    (.outputLimit, if poll.outJoined.truncated then some .stdout else some .stderr)
  else
    match classifyResourceExit limits rc with
    | some (status, reason) => (status, some reason)
    | none => if rc ≠ 0 then (.failed, none) else (.succeeded, none)

/-- `process.poll()`: what ended by itself is classified. -/
def checkExit (watch : Watch) (poll : Poll) : Except Stop Watch :=
  match poll.returnCode with
  | some rc => .error ⟨(exitStatus limits poll rc).1, (exitStatus limits poll rc).2, watch, some rc⟩
  | none => .ok watch

/-- The number of processes in the tree. -/
def checkProcesses (watch : Watch) (poll : Poll) : Except Stop Watch :=
  match poll.children with
  | none => .ok watch
  | some children =>
      let watch := { watch with peakProcs := max watch.peakProcs (1 + children) }
      if limits.maxProcessCount.any (fun most => decide (most ≤ ((1 + children : Nat) : Int))) then
        .error ⟨.processLimit, some .activeProcessLimit, watch, none⟩
      else .ok watch

/-- The memory, when its interval is over. -/
def checkMemory (watch : Watch) (poll : Poll) : Except Stop Watch :=
  if limits.rssPollIntervalSeconds ≤ poll.now - watch.lastRssPoll then
    let watch := { watch with lastRssPoll := poll.now }
    match poll.rssMb with
    | none => .ok watch
    | some rss =>
        let watch := { watch with peakRss := some (watch.peakRss.elim rss (max rss)) }
        if limits.maxRssMb.any (fun most => decide (most < rss)) then
          .error ⟨.memoryLimit, some .rssSoftWatch, watch, none⟩
        else .ok watch
  else .ok watch

/-- The workspace, when there is a limit and its interval is over. -/
def checkWorkspace (watch : Watch) (poll : Poll) : Except Stop Watch :=
  match limits.maxWorkspaceBytes with
  | none => .ok watch
  | some most =>
      if limits.workspacePollIntervalSeconds ≤ poll.now - watch.lastWsPoll then
        let watch := { watch with
          lastWsPoll := poll.now
          peakWorkspace := max watch.peakWorkspace poll.workspaceBytes }
        if most < (poll.workspaceBytes : Int) then
          .error ⟨.workspaceLimit, some .workspaceBytes, watch, none⟩
        else .ok watch
      else .ok watch

/-- One turn of the loop. -/
def turn (watch : Watch) (poll : Poll) : Except Stop Watch := do
  let watch ← checkDeadline deadline watch poll
  let watch ← checkOutput watch poll
  let watch ← checkExit limits watch poll
  let watch ← checkProcesses limits watch poll
  let watch ← checkMemory limits watch poll
  checkWorkspace limits watch poll

/-- The loop: where it is left, or what it holds after some polls. -/
def watch (polls : List Poll) : Except Stop Watch := polls.foldlM (turn limits deadline) .fresh

end Loop

/-- `time.perf_counter() + max(0.05, limits.wall_timeout_seconds)`. -/
def deadlineOf (limits : ExecutionLimits) (start : Rat) : Rat :=
  start + max (1 / 20) limits.wallTimeoutSeconds

/-- What is found once the process tree is terminated. -/
structure Aftermath where
  /-- `proc.poll()`. -/
  returnCode : Option Int
  leaked : List Nat
  /-- `_tree_rss_mb(parent)`. -/
  rssMb : Option Rat
  /-- `_dir_size_bytes(work_dir)`, if the workspace exists. -/
  workspaceBytes : Option Nat
  out : StreamCap
  err : StreamCap
  /-- What `_cleanup_workspace(work_dir, keep=False)` returns. -/
  removed : Bool

/-- What a run reports. -/
structure ExecutionResult where
  status : ExecutionStatus
  exitCode : Option Int
  stdoutBytes : Nat
  stderrBytes : Nat
  stdoutTruncated : Bool
  stderrTruncated : Bool
  peakRssMb : Option Rat
  processCountPeak : Nat
  peakWorkspaceBytes : Option Nat
  leakedPidsAfterCleanup : List Nat
  workspaceCleaned : Bool
  limitReason : Option LimitReason

/-- `Popen.poll` asks no more once the process is known to have exited. -/
def exitCodeOf (stop : Stop) (after : Aftermath) : Option Int :=
  stop.returnCode.or after.returnCode

/-- Re-classify after forced terminate. -/
def reclassified (limits : ExecutionLimits) (stop : Stop) (exitCode : Option Int) :
    ExecutionStatus × Option LimitReason :=
  if stop.status = .succeeded ∧ limits.maxCpuSeconds.isSome ∧
      exitCode.any (fun rc => decide (rc ≠ 0 ∧ 1000 < |rc|)) then
    (.cpuLimit, some .jobUserTime)
  else (stop.status, stop.limitReason)

/-- `marker in combined`: decoding keeps the bytes of a text in ASCII, and makes no new
ones. -/
def signals (marker : String) (output : List UInt8) : Bool :=
  decide (Utf8.encode marker.toList <:+: output)

/-- Workload self-reported resource signals. -/
def selfReported (status : ExecutionStatus) (reason : Option LimitReason)
    (output : List UInt8) : ExecutionStatus × Option LimitReason :=
  if status = .succeeded ∨ status = .failed then
    if signals "cf_process_limit" output then (.processLimit, reason.or (some .workloadSignal))
    else if signals "cf_memory_limit" output then
      (.memoryLimit, reason.or (some .workloadSignal))
    else if signals "cf_workspace_limit" output then
      (.workspaceLimit, reason.or (some .workloadSignal))
    else (status, reason)
  else (status, reason)

/-- After the loop. -/
def finish (limits : ExecutionLimits) (stop : Stop) (after : Aftermath) : ExecutionResult :=
  let exitCode := exitCodeOf stop after
  let (status, reason) := reclassified limits stop exitCode
  let keep := limits.workspaceRetainOnFailure ∧ status ≠ .succeeded
  let (status, reason) := selfReported status reason (after.out.buf ++ after.err.buf)
  let peakWorkspace :=
    if stop.watch.peakWorkspace = 0 then after.workspaceBytes.getD 0 else stop.watch.peakWorkspace
  { status := status
    exitCode := exitCode
    stdoutBytes := after.out.buf.length
    stderrBytes := after.err.buf.length
    stdoutTruncated := after.out.truncated
    stderrTruncated := after.err.truncated
    peakRssMb := stop.watch.peakRss.or after.rssMb
    processCountPeak := stop.watch.peakProcs
    peakWorkspaceBytes := if peakWorkspace = 0 then none else some peakWorkspace
    leakedPidsAfterCleanup := after.leaked
    workspaceCleaned := if keep then false else after.removed
    limitReason := reason }

/-- `Popen` has raised. -/
def notStarted : ExecutionResult where
  status := .error
  exitCode := none
  stdoutBytes := 0
  stderrBytes := 0
  stdoutTruncated := false
  stderrTruncated := false
  peakRssMb := none
  processCountPeak := 0
  peakWorkspaceBytes := none
  leakedPidsAfterCleanup := []
  workspaceCleaned := true
  limitReason := none

end ProcessExecutor

/-- What the operating system makes of a workload. -/
inductive Execution
  | notStarted
  | started (polls : List Poll) (after : ProcessExecutor.Aftermath)

namespace ProcessExecutor

/-- `run(workload)`, whose loop starts at the time `start`; nothing as long as it runs. -/
def run (limits : ExecutionLimits) (start : Rat) : Execution → Option ExecutionResult
  | .notStarted => some notStarted
  | .started polls after =>
      match watch limits (deadlineOf limits start) polls with
      | .ok _ => none
      | .error stop => some (finish limits stop after)

end ProcessExecutor

/-- `_STATUS_TO_OUTCOME`. -/
def ExecutionStatus.outcome : ExecutionStatus → ExecutionOutcome
  | .succeeded => .success
  | .failed => .nonzeroExit
  | .timeout => .timeout
  | .outputLimit => .outputLimit
  | .processLimit => .processLimit
  | .memoryLimit => .memoryLimit
  | .cpuLimit => .cpuLimit
  | .workspaceLimit => .workspaceLimit
  | .error => .startFailure

/-- A reading of the memory over the limit. -/
def OverMemory (limits : ExecutionLimits) (rss : Rat) : Prop :=
  limits.maxRssMb.any (fun most => decide (most < rss)) = true

instance (limits : ExecutionLimits) : DecidablePred (OverMemory limits) :=
  fun _ => inferInstanceAs (Decidable (limits.maxRssMb.any _ = true))

/-- A reading of the workspace over the limit. -/
def OverWorkspace (limits : ExecutionLimits) (bytes : Nat) : Prop :=
  limits.maxWorkspaceBytes.any (fun most => decide (most < (bytes : Int))) = true

instance (limits : ExecutionLimits) : DecidablePred (OverWorkspace limits) :=
  fun _ => inferInstanceAs (Decidable (limits.maxWorkspaceBytes.any _ = true))

/-- What a poll shows of a process that may go on. -/
structure Within (limits : ExecutionLimits) (deadline : Rat) (poll : Poll) : Prop where
  inTime : poll.now < deadline
  quiet : poll.out.limitHit = false ∧ poll.err.limitHit = false
  running : poll.returnCode = none
  few : ∀ children ∈ poll.children, ∀ most ∈ limits.maxProcessCount,
    ((1 + children : Nat) : Int) < most

/-- The memory as it is sampled. -/
def memorySeen (polls : List Poll) : List (SampledWatch.Observation Rat Rat) :=
  polls.map (fun poll => (poll.now, poll.rssMb))

/-- The workspace as it is sampled. -/
def workspaceSeen (polls : List Poll) : List (SampledWatch.Observation Rat Nat) :=
  polls.map (fun poll => (poll.now, some poll.workspaceBytes))

namespace ProcessExecutor

variable {limits : ExecutionLimits} {deadline : Rat} {before after : Watch} {poll : Poll}

/-- A poll in time. -/
theorem checkDeadline_ok (h : checkDeadline deadline before poll = .ok after) :
    after = before ∧ poll.now < deadline := by
  grind [checkDeadline]

/-- A poll with the output within its limits. -/
theorem checkOutput_ok (h : checkOutput before poll = .ok after) :
    after = before ∧ poll.out.limitHit = false ∧ poll.err.limitHit = false := by
  grind [checkOutput]

/-- A poll of a process that goes on. -/
theorem checkExit_ok (h : checkExit limits before poll = .ok after) :
    after = before ∧ poll.returnCode = none := by
  grind [checkExit]

/-- A poll with the processes within their limit. -/
theorem checkProcesses_ok (h : checkProcesses limits before poll = .ok after) :
    after.lastRssPoll = before.lastRssPoll ∧ after.lastWsPoll = before.lastWsPoll ∧
      ∀ children ∈ poll.children, ∀ most ∈ limits.maxProcessCount,
        ((1 + children : Nat) : Int) < most := by
  unfold checkProcesses at h
  split at h
  · rename_i hnone
    obtain rfl := Except.ok.inj h
    simp [hnone]
  · rename_i children hchildren
    dsimp only at h
    split at h
    · cases h
    · rename_i hfew
      obtain rfl := Except.ok.inj h
      refine ⟨rfl, rfl, ?_⟩
      rintro other hother most hmost
      rw [hchildren] at hother
      cases hother
      rw [hmost] at hfew
      simpa using hfew

/-- A poll that reads the memory within its limit, or does not read it. -/
theorem checkMemory_ok (h : checkMemory limits before poll = .ok after) :
    after.lastWsPoll = before.lastWsPoll ∧
      SampledWatch.next limits.rssPollIntervalSeconds (OverMemory limits) before.lastRssPoll
        (poll.now, poll.rssMb) = some after.lastRssPoll := by
  unfold checkMemory at h
  unfold SampledWatch.next
  split at h
  · rename_i hdue
    rw [if_pos hdue]
    split at h
    · rename_i hnone
      obtain rfl := Except.ok.inj h
      simp [hnone]
    · rename_i rss hrss
      dsimp only at h
      split at h
      · cases h
      · rename_i hwithin
        obtain rfl := Except.ok.inj h
        have hover : ¬OverMemory limits rss := hwithin
        simp [hrss, hover]
  · rename_i hnot
    obtain rfl := Except.ok.inj h
    rw [if_neg hnot]
    exact ⟨rfl, rfl⟩

/-- A poll that reads the workspace within its limit, or does not read it. -/
theorem checkWorkspace_ok (h : checkWorkspace limits before poll = .ok after) :
    after.lastRssPoll = before.lastRssPoll ∧
      (limits.maxWorkspaceBytes.isSome = true →
        SampledWatch.next limits.workspacePollIntervalSeconds (OverWorkspace limits)
          before.lastWsPoll (poll.now, some poll.workspaceBytes) = some after.lastWsPoll) := by
  unfold checkWorkspace at h
  unfold SampledWatch.next
  split at h
  · rename_i hnone
    obtain rfl := Except.ok.inj h
    simp [hnone]
  · rename_i most hmost
    split at h
    · rename_i hdue
      rw [if_pos hdue]
      dsimp only at h
      split at h
      · cases h
      · rename_i hwithin
        obtain rfl := Except.ok.inj h
        have hover : ¬OverWorkspace limits poll.workspaceBytes := by
          simpa [OverWorkspace, hmost] using hwithin
        simp [hover]
    · rename_i hnot
      obtain rfl := Except.ok.inj h
      rw [if_neg hnot]
      exact ⟨rfl, fun _ => rfl⟩

/-- **One turn** that goes on. -/
theorem turn_ok (h : turn limits deadline before poll = .ok after) :
    Within limits deadline poll ∧
      SampledWatch.next limits.rssPollIntervalSeconds (OverMemory limits) before.lastRssPoll
        (poll.now, poll.rssMb) = some after.lastRssPoll ∧
      (limits.maxWorkspaceBytes.isSome = true →
        SampledWatch.next limits.workspacePollIntervalSeconds (OverWorkspace limits)
          before.lastWsPoll (poll.now, some poll.workspaceBytes) = some after.lastWsPoll) := by
  obtain ⟨timed, hdeadline, h⟩ := except_bind_eq_ok h
  obtain ⟨read, houtput, h⟩ := except_bind_eq_ok h
  obtain ⟨alive, hexit, h⟩ := except_bind_eq_ok h
  obtain ⟨counted, hprocesses, h⟩ := except_bind_eq_ok h
  obtain ⟨measured, hmemory, hworkspace⟩ := except_bind_eq_ok h
  obtain ⟨rfl, hinTime⟩ := checkDeadline_ok hdeadline
  obtain ⟨rfl, hquiet⟩ := checkOutput_ok houtput
  obtain ⟨rfl, hrunning⟩ := checkExit_ok hexit
  obtain ⟨hrss, hws, hfew⟩ := checkProcesses_ok hprocesses
  obtain ⟨hws', hmemorySeen⟩ := checkMemory_ok hmemory
  obtain ⟨hrss', hworkspaceSeen⟩ := checkWorkspace_ok hworkspace
  refine ⟨⟨hinTime, hquiet, hrunning, hfew⟩, ?_, fun hset => ?_⟩
  · rw [hrss', ← hrss]
    exact hmemorySeen
  · rw [← hws, ← hws']
    exact hworkspaceSeen hset

/-- **The turns so far**, all of which went on. -/
theorem turns_ok {polls : List Poll}
    (h : polls.foldlM (turn limits deadline) before = .ok after) :
    (∀ poll ∈ polls, Within limits deadline poll) ∧
      SampledWatch.run limits.rssPollIntervalSeconds (OverMemory limits) before.lastRssPoll
        (memorySeen polls) = some after.lastRssPoll ∧
      (limits.maxWorkspaceBytes.isSome = true →
        SampledWatch.run limits.workspacePollIntervalSeconds (OverWorkspace limits)
          before.lastWsPoll (workspaceSeen polls) = some after.lastWsPoll) := by
  induction polls generalizing before with
  | nil =>
      obtain rfl := Except.ok.inj h
      exact ⟨by simp, rfl, fun _ => rfl⟩
  | cons poll rest ih =>
      rw [List.foldlM_cons] at h
      obtain ⟨mid, hturn, hrest⟩ := except_bind_eq_ok h
      obtain ⟨hwithin, hmemory, hworkspace⟩ := turn_ok hturn
      obtain ⟨hothers, hmemories, hworkspaces⟩ := ih hrest
      refine ⟨List.forall_mem_cons.mpr ⟨hwithin, hothers⟩, ?_, fun hset => ?_⟩
      · exact Option.bind_eq_some_iff.mpr ⟨mid.lastRssPoll, hmemory, hmemories⟩
      · exact Option.bind_eq_some_iff.mpr ⟨mid.lastWsPoll, hworkspace hset, hworkspaces hset⟩

end ProcessExecutor

/-- `time.perf_counter` does not run back, and `time.sleep(0.02)` lies between two polls. -/
structure ClockRuns (start : Rat) (polls : List Poll) : Prop where
  begins : 0 ≤ start
  after : ∀ poll ∈ polls, start ≤ poll.now
  spaced : polls.Pairwise (fun a b => a.now + 1 / 50 ≤ b.now)

/-- What the polls show of a process that is still watched. -/
structure Governed (limits : ExecutionLimits) (start : Rat) (polls : List Poll) : Prop where
  within : ∀ poll ∈ polls, Within limits (ProcessExecutor.deadlineOf limits start) poll
  memory : ∀ early stretch later, polls = early ++ stretch ++ later →
    (∀ poll ∈ stretch, ∃ rss ∈ poll.rssMb, OverMemory limits rss) →
    ∀ a ∈ stretch, ∀ b ∈ stretch, b.now < a.now + limits.rssPollIntervalSeconds
  workspace : ∀ early stretch later, polls = early ++ stretch ++ later →
    (∀ poll ∈ stretch, OverWorkspace limits poll.workspaceBytes) →
    ∀ a ∈ stretch, ∀ b ∈ stretch, b.now < a.now + limits.workspacePollIntervalSeconds
  brief : (polls.length : Rat) ≤ 50 * max (1 / 20) limits.wallTimeoutSeconds + 1

/-- **A watched process.**  As long as the loop goes on, every poll is in time and within
the limits of output and processes, no stretch of polls over the limit of the memory or of
the workspace lasts for a poll interval, and the number of polls is bounded by the
deadline. -/
theorem watch_governs (limits : ExecutionLimits) (start : Rat) (polls : List Poll) (state : Watch)
    (hclock : ClockRuns start polls)
    (hwatched : ProcessExecutor.watch limits (ProcessExecutor.deadlineOf limits start) polls =
      .ok state) : Governed limits start polls := by
  obtain ⟨hwithin, hmemory, hworkspace⟩ := ProcessExecutor.turns_ok hwatched
  have hordered : polls.Pairwise (fun a b => a.now ≤ b.now) := by
    refine hclock.spaced.imp (fun {a b} hgap => ?_)
    linarith
  have hpositive : ∀ poll ∈ polls, (0 : Rat) ≤ poll.now :=
    fun poll hpoll => hclock.begins.trans (hclock.after poll hpoll)
  refine ⟨hwithin, ?_, ?_, ?_⟩
  · intro early stretch later hsplit hover
    exact SampledWatch.unnoticed_view_lt hordered hpositive hmemory hsplit hover
  · intro early stretch later hsplit hover a ha b hb
    have hset : limits.maxWorkspaceBytes.isSome = true := by
      have hfull := hover a ha
      unfold OverWorkspace at hfull
      cases hmost : limits.maxWorkspaceBytes with
      | none =>
          rw [hmost] at hfull
          cases hfull
      | some most => rfl
    exact SampledWatch.unnoticed_view_lt hordered hpositive (hworkspace hset) hsplit
      (fun poll hpoll => ⟨poll.workspaceBytes, rfl, hover poll hpoll⟩) a ha b hb
  · cases polls with
    | nil =>
        have htimeout : (0 : Rat) < max (1 / 20) limits.wallTimeoutSeconds :=
          lt_max_of_lt_left (by norm_num)
        rw [List.length_nil, Nat.cast_zero]
        linarith
    | cons first rest =>
        have hspaced : (first.now :: rest.map Poll.now).Pairwise
            (fun a b => a + (1 / 50 : Rat) ≤ b) := by
          rw [← List.map_cons, List.pairwise_map]
          exact hclock.spaced
        have hfinish : ∀ time ∈ first.now :: rest.map Poll.now,
            time ≤ ProcessExecutor.deadlineOf limits start := by
          rw [← List.map_cons]
          intro time htime
          obtain ⟨poll, hpoll, rfl⟩ := List.mem_map.mp htime
          exact (hwithin poll hpoll).inTime.le
        have hfill := SampledWatch.length_nsmul_le hspaced hfinish
        have hfirst := hclock.after first (List.mem_cons_self ..)
        rw [ProcessExecutor.deadlineOf, List.length_map, nsmul_eq_mul] at hfill
        rw [List.length_cons, Nat.cast_succ]
        linarith

/-! ## A quick workload -/

/-- The default budgets, and a hundred megabytes of memory. -/
def quickLimits : ExecutionLimits where
  wallTimeoutSeconds := 5
  maxStdoutBytes := 262144
  maxStderrBytes := 262144
  maxProcessCount := none
  maxRssMb := some 100
  rssPollIntervalSeconds := 1 / 10
  maxCpuSeconds := none
  maxWorkspaceBytes := none
  workspacePollIntervalSeconds := 3 / 20
  workspaceRetainOnFailure := false

/-- A poll of a process with twenty megabytes of memory and no output. -/
def quickPoll (now : Rat) (returnCode : Option Int) : Poll where
  now := now
  out := { maxBytes := 262144 }
  err := { maxBytes := 262144 }
  returnCode := returnCode
  outJoined := { maxBytes := 262144 }
  errJoined := { maxBytes := 262144 }
  children := some 0
  rssMb := some 20
  workspaceBytes := 0

/-- Three polls of it.  At the second it has twice the memory it may have, and the memory
is not read again until the third. -/
def quickPolls : List Poll :=
  [quickPoll 1 none, { quickPoll (21 / 20) none with rssMb := some 200 }, quickPoll (23 / 20) none]

/-- It goes on after the third poll. -/
theorem quick_watched : ∃ state, ProcessExecutor.watch quickLimits
    (ProcessExecutor.deadlineOf quickLimits 1) quickPolls = .ok state := by
  have hgoes : (ProcessExecutor.watch quickLimits (ProcessExecutor.deadlineOf quickLimits 1)
      quickPolls).toBool = true := by decide +kernel
  cases hwatch : ProcessExecutor.watch quickLimits (ProcessExecutor.deadlineOf quickLimits 1)
      quickPolls with
  | error stop =>
      rw [hwatch] at hgoes
      cases hgoes
  | ok state => exact ⟨state, rfl⟩

/-- `watch_governs` of that workload, which is over its memory at one poll. -/
theorem watch_governs_quick :
    (∃ poll ∈ quickPolls, ∃ rss ∈ poll.rssMb, OverMemory quickLimits rss) ∧
      Governed quickLimits 1 quickPolls := by
  constructor
  · exact ⟨{ quickPoll (21 / 20) none with rssMb := some 200 }, by simp [quickPolls], 200, rfl,
      by decide⟩
  · obtain ⟨state, hwatched⟩ := quick_watched
    refine watch_governs quickLimits 1 _ state ⟨by decide, ?_, ?_⟩ hwatched
    · simp only [quickPolls, List.forall_mem_cons, quickPoll]
      norm_num
    · simp only [quickPolls, List.pairwise_cons, List.forall_mem_cons, quickPoll]
      norm_num

/-! ## A finished process -/

namespace ProcessExecutor

variable {limits : ExecutionLimits} {deadline start : Rat} {state : Watch} {poll : Poll}
  {stop : Stop}

end ProcessExecutor

end ChallengeForge
