import ChallengeForge.EvaluationStore

/-!
# The writes behind a claim

Everything that happens to a RUNNING row after its claim: the worker's own
writes, all of them one `UPDATE` guarded by `(id, status, worker_id)`; the
execution attempt it records; and the stale recovery run by other workers.

A *settling* rewrite takes a row out of RUNNING and leaves its identity, its
queue position and its attempt number alone.  Every write here but
`beginExecutionAttempt` is the settling of some RUNNING rows
(`complete_eq`, `recover_settles`), which is all that the queue
invariants need to know about it.
-/

namespace ChallengeForge

open Keyed

/-- A rewrite that ends a row's stay in RUNNING. -/
structure Settles (f : EvaluationRow → EvaluationRow) : Prop where
  id : ∀ row, (f row).id = row.id
  submissionId : ∀ row, (f row).submissionId = row.submissionId
  createdAt : ∀ row, (f row).createdAt = row.createdAt
  attemptCount : ∀ row, (f row).attemptCount = row.attemptCount
  status : ∀ row, (f row).status ≠ .running

/-- A rewrite of RUNNING rows that keeps their place in the queue: each is
settled, or stays RUNNING in its class and for its worker. -/
structure RunningRewrite (p : EvaluationRow → Bool) (f : EvaluationRow → EvaluationRow) :
    Prop where
  running : ∀ row, p row = true → row.status = .running
  id : ∀ row, (f row).id = row.id
  createdAt : ∀ row, (f row).createdAt = row.createdAt
  attemptCount : ∀ row, (f row).attemptCount = row.attemptCount
  settled : ∀ row, (f row).status ≠ .running ∨
    (f row).status = row.status ∧ (f row).workloadClass = row.workloadClass ∧
      (f row).workerId = row.workerId

theorem Settles.rewrite {p : EvaluationRow → Bool} {f : EvaluationRow → EvaluationRow}
    (hf : Settles f) (hp : ∀ row, p row = true → row.status = .running) :
    RunningRewrite p f :=
  ⟨hp, hf.id, hf.createdAt, hf.attemptCount, fun row => Or.inl (hf.status row)⟩

theorem Settles.ownedRewrite {f : EvaluationRow → EvaluationRow} (hf : Settles f)
    (id : UUID) (workerId : String) :
    RunningRewrite (EvaluationRow.ownedBy id workerId) f :=
  hf.rewrite (fun _ howned => (EvaluationRow.ownedBy_iff.mp howned).2.1)

namespace EvaluationDb

/-! ## The worker's guarded writes -/

/-- `UPDATE … WHERE id = … AND status = 'running' AND worker_id = …`. -/
def updateOwned (db : EvaluationDb) (id : UUID) (workerId : String)
    (f : EvaluationRow → EvaluationRow) (hf : ∀ row, (f row).id = row.id) : EvaluationDb :=
  { db with evaluations := db.evaluations.update (EvaluationRow.ownedBy id workerId) f hf }

/-- The guarded row exists, so that `RETURNING` yields it. -/
def owns (db : EvaluationDb) (id : UUID) (workerId : String) : Bool :=
  db.evaluations.rows.any (EvaluationRow.ownedBy id workerId)

theorem owns_iff {db : EvaluationDb} {id : UUID} {workerId : String} :
    db.owns id workerId = true ↔ ∃ row ∈ db.evaluations, row.id = id ∧
      row.status = .running ∧ row.workerId = some workerId := by
  simp [owns, Table.mem_iff]

/-- A guarded write that misses its row changes nothing. -/
theorem updateOwned_eq_self {db : EvaluationDb} {id : UUID} {workerId : String}
    {f : EvaluationRow → EvaluationRow} {hf : ∀ row, (f row).id = row.id}
    (h : db.owns id workerId = false) : db.updateOwned id workerId f hf = db := by
  have hnone : ∀ row ∈ db.evaluations, row.ownedBy id workerId = false := by
    intro row hrow
    exact List.any_eq_false.mp h row hrow |> Bool.eq_false_iff.mpr
  simp only [updateOwned, Table.update_eq_self hnone]

/-- Complete only if still RUNNING for this worker (prevents stale writes). -/
def markSucceeded (db : EvaluationDb) (id : UUID) (score : Score)
    (resultMetadata : JsonDict) (workerId : String) (now : Timestamp) : EvaluationDb :=
  db.updateOwned id workerId
    (fun row =>
      { row with
        status := .succeeded
        completedAt := some now
        score := some score
        resultMetadata := resultMetadata
        failureReason := none })
    (fun _ => rfl)

/-- Fail only if still RUNNING for this worker. -/
def markFailed (db : EvaluationDb) (id : UUID) (failureReason : String)
    (resultMetadata : Option JsonDict) (workerId : String) (now : Timestamp) :
    EvaluationDb :=
  db.updateOwned id workerId
    (fun row =>
      { row with
        status := .failed
        completedAt := some now
        failureReason := some failureReason
        score := none
        resultMetadata := resultMetadata.getD row.resultMetadata })
    (fun _ => rfl)

/-- Release RUNNING → QUEUED after a partial progressive stage. -/
def deferEscalation (db : EvaluationDb) (id : UUID) (workerId : String) (nextStage : Nat)
    (workloadClass : WorkloadClass) (resultMetadata : JsonDict) : EvaluationDb :=
  db.updateOwned id workerId
    (fun row =>
      { row with
        status := .queued
        startedAt := none
        workerId := none
        currentStage := nextStage
        workloadClass := workloadClass
        resultMetadata := resultMetadata
        failureReason := none })
    (fun _ => rfl)

/-- Release RUNNING → QUEUED after retryable infrastructure execution failure. -/
def releaseForRetry (db : EvaluationDb) (id : UUID) (workerId : String)
    (resultMetadata : JsonDict) (failureReason : String) : EvaluationDb :=
  db.updateOwned id workerId
    (fun row =>
      { row with
        status := .queued
        startedAt := none
        workerId := none
        resultMetadata := resultMetadata
        failureReason := some failureReason })
    (fun _ => rfl)

/-- The progressive worker's success: `mark_succeeded`, and in the same
transaction the final stage index; rolled back when the guard missed. -/
def markSucceededAtStage (db : EvaluationDb) (id : UUID) (score : Score)
    (resultMetadata : JsonDict) (workerId : String) (nextStage : Nat) (now : Timestamp) :
    EvaluationDb :=
  if db.owns id workerId then
    let db := db.markSucceeded id score resultMetadata workerId now
    { db with
      evaluations := db.evaluations.update (fun row => decide (row.id = id))
        (fun row => { row with currentStage := nextStage }) (fun _ => rfl) }
  else db

end EvaluationDb

/-- How a worker ends its work on a claimed row. -/
inductive Completion
  | succeeded (score : Score) (resultMetadata : JsonDict)
  | succeededAtStage (score : Score) (resultMetadata : JsonDict) (nextStage : Nat)
  | failed (failureReason : String) (resultMetadata : Option JsonDict)
  | deferred (nextStage : Nat) (workloadClass : WorkloadClass) (resultMetadata : JsonDict)
  | released (resultMetadata : JsonDict) (failureReason : String)

namespace EvaluationDb

/-- The repository call behind each completion. -/
def complete (db : EvaluationDb) (id : UUID) (workerId : String) (now : Timestamp) :
    Completion → EvaluationDb
  | .succeeded score metadata => db.markSucceeded id score metadata workerId now
  | .succeededAtStage score metadata stage =>
      db.markSucceededAtStage id score metadata workerId stage now
  | .failed reason metadata => db.markFailed id reason metadata workerId now
  | .deferred stage workload metadata => db.deferEscalation id workerId stage workload metadata
  | .released metadata reason => db.releaseForRetry id workerId metadata reason

/-- The two updates of a progressive success are one guarded update. -/
theorem markSucceededAtStage_eq (db : EvaluationDb) (id : UUID) (score : Score)
    (resultMetadata : JsonDict) (workerId : String) (nextStage : Nat) (now : Timestamp) :
    db.markSucceededAtStage id score resultMetadata workerId nextStage now =
      db.updateOwned id workerId
        (fun row =>
          { row with
            status := .succeeded
            completedAt := some now
            score := some score
            resultMetadata := resultMetadata
            failureReason := none
            currentStage := nextStage })
        (fun _ => rfl) := by
  unfold markSucceededAtStage
  split
  · rename_i howns
    obtain ⟨owned, hmem, hid, hrunning, hworker⟩ := owns_iff.mp howns
    simp only [markSucceeded, updateOwned, EvaluationDb.mk.injEq, and_true]
    apply Table.ext
    simp only [Table.update, List.map_map]
    apply List.map_congr_left
    intro row hrow
    by_cases hkey : row.id = id
    · -- the id names one row, so this is the guarded one
      obtain rfl : row = owned :=
        Table.eq_of_key_eq (t := db.evaluations) hrow hmem (hkey.trans hid.symm)
      simp [hkey, hrunning, hworker]
    · have hmiss : row.ownedBy id workerId = false := by simp [EvaluationRow.ownedBy, hkey]
      simp [hkey, hmiss]
  · rename_i howns
    rw [updateOwned_eq_self (by simpa using howns)]

/-- **Completion normal form.**  Every completion is one guarded update with a
settling rewrite, which forgets the worker when it requeues. -/
theorem complete_eq (db : EvaluationDb) (id : UUID) (workerId : String) (now : Timestamp)
    (c : Completion) :
    ∃ f, ∃ hf : Settles f,
      (∀ row, (f row).workloadClass = row.workloadClass ∨ (f row).status = .queued) ∧
      db.complete id workerId now c = db.updateOwned id workerId f hf.id := by
  cases c with
  | succeeded score metadata =>
      refine ⟨_, ⟨?_, ?_, ?_, ?_, ?_⟩, ?_, rfl⟩ <;> intro row <;> simp
  | succeededAtStage score metadata stage =>
      refine ⟨_, ⟨?_, ?_, ?_, ?_, ?_⟩, ?_, markSucceededAtStage_eq ..⟩ <;>
        intro row <;> simp
  | failed reason metadata =>
      refine ⟨_, ⟨?_, ?_, ?_, ?_, ?_⟩, ?_, rfl⟩ <;> intro row <;> simp
  | deferred stage workload metadata =>
      refine ⟨_, ⟨?_, ?_, ?_, ?_, ?_⟩, ?_, rfl⟩ <;> intro row <;> simp
  | released metadata reason =>
      refine ⟨_, ⟨?_, ?_, ?_, ?_, ?_⟩, ?_, rfl⟩ <;> intro row <;> simp

end EvaluationDb

/-! ## The recorded execution -/

/-- One concrete OS execution bound to an evaluation claim. -/
structure ExecutionAttempt where
  executionAttemptId : String
  evaluationId : String
  workerId : String
  workload : String
  rootPid : Option Int
  pgid : Option Int
  workspace : Option String
  ownership : String
  deriving DecidableEq, Repr

namespace ExecutionAttempt

/-- A number or `null`. -/
def optInt : Option Int → Json
  | some n => .int n
  | none => .null

/-- A text or `null`. -/
def optStr : Option String → Json
  | some s => .str s
  | none => .null

/-- The dictionary stored under `execution_attempt`. -/
def toMetadata (attempt : ExecutionAttempt) : JsonDict :=
  [("execution_attempt_id", .str attempt.executionAttemptId),
   ("evaluation_id", .str attempt.evaluationId),
   ("worker_id", .str attempt.workerId),
   ("workload", .str attempt.workload),
   ("root_pid", optInt attempt.rootPid),
   ("pgid", optInt attempt.pgid),
   ("workspace", optStr attempt.workspace),
   ("ownership", .str attempt.ownership)]

/-- A text field of a stored attempt.  `toMetadata` writes strings only, and
`str()` of a string is the string. -/
def textField (attempt : JsonDict) (k : String) (default : String) : String :=
  match attempt.get? k with
  | some (.str s) => if s = "" then default else s
  | _ => default

/-- A field that holds a number. -/
def intField (attempt : JsonDict) (k : String) : Option Int :=
  match attempt.get? k with
  | some (.int n) => some n
  | _ => none

/-- `ExecutionAttempt.from_metadata`, flat embedding tolerated. -/
def fromMetadata (data : JsonDict) : Option ExecutionAttempt :=
  let attempt : Option JsonDict :=
    match data.get? "execution_attempt" with
    | some (.obj attempt) => some attempt
    | _ => if (data.get? "execution_attempt_id").isSome then some data else none
  match attempt with
  | none => none
  | some attempt =>
    if ((attempt.get? "execution_attempt_id").getD .null).truthy then
      some
        { executionAttemptId := textField attempt "execution_attempt_id" ""
          evaluationId := textField attempt "evaluation_id" ""
          workerId := textField attempt "worker_id" ""
          workload := textField attempt "workload" ""
          rootPid := intField attempt "root_pid"
          pgid := intField attempt "pgid"
          workspace :=
            match attempt.get? "workspace" with
            | some (.str s) => some s
            | _ => none
          ownership := textField attempt "ownership" "pid_tracking_only" }
    else none

/-- **Attempt round trip.**  A recorded attempt is read back as it was. -/
theorem fromMetadata_of_get {data : JsonDict} {attempt : ExecutionAttempt}
    (hget : data.get? "execution_attempt" = some (.obj attempt.toMetadata))
    (hid : attempt.executionAttemptId ≠ "") (howner : attempt.ownership ≠ "") :
    fromMetadata data = some attempt := by
  obtain ⟨id, evaluationId, workerId, workload, rootPid, pgid, workspace, ownership⟩ :=
    attempt
  have hempty : ∀ s : String, (if s = "" then "" else s) = s := by
    intro s
    split
    · rename_i h; exact h.symm
    · rfl
  simp only [fromMetadata, hget]
  cases rootPid <;> cases pgid <;> cases workspace <;>
    simp_all [toMetadata, JsonDict.get?, textField, intField, optInt, optStr, Json.truthy]

end ExecutionAttempt

/-! ## Stale recovery -/

/-- The report of `contain_attempt`. -/
structure Containment where
  wasAlive : Bool
  killedPids : List Int
  stillAlive : List Int
  workspaceExists : Bool
  deriving DecidableEq, Repr

/-- The report as recovery stores it under `ownership_recovery`. -/
def Containment.toMetadata (report : Containment) (attempt : ExecutionAttempt) : JsonDict :=
  [("execution_attempt_id", .str attempt.executionAttemptId),
   ("root_pid", ExecutionAttempt.optInt attempt.rootPid),
   ("was_alive", .bool report.wasAlive),
   ("killed_pids", .arr (report.killedPids.map .int)),
   ("still_alive", .arr (report.stillAlive.map .int)),
   ("workspace_exists", .bool report.workspaceExists),
   ("contained", .bool report.stillAlive.isEmpty)]

/-- What the operating system answers while one stale row is handled. -/
structure OsView where
  processAlive : Int → Bool
  containAttempt : ExecutionAttempt → Containment

namespace OsView

/-- `pid_alive`. -/
def pidAlive (os : OsView) : Option Int → Bool
  | none => false
  | some pid => decide (0 < pid) && os.processAlive pid

/-- The recorded root process is still alive. -/
def orphanSuspected (os : OsView) (attempt : ExecutionAttempt) : Bool :=
  os.pidAlive attempt.rootPid

end OsView

namespace EvaluationRow

/-- `status == 'running' AND started_at IS NOT NULL AND started_at < …`. -/
def isStale (staleBefore : Timestamp) (row : EvaluationRow) : Bool :=
  row.isRunning && row.startedAt.any (fun startedAt => decide (startedAt < staleBefore))

/-- The row is failed when its attempts are used up, and requeued otherwise. -/
def requeueOrAbandon (row : EvaluationRow) (maxAttempts : Int) (now : Timestamp)
    (metadata : JsonDict) : EvaluationRow :=
  if (row.attemptCount : Int) ≥ maxAttempts then
    { row with
      resultMetadata := metadata
      status := .failed
      completedAt := some now
      failureReason := some
        s!"Abandoned after {maxAttempts} attempt(s) without completion (worker crash / stale RUNNING)."
      workerId := none }
  else
    { row with
      resultMetadata := metadata
      status := .queued
      startedAt := none
      workerId := none
      failureReason := some
        "Requeued after stale RUNNING (worker crash recovery; prior execution contained)." }

/-- A live execution that survived containment: the row is not requeued. -/
def quarantine (row : EvaluationRow) (now : Timestamp) (metadata : JsonDict) :
    EvaluationRow :=
  { row with
    resultMetadata := metadata.set "orphan_suspected" (.bool true)
    status := .failed
    completedAt := some now
    failureReason := some
      "orphan_suspected: prior execution still alive after containment; refused duplicate requeue"
    workerId := none }

/-- What recovery makes of one stale row. -/
def recover (row : EvaluationRow) (os : OsView) (maxAttempts : Int) (now : Timestamp) :
    EvaluationRow :=
  let metadata := row.resultMetadata
  match ExecutionAttempt.fromMetadata metadata with
  | some attempt =>
    if os.orphanSuspected attempt then
      let containment := os.containAttempt attempt
      let metadata := metadata.set "ownership_recovery"
        (.obj (containment.toMetadata attempt))
      if containment.stillAlive ≠ [] then row.quarantine now metadata
      else
        row.requeueOrAbandon maxAttempts now
          (metadata.set "orphan_suspected" (.bool false))
    else
      -- checked, and found no live process
      row.requeueOrAbandon maxAttempts now
        (metadata.set "ownership_recovery"
          (.obj
            [("execution_attempt_id", .str attempt.executionAttemptId),
             ("root_pid", ExecutionAttempt.optInt attempt.rootPid),
             ("was_alive", .bool false),
             ("contained", .bool true)]))
  | none => row.requeueOrAbandon maxAttempts now metadata

/-- A recovered row is quarantined, or requeued or abandoned. -/
theorem recover_cases (row : EvaluationRow) (os : OsView) (maxAttempts : Int)
    (now : Timestamp) :
    ∃ metadata, row.recover os maxAttempts now = row.quarantine now metadata ∨
      row.recover os maxAttempts now = row.requeueOrAbandon maxAttempts now metadata := by
  simp only [recover]
  split
  · split
    · split
      · exact ⟨_, Or.inl rfl⟩
      · exact ⟨_, Or.inr rfl⟩
    · exact ⟨_, Or.inr rfl⟩
  · exact ⟨_, Or.inr rfl⟩

/-- A recovered row keeps its identity, its place and its attempts, is no
longer RUNNING, and belongs to nobody. -/
theorem recover_spec (row : EvaluationRow) (os : OsView) (maxAttempts : Int)
    (now : Timestamp) :
    (row.recover os maxAttempts now).id = row.id ∧
    (row.recover os maxAttempts now).submissionId = row.submissionId ∧
    (row.recover os maxAttempts now).createdAt = row.createdAt ∧
    (row.recover os maxAttempts now).attemptCount = row.attemptCount ∧
    (row.recover os maxAttempts now).workloadClass = row.workloadClass ∧
    (row.recover os maxAttempts now).status ≠ .running ∧
    (row.recover os maxAttempts now).workerId = none := by
  obtain ⟨metadata, hcase⟩ := recover_cases row os maxAttempts now
  rcases hcase with hquarantine | habandon
  · rw [hquarantine]
    simp [quarantine]
  · rw [habandon]
    unfold requeueOrAbandon
    split <;> simp

/-- The root pid of the recorded execution. -/
def recordedPid (row : EvaluationRow) : Option Int :=
  (ExecutionAttempt.fromMetadata row.resultMetadata).bind ExecutionAttempt.rootPid

/-- The recorded execution is found alive, and survives its containment. -/
def survivesContainment (row : EvaluationRow) (os : OsView) : Bool :=
  (ExecutionAttempt.fromMetadata row.resultMetadata).any (fun attempt =>
    os.orphanSuspected attempt && !(os.containAttempt attempt).stillAlive.isEmpty)

/-- **Requeue only what is dead.**  Recovery requeues a row only if it has
attempts left and its recorded execution did not survive. -/
theorem recover_queued {row : EvaluationRow} {os : OsView} {maxAttempts : Int}
    {now : Timestamp} (hqueued : (row.recover os maxAttempts now).status = .queued) :
    (row.attemptCount : Int) < maxAttempts ∧ row.survivesContainment os = false := by
  have hleft : ∀ metadata,
      (row.requeueOrAbandon maxAttempts now metadata).status = .queued →
        (row.attemptCount : Int) < maxAttempts := by
    intro metadata h
    unfold requeueOrAbandon at h
    split at h
    · cases h
    · omega
  simp only [recover] at hqueued
  unfold survivesContainment
  split at hqueued
  · rename_i attempt hattempt
    rw [hattempt]
    split at hqueued
    · split at hqueued
      · cases hqueued
      · rename_i hdead
        exact ⟨hleft _ hqueued, by simp [not_not.mp hdead]⟩
    · rename_i hdead
      exact ⟨hleft _ hqueued, by simp [hdead]⟩
  · rename_i hnone
    exact ⟨hleft _ hqueued, by rw [hnone]; rfl⟩

end EvaluationRow

namespace EvaluationDb

/-- Contain orphaned executions, then requeue or fail stale RUNNING rows.  The
operating system is asked while each row is handled, so its answers are given
per row. -/
def recoverStaleRunning (db : EvaluationDb) (staleBefore : Timestamp) (maxAttempts : Int)
    (now : Timestamp) (os : UUID → OsView) : EvaluationDb :=
  { db with
    evaluations := db.evaluations.update (EvaluationRow.isStale staleBefore)
      (fun row => row.recover (os row.id) maxAttempts now)
      (fun row => (row.recover_spec (os row.id) maxAttempts now).1) }

theorem recover_settles (os : UUID → OsView) (maxAttempts : Int) (now : Timestamp) :
    Settles (fun row => row.recover (os row.id) maxAttempts now) where
  id row := (row.recover_spec (os row.id) maxAttempts now).1
  submissionId row := (row.recover_spec (os row.id) maxAttempts now).2.1
  createdAt row := (row.recover_spec (os row.id) maxAttempts now).2.2.1
  attemptCount row := (row.recover_spec (os row.id) maxAttempts now).2.2.2.1
  status row := (row.recover_spec (os row.id) maxAttempts now).2.2.2.2.2.1

theorem recover_rewrite (staleBefore : Timestamp) (maxAttempts : Int) (now : Timestamp)
    (os : UUID → OsView) :
    RunningRewrite (EvaluationRow.isStale staleBefore)
      (fun row => row.recover (os row.id) maxAttempts now) := by
  refine (recover_settles os maxAttempts now).rewrite (fun row hstale => ?_)
  simp only [EvaluationRow.isStale, Bool.and_eq_true] at hstale
  exact EvaluationRow.isRunning_iff.mp hstale.1

/-- What `begin_execution_attempt` assigns. -/
def recordAttempt (attempt : ExecutionAttempt) (row : EvaluationRow) : EvaluationRow :=
  let metadata := row.resultMetadata.set "execution_attempt" (.obj attempt.toMetadata)
  let evaluator := (metadata.get? "evaluator").getD .null
  { row with
    resultMetadata := metadata.set "evaluator"
      (if evaluator.truthy then evaluator else .str "synthetic_execution_v1") }

/-- Persist OS ownership metadata while RUNNING. -/
def beginExecutionAttempt (db : EvaluationDb) (id : UUID) (workerId : String)
    (attempt : ExecutionAttempt) : EvaluationDb :=
  db.updateOwned id workerId (recordAttempt attempt) (fun _ => rfl)

theorem recordAttempt_rewrite (id : UUID) (workerId : String) (attempt : ExecutionAttempt) :
    RunningRewrite (EvaluationRow.ownedBy id workerId) (recordAttempt attempt) where
  running _ howned := (EvaluationRow.ownedBy_iff.mp howned).2.1
  id _ := rfl
  createdAt _ := rfl
  attemptCount _ := rfl
  settled _ := Or.inr ⟨rfl, rfl, rfl⟩

/-! ## The published runtime state -/

/-- Publish worker pressure / concurrency for API observability. -/
def persistRuntimeState (db : EvaluationDb) (pressureState : PressureState)
    (adaptiveMaxWorkers : Int) : EvaluationDb :=
  db.setScheduler
    { db.scheduler with
      pressureState := pressureState
      adaptiveMaxWorkers := some adaptiveMaxWorkers }

/-- API publishes rolling interactive hints for workers. -/
def persistInteractiveHint (db : EvaluationDb) (interactiveP95Ms : Option Rat)
    (sampleCount : Int) (poolWaitP95Ms : Option Rat) : EvaluationDb :=
  db.setScheduler
    { db.scheduler with
      interactiveP95Ms := interactiveP95Ms
      interactiveSampleCount := sampleCount.toNat
      poolWaitP95Ms := poolWaitP95Ms }

end EvaluationDb

end ChallengeForge
