import ChallengeForge.EvaluationWorkers
import ChallengeForge.TableEvolution

/-!
# The life of an evaluation row

What the transactions of the evaluation queue do to one row, and what follows
for every row of a reachable store, whoever works on it under whatever id.

* `RowStep` — the ways a row changes: it is claimed, an execution is recorded
  in it, its worker completes it, or it is recovered as stale;
* `RowStep.transition`, `RowStep.live` — its status moves as the domain allows,
  and not at all once it is terminal;
* `RowCoherent` — which columns are set in which status, in every reachable row.
-/

namespace ChallengeForge

open Keyed Labelled

/-- `ALLOWED_TRANSITIONS`. -/
def EvaluationStatus.allowedTransitions : EvaluationStatus → List EvaluationStatus
  | .queued => [.running]
  | .running => [.succeeded, .failed, .queued]
  | .succeeded => []
  | .failed => []

/-- An evaluation that has succeeded or failed. -/
def EvaluationStatus.terminal (status : EvaluationStatus) : Prop :=
  status = .succeeded ∨ status = .failed

/-- What a completion makes of the row it matches. -/
def Completion.apply (now : Timestamp) (row : EvaluationRow) : Completion → EvaluationRow
  | .succeeded score metadata =>
      { row with
        status := .succeeded
        completedAt := some now
        score := some score
        resultMetadata := metadata
        failureReason := none }
  | .succeededAtStage score metadata stage =>
      { row with
        status := .succeeded
        completedAt := some now
        score := some score
        resultMetadata := metadata
        failureReason := none
        currentStage := stage }
  | .failed reason metadata =>
      { row with
        status := .failed
        completedAt := some now
        failureReason := some reason
        score := none
        resultMetadata := metadata.getD row.resultMetadata }
  | .deferred stage workload metadata =>
      { row with
        status := .queued
        startedAt := none
        workerId := none
        currentStage := stage
        workloadClass := workload
        resultMetadata := metadata
        failureReason := none }
  | .released metadata reason =>
      { row with
        status := .queued
        startedAt := none
        workerId := none
        resultMetadata := metadata
        failureReason := some reason }

@[simp] theorem Completion.apply_id (now : Timestamp) (row : EvaluationRow) (c : Completion) :
    (c.apply now row).id = row.id := by
  cases c <;> rfl

/-- A completion is one guarded update. -/
theorem EvaluationDb.complete_eq_apply (db : EvaluationDb) (id : UUID) (workerId : String)
    (now : Timestamp) (c : Completion) :
    db.complete id workerId now c =
      db.updateOwned id workerId (fun row => c.apply now row) (fun row => c.apply_id now row) := by
  cases c with
  | succeededAtStage score metadata stage => exact db.markSucceededAtStage_eq ..
  | succeeded score metadata => rfl
  | failed reason metadata => rfl
  | deferred stage workload metadata => rfl
  | released metadata reason => rfl

/-- How a row changes in a transaction. -/
inductive RowStep : EvaluationRow → EvaluationRow → Prop
  | claimed {row} (workerId : String) (now : Timestamp) (hqueued : row.status = .queued) :
      RowStep row (row.startRunning workerId now)
  | recorded {row} (attempt : ExecutionAttempt) (hrunning : row.status = .running) :
      RowStep row (EvaluationDb.recordAttempt attempt row)
  | completed {row} (now : Timestamp) (c : Completion) (hrunning : row.status = .running) :
      RowStep row (c.apply now row)
  | recovered {row} (os : OsView) (maxAttempts : Int) (now : Timestamp)
      (hrunning : row.status = .running) : RowStep row (row.recover os maxAttempts now)

/-- A row as some `create_queued` inserted it. -/
def EvaluationRow.New (row : EvaluationRow) : Prop :=
  ∃ id submissionId mode stage, EvaluationDb.NewlyQueued row id submissionId mode stage

/-- **Row inversion.**  A transaction changes the rows by `RowStep`, and adds
queued ones. -/
theorem transact_evolves {db db' : EvaluationDb} {a : QueueAction}
    (h : db.transact a = some db') :
    Table.Evolves RowStep EvaluationRow.New db.evaluations db'.evaluations := by
  cases a with
  | createQueued id submissionId workload mode deadline stage now =>
      obtain ⟨-, row, evaluations, hnew, hinsert, rfl⟩ := EvaluationDb.createQueued_inserts h
      exact .insert hinsert ⟨id, submissionId, mode, stage, hnew⟩
  | claimNext args now =>
      simp only [EvaluationDb.transact] at h
      split at h
      · rename_i x db'' hclaim
        cases h
        obtain ⟨row, state, hdec, rfl, rfl⟩ :=
          EvaluationDb.claimTransaction_eq_some_iff.mp hclaim
        refine .update (EvaluationRow.startRunning_id args.workerId now) ?_
        intro other hother hid
        obtain rfl : other = row :=
          Table.eq_of_key_eq hother hdec.queued.1 (of_decide_eq_true hid)
        exact .claimed args.workerId now hdec.queued.2
      · cases h
        exact .refl _
  | complete id workerId now c =>
      cases h
      rw [EvaluationDb.complete_eq_apply]
      refine .update (fun row => c.apply_id now row) ?_
      intro row hrow howned
      exact .completed now c (EvaluationRow.ownedBy_iff.mp howned).2.1
  | beginExecutionAttempt id workerId attempt =>
      cases h
      refine .update (f := EvaluationDb.recordAttempt attempt) (fun _ => rfl) ?_
      intro row hrow howned
      exact .recorded attempt (EvaluationRow.ownedBy_iff.mp howned).2.1
  | recoverStaleRunning staleBefore maxAttempts now os =>
      cases h
      have hrewrite := EvaluationDb.recover_rewrite staleBefore maxAttempts now os
      refine .update hrewrite.id ?_
      intro row hrow hstale
      exact .recovered (os row.id) maxAttempts now (hrewrite.running row hstale)
  | persistRuntimeState pressure workers =>
      cases h
      exact .refl _
  | persistInteractiveHint p95 samples poolWait =>
      cases h
      exact .refl _

/-! ## Transitions -/

/-- **Transitions.**  A row changes its status only as the domain allows. -/
theorem RowStep.transition {row row' : EvaluationRow} (h : RowStep row row') :
    row'.status = row.status ∨ row'.status ∈ row.status.allowedTransitions := by
  cases h with
  | claimed workerId now hqueued =>
      rw [hqueued]
      exact Or.inr (by simp [EvaluationRow.startRunning, EvaluationStatus.allowedTransitions])
  | recorded attempt hrunning => exact Or.inl rfl
  | completed now c hrunning =>
      rw [hrunning]
      cases c <;> simp [Completion.apply, EvaluationStatus.allowedTransitions]
  | recovered os maxAttempts now hrunning =>
      rw [hrunning]
      have hsettled := (row.recover_spec os maxAttempts now).2.2.2.2.2.1
      cases hstatus : (row.recover os maxAttempts now).status with
      | running => exact absurd hstatus hsettled
      | queued => exact Or.inr (by decide)
      | succeeded => exact Or.inr (by decide)
      | failed => exact Or.inr (by decide)

/-- A terminal row does not change. -/
theorem RowStep.live {row row' : EvaluationRow} (h : RowStep row row') :
    ¬ row.status.terminal := by
  unfold EvaluationStatus.terminal
  cases h with
  | claimed workerId now hqueued => simp [hqueued]
  | recorded attempt hrunning => simp [hrunning]
  | completed now c hrunning => simp [hrunning]
  | recovered os maxAttempts now hrunning => simp [hrunning]

/-! ## Coherence -/

/-- The columns that go with each status. -/
def RowCoherent (row : EvaluationRow) : Prop :=
  match row.status with
  | .queued => row.workerId = none ∧ row.startedAt = none ∧ row.completedAt = none ∧
      row.score = none
  | .running => row.workerId ≠ none ∧ row.startedAt ≠ none ∧ row.completedAt = none ∧
      row.failureReason = none ∧ 1 ≤ row.attemptCount ∧ row.score = none
  | .succeeded => row.score ≠ none ∧ row.completedAt ≠ none ∧ row.failureReason = none
  | .failed => row.score = none ∧ row.completedAt ≠ none ∧ row.failureReason ≠ none

/-- A RUNNING row is coherent, column by column. -/
theorem RowCoherent.of_running {row : EvaluationRow} (h : RowCoherent row)
    (hrunning : row.status = .running) :
    row.workerId ≠ none ∧ row.startedAt ≠ none ∧ row.completedAt = none ∧
      row.failureReason = none ∧ 1 ≤ row.attemptCount ∧ row.score = none := by
  simpa [RowCoherent, hrunning] using h

theorem RowCoherent.step {row row' : EvaluationRow} (h : RowCoherent row)
    (hstep : RowStep row row') : RowCoherent row' := by
  cases hstep with
  | claimed workerId now hqueued =>
      have hcolumns : row.workerId = none ∧ row.startedAt = none ∧ row.completedAt = none ∧
          row.score = none := by
        simpa [RowCoherent, hqueued] using h
      simp [RowCoherent, EvaluationRow.startRunning, hcolumns]
  | recorded attempt hrunning =>
      have hcolumns := h.of_running hrunning
      simp only [RowCoherent, EvaluationDb.recordAttempt, hrunning]
      exact hcolumns
  | completed now c hrunning =>
      obtain ⟨-, -, hcompleted, -, -, hscore⟩ := h.of_running hrunning
      cases c <;> simp [RowCoherent, Completion.apply, hcompleted, hscore]
  | recovered os maxAttempts now hrunning =>
      obtain ⟨-, -, hcompleted, -, -, hscore⟩ := h.of_running hrunning
      obtain ⟨metadata, hquarantine | habandon⟩ := row.recover_cases os maxAttempts now
      · rw [hquarantine]
        simp [RowCoherent, EvaluationRow.quarantine, hscore]
      · rw [habandon]
        unfold EvaluationRow.requeueOrAbandon
        split <;> simp [RowCoherent, hcompleted, hscore]

theorem RowCoherent.of_new {row : EvaluationRow} (h : row.New) : RowCoherent row := by
  obtain ⟨id, submissionId, mode, stage, hnew⟩ := h
  simp [RowCoherent, hnew.status, hnew.workerId, hnew.startedAt, hnew.completedAt, hnew.score]

/-- Every row of a reachable store is coherent, whatever the workers pass. -/
theorem coherent_of_reach {db : EvaluationDb} (h : evaluationQueue.Reach always db) :
    ∀ row ∈ db.evaluations, RowCoherent row := by
  refine h.invariant (I := fun db => ∀ row ∈ db.evaluations, RowCoherent row) ?_ ?_
  · intro db hempty row hrow
    exact absurd hrow (by simp [Table.mem_iff, show db.evaluations.rows = [] from hempty])
  · intro db a db' hall _ hstep
    exact (transact_evolves hstep).all (fun _ _ => RowCoherent.step)
      (fun _ => RowCoherent.of_new) hall

end ChallengeForge
