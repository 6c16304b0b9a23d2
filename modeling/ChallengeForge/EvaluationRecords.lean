import ChallengeForge.ProgressiveRecords

/-!
# The progressive record in every run of the workers

Every claim of a progressive evaluation finds a record of the stages below its
own, whatever was deferred, abandoned or recovered before it; so the record that
the last claim writes lists the whole evaluation.

* `records_step` — what a step of the workers does to the record of a row;
* `records_exact` — the record of a success lists the evaluation and its cost, and
  counts its stages if the claim that finished it was the first.
-/

namespace ChallengeForge

open Keyed Labelled SubmissionWork

/-- Every submission is evaluated by `run_stage`. -/
def Deployment.RunsStages {Process : Type} (cfg : Deployment Process) : Prop :=
  ∀ submissionId, ∃ legacyDigest metadata,
    (cfg.work submissionId).runStage = runStage legacyDigest submissionId metadata

theorem Deployment.RunsStages.evidences {Process : Type} {cfg : Deployment Process}
    (h : cfg.RunsStages) (submissionId : UUID) : Evidences (cfg.work submissionId).runStage := by
  obtain ⟨legacyDigest, metadata, hrun⟩ := h submissionId
  rw [hrun]
  exact evidences_runStage legacyDigest submissionId metadata

/-- Nobody passes `create_queued` a stage. -/
def createdAtStart {Process : Type} : Condition (Workers Process) (EvaluatorAction Process)
  | _, .createQueued _ _ _ _ _ stage _ => stage = 0
  | _, _ => True

/-- A progressive claim that is finished, or put off, is the first of its evaluation. -/
def undeferred {Process : Type} : Condition (Workers Process) (EvaluatorAction Process)
  | s, .finish p _ _ => ∀ claimed ∈ s.claimed p,
      claimed.evaluationMode.progressive → claimed.currentStage = 0
  | _, _ => True

instance {Process : Type} (s : Workers Process) (a : EvaluatorAction Process) :
    Decidable (createdAtStart s a) :=
  match a with
  | .createQueued _ _ _ _ _ stage _ => inferInstanceAs (Decidable (stage = 0))
  | .claimNext _ _ _ | .beginExecutionAttempt _ _ | .finish _ _ _ | .die _
  | .recoverStaleRunning _ _ _ => inferInstanceAs (Decidable True)

instance {Process : Type} (s : Workers Process) (a : EvaluatorAction Process) :
    Decidable (undeferred s a) :=
  match a with
  | .finish p _ _ => inferInstanceAs (Decidable (∀ claimed ∈ s.claimed p,
      (_ ∨ _ ∨ _) → claimed.currentStage = 0))
  | .createQueued _ _ _ _ _ _ _ | .claimNext _ _ _ | .beginExecutionAttempt _ _ | .die _
  | .recoverStaleRunning _ _ _ => inferInstanceAs (Decidable True)

/-- A progressive row is at a stage of the plan, and its record lists the stages below. -/
def RowLogged (row : EvaluationRow) : Prop :=
  row.evaluationMode.progressive → row.currentStage < DEFAULT_PLAN.stages.length ∧
    Logged (storedRecord row) row.currentStage

/-- The record of another row. -/
theorem RowLogged.congr {row row' : EvaluationRow} (h : RowLogged row)
    (hmode : row'.evaluationMode = row.evaluationMode)
    (hstage : row'.currentStage = row.currentStage)
    (hrecord : storedRecord row' = storedRecord row) : RowLogged row' := by
  intro hprogressive
  rw [hmode] at hprogressive
  rw [hstage, hrecord]
  exact h hprogressive

/-- What a success of the claim leaves. -/
structure RecordsSuccess (claimed row : EvaluationRow) : Prop where
  logs : LogsEvaluation row
  describes : DescribesEvaluation row ↔ claimed.currentStage = 0

/-! ## What a completion does to the record -/

/-- **Completions.**  A claim of a logged row leaves the record of a success, or a
logged row, or a failed one. -/
theorem completion_records {Process : Type} {cfg : Deployment Process} {claimed : EvaluationRow}
    {done : WorkDone} {c : Completion}
    (hevidence : Evidences (cfg.work claimed.submissionId).runStage)
    (hprogressive : claimed.evaluationMode.progressive) (hlogged : RowLogged claimed)
    (hmode : done.inMode claimed.evaluationMode = true)
    (hcompletion : done.completion cfg claimed = some c) (now : Timestamp) (row : EvaluationRow) :
    (¬ (c.apply now row).status.terminal →
        (c.apply now row).currentStage < DEFAULT_PLAN.stages.length ∧
          Logged (storedRecord (c.apply now row)) (c.apply now row).currentStage) ∧
      ((c.apply now row).status = .succeeded → RecordsSuccess claimed (c.apply now row)) := by
  have hfailed : ∀ reason metadata, c = .failed reason metadata →
      (c.apply now row).status = .failed := by
    rintro reason metadata rfl
    rfl
  have hresolve : (c.apply now row).status = .failed →
      (¬ (c.apply now row).status.terminal →
        (c.apply now row).currentStage < DEFAULT_PLAN.stages.length ∧
          Logged (storedRecord (c.apply now row)) (c.apply now row).currentStage) ∧
      ((c.apply now row).status = .succeeded → RecordsSuccess claimed (c.apply now row)) := by
    intro hstatus
    rw [hstatus]
    exact ⟨fun hlive => absurd (Or.inr rfl) hlive, fun h => by cases h⟩
  cases done with
  | submissionMissing => exact hresolve (hfailed _ _ (Option.some.inj hcompletion).symm)
  | legacy executionCpuMs =>
      have hlegacy : claimed.evaluationMode = .legacy := by simpa [WorkDone.inMode] using hmode
      simp [EvaluationMode.progressive, hlegacy] at hprogressive
  | synthetic report =>
      have hsynthetic : claimed.evaluationMode = .syntheticExecution := by
        simpa [WorkDone.inMode] using hmode
      simp [EvaluationMode.progressive, hsynthetic] at hprogressive
  | invalidWorkload error =>
      have hsynthetic : claimed.evaluationMode = .syntheticExecution := by
        simpa [WorkDone.inMode] using hmode
      simp [EvaluationMode.progressive, hsynthetic] at hprogressive
  | progressive context =>
      obtain ⟨hstage, hlog⟩ := hlogged hprogressive
      simp only [WorkDone.completion, progressiveCompletion] at hcompletion
      split at hcompletion
      · exact hresolve (hfailed _ _ (Option.some.inj hcompletion).symm)
      rename_i result hrun
      obtain ⟨hlogs, hsome, hnext⟩ := run_logged hevidence hrun
      split at hcompletion
      · obtain ⟨score, -, rfl⟩ := Option.map_eq_some_iff.mp hcompletion
        refine ⟨fun hlive => absurd (Or.inl rfl) hlive, fun _ => ?_⟩
        obtain ⟨hevaluation, hdescribes⟩ :=
          @finished_record claimed (Completion.apply now row (.succeededAtStage score
            (finishedMetadata claimed result) result.nextStage)) result hlog hlogs
            (hsome hstage) rfl rfl
        exact ⟨hevaluation, hdescribes⟩
      · rename_i hopen
        cases hcompletion
        refine ⟨fun _ => ⟨hnext (by simpa using hopen), deferred_record hlog hlogs⟩, ?_⟩
        intro hstatus
        cases hstatus

/-- Recovery leaves the record alone. -/
theorem storedRecord_recover (row : EvaluationRow) (os : OsView) (maxAttempts : Int)
    (now : Timestamp) : storedRecord (row.recover os maxAttempts now) = storedRecord row := by
  have hrequeue : ∀ metadata, priorProgressive metadata = priorProgressive row.resultMetadata →
      storedRecord (row.requeueOrAbandon maxAttempts now metadata) = storedRecord row := by
    intro metadata hsame
    unfold EvaluationRow.requeueOrAbandon storedRecord
    split
    · exact hsame
    · exact hsame
  have hquarantine : ∀ metadata, priorProgressive metadata = priorProgressive row.resultMetadata →
      storedRecord (row.quarantine now metadata) = storedRecord row := by
    intro metadata hsame
    exact (priorProgressive_set_ne metadata _ (by decide)).trans hsame
  have hrecovery : ∀ v, priorProgressive (row.resultMetadata.set "ownership_recovery" v) =
      priorProgressive row.resultMetadata :=
    fun v => priorProgressive_set_ne row.resultMetadata v (by decide)
  simp only [EvaluationRow.recover]
  split
  · split
    · split
      · exact hquarantine _ (hrecovery _)
      · apply hrequeue
        rw [priorProgressive_set_ne _ _ (by decide)]
        exact hrecovery _
    · exact hrequeue _ (hrecovery _)
  · exact hrequeue _ rfl

/-- So does the record of an execution. -/
theorem storedRecord_recordAttempt (attempt : ExecutionAttempt) (row : EvaluationRow) :
    storedRecord (EvaluationDb.recordAttempt attempt row) = storedRecord row := by
  unfold storedRecord EvaluationDb.recordAttempt
  rw [priorProgressive_set_ne _ _ (by decide), priorProgressive_set_ne _ _ (by decide)]

/-! ## Every claim finds a log -/

namespace Workers

variable {Process : Type} {cfg : Deployment Process} {s t : Workers Process}

/-- The open rows are logged, and so are the claims. -/
structure RecordsLogged (s : Workers Process) : Prop where
  rows : ∀ row ∈ s.db.evaluations, ¬ row.status.terminal → RowLogged row
  claims : ∀ p claimed, s.claimed p = some claimed → RowLogged claimed

/-- How a row changes in a step, as far as its record goes. -/
structure RecordStep (s : Workers Process) (a : EvaluatorAction Process)
    (row row' : EvaluationRow) : Prop where
  live : ¬ row.status.terminal
  logged : RowLogged row → ¬ row'.status.terminal → RowLogged row'
  success : row'.status = .succeeded → row'.evaluationMode.progressive →
    ∃ p now done claimed, a = .finish p now done ∧ s.claimed p = some claimed ∧
      claimed.evaluationMode.progressive ∧ RecordsSuccess claimed row'

/-- A row whose record and stage are left alone. -/
theorem RecordStep.of_same {a : EvaluatorAction Process} {row row' : EvaluationRow}
    (hlive : ¬ row.status.terminal) (hmode : row'.evaluationMode = row.evaluationMode)
    (hstage : row'.currentStage = row.currentStage)
    (hrecord : storedRecord row' = storedRecord row) (hopen : row'.status ≠ .succeeded) :
    RecordStep s a row row' where
  live := hlive
  logged h _ := h.congr hmode hstage hrecord
  success hsucceeded := absurd hsucceeded hopen

theorem recordStep_recover {a : EvaluatorAction Process} {row : EvaluationRow}
    (hrunning : row.status = .running) (os : OsView) (maxAttempts : Int) (now : Timestamp) :
    RecordStep s a row (row.recover os maxAttempts now) := by
  have hlive : ¬ row.status.terminal := by simp [EvaluationStatus.terminal, hrunning]
  have hrecord := storedRecord_recover row os maxAttempts now
  obtain ⟨metadata, hquarantine | habandon⟩ := row.recover_cases os maxAttempts now
  · rw [hquarantine] at hrecord ⊢
    exact .of_same hlive rfl rfl hrecord (by simp [EvaluationRow.quarantine])
  · rw [habandon] at hrecord ⊢
    unfold EvaluationRow.requeueOrAbandon at hrecord ⊢
    split at hrecord
    · rename_i hspent
      rw [if_pos hspent]
      exact .of_same hlive rfl rfl hrecord (by simp)
    · rename_i hleft
      rw [if_neg hleft]
      exact .of_same hlive rfl rfl hrecord (by simp)

section Steps

variable [DecidableEq Process]

/-- **Step inversion for records.** -/
theorem records_step (hstages : cfg.RunsStages) (hescalated : StagesEscalated cfg s)
    (hlogged : RecordsLogged s) {a : EvaluatorAction Process} (hok : createdAtStart s a)
    (h : WorkerStep cfg s a t) :
    Table.Evolves (RecordStep s a) (fun row => RowLogged row ∧ row.status = .queued)
      s.db.evaluations t.db.evaluations := by
  cases h with
  | created hcreate =>
      obtain ⟨-, row, evaluations, hnew, hinsert, rfl⟩ :=
        EvaluationDb.createQueued_inserts hcreate
      refine .insert hinsert ⟨?_, hnew.status⟩
      intro _
      have hstage : row.currentStage = 0 := hnew.currentStage.trans hok
      have hrecord : storedRecord row = [] := by rw [storedRecord, hnew.resultMetadata]; rfl
      rw [hstage, hrecord]
      exact ⟨by decide, logged_nil⟩
  | foundNothing => exact .refl _
  | @claimed p args now row state hidle hdec =>
      obtain ⟨hrow, hqueued⟩ := hdec.queued
      refine .update (EvaluationRow.startRunning_id (cfg.workerIdOf p) now) ?_
      intro other hother hid
      obtain rfl : other = row := Table.eq_of_key_eq hother hrow (of_decide_eq_true hid)
      exact .of_same (by simp [EvaluationStatus.terminal, hqueued]) rfl rfl rfl
        (by simp [EvaluationRow.startRunning])
  | @recorded p attempt claimed hclaimed =>
      refine .update (f := EvaluationDb.recordAttempt attempt) (fun _ => rfl) ?_
      intro row hrow howned
      have hrunning := (EvaluationRow.ownedBy_iff.mp howned).2.1
      have hopen : (EvaluationDb.recordAttempt attempt row).status ≠ .succeeded := by
        simp [EvaluationDb.recordAttempt, hrunning]
      exact .of_same (by simp [EvaluationStatus.terminal, hrunning]) rfl rfl
        (storedRecord_recordAttempt attempt row) hopen
  | @finished p now done claimed c hclaimed hmode hcompletion =>
      rw [EvaluationDb.complete_eq_apply]
      refine .update (fun row => c.apply_id now row) ?_
      intro row hrow howned
      obtain ⟨hid, hrunning, -⟩ := EvaluationRow.ownedBy_iff.mp howned
      have hlive : ¬ row.status.terminal := by simp [EvaluationStatus.terminal, hrunning]
      -- a claim of the row was made in its mode
      obtain ⟨first, hfirst⟩ := hescalated.escalated row hrow hlive
      obtain ⟨-, hsame, -⟩ := hfirst.claims p claimed hclaimed hid.symm
      have hkept : (c.apply now row).evaluationMode = claimed.evaluationMode := by
        rw [hsame]
        cases c <;> rfl
      have hrecords := fun hprogressive =>
        completion_records (hstages.evidences claimed.submissionId) hprogressive
          (hlogged.claims p claimed hclaimed) hmode hcompletion now row
      refine ⟨hlive, ?_, ?_⟩
      · intro _ hopen hprogressive
        rw [hkept] at hprogressive
        exact (hrecords hprogressive).1 hopen
      · intro hsucceeded hprogressive
        rw [hkept] at hprogressive
        exact ⟨p, now, done, claimed, rfl, hclaimed, hprogressive,
          (hrecords hprogressive).2 hsucceeded⟩
  | dropped => exact .refl _
  | @recovered staleBefore now os =>
      have hrewrite := EvaluationDb.recover_rewrite staleBefore cfg.maxAttempts now os
      refine .update hrewrite.id ?_
      intro row hrow hstale
      exact recordStep_recover (hrewrite.running row hstale) (os row.id) cfg.maxAttempts now

/-- Dropping a claim leaves the others logged. -/
theorem RecordsLogged.drop (hlogged : RecordsLogged s) (p q : Process) (claimed : EvaluationRow)
    (h : Function.update s.claimed p none q = some claimed) : RowLogged claimed := by
  by_cases hq : q = p
  · subst hq
    simp at h
  · exact hlogged.claims q claimed (by simpa [Function.update_of_ne hq] using h)

/-- A claim is made of a logged row. -/
theorem claims_logged (hlogged : RecordsLogged s) {a : EvaluatorAction Process}
    (h : WorkerStep cfg s a t) (q : Process) (claimed : EvaluationRow)
    (hclaimed : t.claimed q = some claimed) : RowLogged claimed := by
  cases h with
  | created hcreate => exact hlogged.claims q claimed hclaimed
  | foundNothing => exact hlogged.claims q claimed hclaimed
  | @claimed p args now row state hidle hdec =>
      obtain ⟨hrow, hqueued⟩ := hdec.queued
      by_cases hq : q = p
      · subst hq
        obtain rfl : row.startRunning (cfg.workerIdOf q) now = claimed := by
          simpa using hclaimed
        have hopen : ¬ row.status.terminal := by simp [EvaluationStatus.terminal, hqueued]
        exact (hlogged.rows row hrow hopen).congr rfl rfl rfl
      · exact hlogged.claims q claimed (by simpa [Function.update_of_ne hq] using hclaimed)
  | recorded hrecorded => exact hlogged.claims q claimed hclaimed
  | @finished p now done row c hrow hmode hcompletion => exact hlogged.drop p q claimed hclaimed
  | @dropped a p => exact hlogged.drop p q claimed hclaimed
  | recovered => exact hlogged.claims q claimed hclaimed

/-- **Every claim finds a log.** -/
theorem records_of_reach (hstages : cfg.RunsStages)
    {ok : Condition (Workers Process) (EvaluatorAction Process)}
    (hok : ∀ s a, ok s a → createdAtStart s a) (h : (evaluationWorkers cfg).Reach ok s) :
    RecordsLogged s := by
  refine h.induct ?_ ?_
  · intro s hidle
    constructor
    · intro row hrow
      exact absurd hrow (by simp [Table.mem_iff, hidle.1])
    · intro p claimed hclaimed
      rw [hidle.2 p] at hclaimed
      cases hclaimed
  · intro s a t hreach hlogged hcond hstep
    have hrows := records_step hstages (stages_of_reach hreach.unconditional) hlogged
      (hok s a hcond) (step_spec hstep)
    refine ⟨?_, claims_logged hlogged (step_spec hstep)⟩
    refine hrows.all ?_ (fun row hnew _ => hnew.1) hlogged.rows
    intro row row' hlog hchange hopen
    exact hchange.logged (hlog hchange.live) hopen

/-- **Successes.**  What every finishing claim leaves holds of every success. -/
theorem successes_of_reach (hstages : cfg.RunsStages)
    {ok : Condition (Workers Process) (EvaluatorAction Process)}
    (hok : ∀ s a, ok s a → createdAtStart s a) {P : EvaluationRow → Prop}
    (hsuccess : ∀ s p now done claimed row, ok s (.finish p now done) →
      s.claimed p = some claimed → claimed.evaluationMode.progressive →
      RecordsSuccess claimed row → P row)
    (h : (evaluationWorkers cfg).Reach ok s) :
    ∀ row ∈ s.db.evaluations, row.status = .succeeded → row.evaluationMode.progressive → P row := by
  refine h.induct (P := fun s => ∀ row ∈ s.db.evaluations, row.status = .succeeded →
    row.evaluationMode.progressive → P row) ?_ ?_
  · intro s hidle row hrow
    exact absurd hrow (by simp [Table.mem_iff, hidle.1])
  · intro s a t hreach hall hcond hstep
    have hrows := records_step hstages (stages_of_reach hreach.unconditional)
      (records_of_reach hstages hok hreach) (hok s a hcond) (step_spec hstep)
    refine hrows.all ?_ ?_ hall
    · intro row row' _ hchange hsucceeded hprogressive
      obtain ⟨p, now, done, claimed, rfl, hclaimed, hmode, hrecords⟩ :=
        hchange.success hsucceeded hprogressive
      exact hsuccess s p now done claimed row' hcond hclaimed hmode hrecords
    · intro row hnew hsucceeded
      rw [hnew.2] at hsucceeded
      cases hsucceeded

end Steps

end Workers

/-- When the record of a success describes the whole evaluation. -/
structure RecordsExact {Process : Type} [DecidableEq Process] (cfg : Deployment Process) :
    Prop where
  /-- In every run it lists the stages, what they cost, and what was saved. -/
  logs : ∀ s, (evaluationWorkers cfg).Reach createdAtStart s → ∀ row ∈ s.db.evaluations,
    row.status = .succeeded → row.evaluationMode.progressive → LogsEvaluation row
  /-- If the claims that finish are the first, it counts them too. -/
  describes : ∀ s,
    (evaluationWorkers cfg).Reach (fun s a => createdAtStart s a ∧ undeferred s a) s →
      ∀ row ∈ s.db.evaluations, row.status = .succeeded → row.evaluationMode.progressive →
        DescribesEvaluation row
  /-- A success that a claim writes counts them only then. -/
  counts : ∀ s, (evaluationWorkers cfg).Reach createdAtStart s →
    ∀ p now done claimed t, s.claimed p = some claimed →
      s.step cfg (.finish p now done) = some t →
      ∀ row ∈ t.db.evaluations, row ∉ s.db.evaluations → row.status = .succeeded →
        row.evaluationMode.progressive →
          (DescribesEvaluation row ↔ claimed.currentStage = 0)

/-- **The progressive record.** -/
theorem records_exact {Process : Type} [DecidableEq Process] (cfg : Deployment Process)
    (hstages : cfg.RunsStages) : RecordsExact cfg := by
  constructor
  · intro s hreach
    exact Workers.successes_of_reach hstages (fun _ _ h => h)
      (fun _ _ _ _ _ _ _ _ _ hrecords => hrecords.logs) hreach
  · intro s hreach
    refine Workers.successes_of_reach hstages (fun _ _ h => h.1) ?_ hreach
    intro s p now done claimed row hcond hclaimed hmode hrecords
    exact hrecords.describes.mpr (hcond.2 claimed hclaimed hmode)
  · intro s hreach p now done claimed t hclaimed hstep row hrow hnew hsucceeded hprogressive
    have hrows := Workers.records_step hstages (Workers.stages_of_reach hreach.unconditional)
      (Workers.records_of_reach hstages (fun _ _ h => h) hreach) (a := .finish p now done) trivial
      (Workers.step_spec hstep)
    rcases hrows.source row hrow with ⟨old, hold, -, rfl | hchange⟩ | hfresh
    · exact absurd hold hnew
    · obtain ⟨q, now', done', claimed', haction, hclaimed', -, hrecords⟩ :=
        hchange.success hsucceeded hprogressive
      cases haction
      obtain rfl : claimed = claimed' := by
        rw [hclaimed] at hclaimed'
        exact Option.some.inj hclaimed'
      exact hrecords.describes
    · rw [hfresh.2] at hsucceeded
      cases hsucceeded

/-! ## An evaluation in one claim, and in two -/

/-- A version 2 submission that no stage is confident about. -/
def undecidedMetadata : JsonDict :=
  [("workload_kind", .str "unlisted"), ("adaptive_scenario", .str "uncertain")]

/-- A deployment whose stages decide nothing. -/
def undecidedDeployment : Deployment Unit where
  workerIdOf _ := "worker-1"
  maxAttempts := 3
  work submissionId :=
    { runStage := runStage (fun _ _ => "") submissionId undecidedMetadata
      evaluateSubmission := fun _ _ => .ok (55, []) }

theorem undecidedDeployment_runsStages : undecidedDeployment.RunsStages :=
  fun _ => ⟨fun _ _ => "", undecidedMetadata, rfl⟩

/-- One evaluation, in a claim under each of the pressures. -/
def claimsUnder (pressures : List PressureState) : List (EvaluatorAction Unit) :=
  .createQueued 1 10 .light .resourceAwareAdaptive none 0 0 ::
    pressures.flatMap (fun pressure =>
      [.claimNext () ⟨"", .fifo, 1, 1, 0⟩ 1, .finish () 2 (.progressive (underPressure pressure))])

theorem nobody_idle : (evaluationWorkers undecidedDeployment).start
    ⟨⟨Table.empty, none⟩, fun _ => none⟩ := ⟨rfl, fun _ => rfl⟩

theorem records_exact_undeferred :
    ∃ s, ∃ row ∈ s.db.evaluations, row.currentStage = 3 ∧ DescribesEvaluation row ∧
      (evaluationWorkers undecidedDeployment).Reach
        (fun s a => createdAtStart s a ∧ undeferred s a) s := by
  obtain ⟨s, hreach, htest⟩ : ∃ s, (evaluationWorkers undecidedDeployment).Reach
      (fun s a => createdAtStart s a ∧ undeferred s a) s ∧
      decide (∃ row ∈ s.db.evaluations, row.currentStage = 3 ∧ row.status = .succeeded ∧
        row.evaluationMode = .resourceAwareAdaptive) = true :=
    System.reach_of_test _ (claimsUnder [.normal]) _ nobody_idle (by decide +kernel)
  obtain ⟨row, hrow, hstage, hsucceeded, hmode⟩ := of_decide_eq_true htest
  exact ⟨s, row, hrow, hstage, (records_exact undecidedDeployment
    undecidedDeployment_runsStages).describes s hreach row hrow hsucceeded
    (Or.inr (Or.inr hmode)), hreach⟩

/-- HEAVY is put off once, and the record of the success counts one stage of three. -/
theorem records_exact_fails :
    ¬ ∀ s, (evaluationWorkers undecidedDeployment).Reach createdAtStart s →
      ∀ row ∈ s.db.evaluations, row.status = .succeeded → row.evaluationMode.progressive →
        DescribesEvaluation row := by
  intro hall
  obtain ⟨s, hreach, htest⟩ : ∃ s, (evaluationWorkers undecidedDeployment).Reach
      createdAtStart s ∧
      decide (∃ row ∈ s.db.evaluations, row.status = .succeeded ∧
        row.evaluationMode = .resourceAwareAdaptive ∧
        (priorStages (storedRecord row)).length = 3 ∧
        logField "stages_attempted" (.obj (storedRecord row)) = some 1) = true :=
    System.reach_of_test _ (claimsUnder [.degraded, .normal]) _ nobody_idle (by decide +kernel)
  obtain ⟨row, hrow, hsucceeded, hmode, hlength, hattempted⟩ := of_decide_eq_true htest
  have hcount := (hall s hreach row hrow hsucceeded (Or.inr (Or.inr hmode))).attempted
  rw [hlength] at hcount
  simp [logField, hcount] at hattempted

end ChallengeForge
