import ChallengeForge.EvaluationLifecycle

/-!
# The stage an evaluation has come to

`current_stage` is written by deferrals and by progressive successes, each from
the stage its claim started at.  A worker whose claim was superseded may still
write, under an id that a later claim runs under; then what it writes was
computed from an earlier stage.  That the stage does not fall nevertheless rests
on the stages being a function of the submission: a stage that one claim passed
no other claim finishes at (`Escalated`).

* `stages_step` — what a step of the workers does to the stage of a row;
* `rows_coherent` — status changes, terminal rows, stages and columns, in every
  run of the workers.
-/

namespace ChallengeForge

open Keyed Labelled Staged Staged.Stretch

/-- No claim of the submission finishes at stage `k` when deferral is possible. -/
def SubmissionWork.Passes (work : SubmissionWork) (k : Nat) : Prop :=
  ∀ x, DEFAULT_PLAN.stage work.runStage k = some (.ok x) → ∀ context,
    DEFAULT_PLAN.verdict .fixedProgressive context k x = .go

/-- A stage that is put off under pressure. -/
def HeavyStage (k : Nat) : Prop := ∃ spec ∈ DEFAULT_PLAN.stageAt k, 9 ≤ spec.costUnits

/-- The default plan has one such stage. -/
theorem heavyStage_iff {k : Nat} : HeavyStage k ↔ k = 2 := by
  unfold HeavyStage EvaluationPlan.stageAt DEFAULT_PLAN
  rcases k with _ | _ | _ | k <;> simp [CHEAP, MEDIUM, HEAVY]

/-- How a stage is reached from the one a row was created at: it is the same, or
the claims of the row passed all stages below and put this one off. -/
def Escalated (work : SubmissionWork) (mode : EvaluationMode) (first current : Nat) : Prop :=
  current = first ∨
    mode = .resourceAwareAdaptive ∧ first < current ∧ HeavyStage current ∧
      ∀ k, first ≤ k → k < current → work.Passes k

theorem Escalated.le {work : SubmissionWork} {mode : EvaluationMode} {first current : Nat}
    (h : Escalated work mode first current) : first ≤ current := by
  rcases h with rfl | ⟨-, hlt, -⟩
  · exact le_rfl
  · exact le_of_lt hlt

/-- A stage that one claim does not finish at is passed by all. -/
theorem SubmissionWork.passes_of_verdict {work : SubmissionWork} {k : Nat}
    {x : StageSpec × StageOutcome} (context : ClaimContext)
    (hstage : DEFAULT_PLAN.stage work.runStage k = some (.ok x))
    (hverdict : ∀ reason,
      DEFAULT_PLAN.verdict .resourceAwareAdaptive context k x ≠ .stop reason) :
    work.Passes k := by
  intro x' hstage' context'
  obtain rfl : x = x' := by simpa using hstage.symm.trans hstage'
  rw [EvaluationPlan.verdict_adaptive context' context]
  exact Verdict.unpaused_eq_go.mpr hverdict

/-- No claim finishes at a stage that is passed. -/
theorem SubmissionWork.Passes.verdict_ne_stop {work : SubmissionWork} {k : Nat}
    {x : StageSpec × StageOutcome} {context : ClaimContext} {reason : String}
    (h : work.Passes k) (hstage : DEFAULT_PLAN.stage work.runStage k = some (.ok x)) :
    DEFAULT_PLAN.verdict .resourceAwareAdaptive context k x ≠ .stop reason := by
  have hgo := h x hstage context
  rw [EvaluationPlan.verdict_adaptive context context] at hgo
  exact Verdict.unpaused_eq_go.mp hgo reason

/-- A claim that defers has passed the stages it ran. -/
theorem passes_of_paused {work : SubmissionWork} {context : ClaimContext} {i k : Nat}
    {executed : List (StageSpec × StageOutcome)} {reason : String}
    (h : Stretch (DEFAULT_PLAN.stage work.runStage)
      (DEFAULT_PLAN.verdict .resourceAwareAdaptive context) i executed (.paused reason))
    (hstart : i ≤ k) (hend : k < i + executed.length) : work.Passes k := by
  obtain ⟨m, rfl⟩ := Nat.exists_eq_add_of_le hstart
  have hm : m < executed.length := by omega
  have hstage := h.stage_getElem m hm
  refine SubmissionWork.passes_of_verdict context hstage ?_
  by_cases hlast : m + 1 < executed.length
  · rw [h.verdict_go m hlast]
    simp
  · obtain ⟨last, x, hlength, hx, hpause⟩ := h.endsAt
    obtain rfl : m = last := by omega
    obtain rfl : executed[m] = x := by simpa using hstage.symm.trans hx
    rw [hpause]
    simp

/-! ## What a completion does to the stage -/

/-- The stage a completion writes, for a claim that started at a row's stage. -/
inductive StageWrite (work : SubmissionWork) (claimed : EvaluationRow) : Completion → Prop
  | kept {c} (hkept : ∀ now row, (c.apply now row).currentStage = row.currentStage) :
      StageWrite work claimed c
  /-- The run stopped at stage `k`. -/
  | stopped {score metadata k} (hstart : claimed.currentStage ≤ k)
      (hstop : claimed.evaluationMode = .resourceAwareAdaptive → ¬ work.Passes k) :
      StageWrite work claimed (.succeededAtStage score metadata (k + 1))
  /-- The claim started past the last stage, or the run came there. -/
  | exhausted {score metadata next} (hstart : claimed.currentStage ≤ next)
      (hpast : DEFAULT_PLAN.stages.length ≤ next) :
      StageWrite work claimed (.succeededAtStage score metadata next)
  | deferred {workload metadata next} (hmode : claimed.evaluationMode = .resourceAwareAdaptive)
      (hstart : claimed.currentStage < next) (hheavy : HeavyStage next)
      (hpasses : ∀ k, claimed.currentStage ≤ k → k < next → work.Passes k) :
      StageWrite work claimed (.deferred next workload metadata)

/-- **What a progressive run writes.** -/
theorem stageWrite_progressive {work : SubmissionWork} {claimed : EvaluationRow}
    {context : ClaimContext} {c : Completion}
    (h : work.progressiveCompletion claimed context = some c) : StageWrite work claimed c := by
  obtain ⟨executed, ending, hstretch, hrun⟩ :=
    run_spec DEFAULT_PLAN work.runStage claimed.evaluationMode
      { context with deadlineAt := claimed.deadlineAt } claimed.currentStage
  have hresult : work.progressiveRun claimed context = _ := hrun
  simp only [SubmissionWork.progressiveCompletion, hresult] at h
  cases ending with
  | failed reason =>
      cases h
      exact .kept (fun _ _ => rfl)
  | stopped reason =>
      obtain ⟨k, x, hlength, hstage, hverdict⟩ := hstretch.endsAt
      simp only [Progress.conclude, Progress.result, if_true] at h
      obtain ⟨score, hscore, rfl⟩ := Option.map_eq_some_iff.mp h
      rw [hlength, ← Nat.add_assoc]
      refine .stopped (Nat.le_add_right _ _) ?_
      intro hmode hpasses
      rw [hmode] at hverdict
      exact hpasses.verdict_ne_stop hstage hverdict
  | exhausted =>
      have hpast := hstretch.endsAt
      simp only [Progress.conclude, Progress.result, if_true] at h
      obtain ⟨score, hscore, rfl⟩ := Option.map_eq_some_iff.mp h
      refine .exhausted (Nat.le_add_right _ _) ?_
      simpa [EndsAt, EvaluationPlan.stage, EvaluationPlan.stageAt] using hpast
  | paused reason =>
      obtain ⟨k, x, hlength, hstage, hverdict⟩ := hstretch.endsAt
      obtain ⟨hmode, hheavy⟩ := EvaluationPlan.verdict_pause hverdict
      simp only [Progress.conclude, Progress.result] at h
      cases h
      rw [hlength, ← Nat.add_assoc]
      refine .deferred hmode (by omega) hheavy ?_
      rw [hmode] at hstretch
      intro j hstart hlt
      exact passes_of_paused hstretch hstart (by omega)

/-- Whatever branch a worker took, its completion writes a stage so. -/
theorem stageWrite_of_completion {Process : Type} {cfg : Deployment Process}
    {claimed : EvaluationRow} {done : WorkDone} {c : Completion}
    (h : done.completion cfg claimed = some c) :
    StageWrite (cfg.work claimed.submissionId) claimed c := by
  cases done with
  | submissionMissing =>
      cases h
      exact .kept (fun _ _ => rfl)
  | invalidWorkload error =>
      cases h
      exact .kept (fun _ _ => rfl)
  | legacy executionCpuMs =>
      simp only [WorkDone.completion, SubmissionWork.legacyCompletion] at h
      split at h
      · cases h
        exact .kept (fun _ _ => rfl)
      · obtain ⟨score, -, rfl⟩ := Option.map_eq_some_iff.mp h
        exact .kept (fun _ _ => rfl)
  | synthetic report =>
      simp only [WorkDone.completion, syntheticCompletion] at h
      split at h
      · cases h
        exact .kept (fun _ _ => rfl)
      · obtain ⟨score, -, rfl⟩ := Option.map_eq_some_iff.mp h
        exact .kept (fun _ _ => rfl)
      · cases h
        exact .kept (fun _ _ => rfl)
  | progressive context => exact stageWrite_progressive h

/-- **Stages do not fall.**  A completion computed from an escalated stage of the
row, possibly an earlier one, writes no lower stage, and one that leaves the
evaluation open writes an escalated stage. -/
theorem StageWrite.stage {work : SubmissionWork} {claimed row : EvaluationRow} {c : Completion}
    {first : Nat} (h : StageWrite work claimed c)
    (hmode : claimed.evaluationMode = row.evaluationMode)
    (hclaimed : Escalated work row.evaluationMode first claimed.currentStage)
    (hrow : Escalated work row.evaluationMode first row.currentStage) (now : Timestamp) :
    row.currentStage ≤ (c.apply now row).currentStage ∧
      ((c.apply now row).status.terminal ∨
        Escalated work row.evaluationMode first (c.apply now row).currentStage) := by
  have hfirst := hclaimed.le
  cases h with
  | kept hkept =>
      rw [hkept]
      exact ⟨le_rfl, Or.inr hrow⟩
  | @stopped score metadata k hstart hstop =>
      refine ⟨?_, Or.inl (Or.inl rfl)⟩
      rcases hrow with hsame | ⟨hadaptive, -, -, hpassed⟩
      · calc row.currentStage = first := hsame
          _ ≤ k + 1 := by omega
      · -- the run stopped at a stage that the row has not passed
        have hbehind : row.currentStage ≤ k := by
          by_contra hlt
          exact hstop (hmode.trans hadaptive) (hpassed k (by omega) (by omega))
        exact le_trans hbehind (Nat.le_succ k)
  | @exhausted score metadata next hstart hpast =>
      refine ⟨?_, Or.inl (Or.inl rfl)⟩
      rcases hrow with hsame | ⟨-, -, hheavy, -⟩
      · calc row.currentStage = first := hsame
          _ ≤ next := by omega
      · have hlast : DEFAULT_PLAN.stages.length = 3 := rfl
        have htwo := heavyStage_iff.mp hheavy
        calc row.currentStage = 2 := htwo
          _ ≤ next := by omega
  | @deferred workload metadata next hadaptive hstart hheavy hpasses =>
      have hpassed : ∀ k, first ≤ k → k < next → work.Passes k := by
        intro k hk hlt
        by_cases hbefore : k < claimed.currentStage
        · rcases hclaimed with hsame | ⟨-, -, -, hclaimedPassed⟩
          · omega
          · exact hclaimedPassed k hk hbefore
        · exact hpasses k (by omega) hlt
      have hstage : (Completion.apply now row (.deferred next workload metadata)).currentStage =
          next := rfl
      rw [hstage]
      refine ⟨?_, Or.inr (Or.inr ⟨hmode.symm.trans hadaptive, by omega, hheavy, hpassed⟩)⟩
      rcases hrow with hsame | ⟨-, -, hheavy', -⟩
      · calc row.currentStage = first := hsame
          _ ≤ next := by omega
      · -- the plan has one stage that can be put off
        exact le_of_eq ((heavyStage_iff.mp hheavy').trans (heavyStage_iff.mp hheavy).symm)

/-! ## Every claim of a row starts where the row has come to -/

namespace Workers

variable {Process : Type} {cfg : Deployment Process} {s t : Workers Process}

/-- The row has escalated from stage `first`, and so has every claim that is
still worked on. -/
structure EscalatedFrom (cfg : Deployment Process) (s : Workers Process) (row : EvaluationRow)
    (first : Nat) : Prop where
  reached : Escalated (cfg.work row.submissionId) row.evaluationMode first row.currentStage
  claims : ∀ p claimed, s.claimed p = some claimed → claimed.id = row.id →
    claimed.submissionId = row.submissionId ∧ claimed.evaluationMode = row.evaluationMode ∧
      Escalated (cfg.work row.submissionId) row.evaluationMode first claimed.currentStage

/-- What is worked on are rows of the table, and the open ones have escalated
with their claims. -/
structure StagesEscalated (cfg : Deployment Process) (s : Workers Process) : Prop where
  worked : ∀ p claimed, s.claimed p = some claimed → ∃ row ∈ s.db.evaluations, row.id = claimed.id
  escalated : ∀ row ∈ s.db.evaluations, ¬ row.status.terminal → ∃ first,
    EscalatedFrom cfg s row first

/-- How a row changes in a step of the workers, as far as its stage goes. -/
structure StageStep (cfg : Deployment Process) (s : Workers Process)
    (row row' : EvaluationRow) : Prop where
  submissionId : row'.submissionId = row.submissionId
  evaluationMode : row'.evaluationMode = row.evaluationMode
  live : ¬ row.status.terminal
  stage : ∀ first, EscalatedFrom cfg s row first → row.currentStage ≤ row'.currentStage ∧
    (row'.status.terminal ∨
      Escalated (cfg.work row.submissionId) row.evaluationMode first row'.currentStage)

/-- A row whose stage is left alone. -/
theorem StageStep.of_same {row row' : EvaluationRow} (hlive : ¬ row.status.terminal)
    (hsubmission : row'.submissionId = row.submissionId)
    (hmode : row'.evaluationMode = row.evaluationMode)
    (hstage : row'.currentStage = row.currentStage) : StageStep cfg s row row' where
  submissionId := hsubmission
  evaluationMode := hmode
  live := hlive
  stage first h := by
    rw [hstage]
    exact ⟨le_rfl, Or.inr h.reached⟩

/-- A row of an id the table did not hold. -/
def FreshRow (s : Workers Process) (row : EvaluationRow) : Prop :=
  ∀ other ∈ s.db.evaluations, other.id ≠ row.id

/-- Claims are dropped, or made of a row as it is. -/
def ClaimsFrom (s t : Workers Process) : Prop :=
  ∀ p claimed, t.claimed p = some claimed → s.claimed p = some claimed ∨
    ∃ row ∈ s.db.evaluations, claimed.id = row.id ∧ claimed.submissionId = row.submissionId ∧
      claimed.evaluationMode = row.evaluationMode ∧ claimed.currentStage = row.currentStage

/-- Escalation is kept by a step that changes stages so. -/
theorem StagesEscalated.evolve (h : StagesEscalated cfg s)
    (hrows : Table.Evolves (StageStep cfg s) (FreshRow s) s.db.evaluations t.db.evaluations)
    (hclaims : ClaimsFrom s t) : StagesEscalated cfg t := by
  constructor
  · intro p claimed hclaimed
    have hworked : ∃ row ∈ s.db.evaluations, row.id = claimed.id := by
      rcases hclaims p claimed hclaimed with hold | ⟨row, hrow, hid, -⟩
      · exact h.worked p claimed hold
      · exact ⟨row, hrow, hid.symm⟩
    obtain ⟨row, hrow, hid⟩ := hworked
    obtain ⟨row', hrow', hid', -⟩ := hrows.kept row hrow
    exact ⟨row', hrow', hid'.trans hid⟩
  · intro row' hrow' hlive'
    rcases hrows.source row' hrow' with ⟨row, hrow, hid, hchange⟩ | hfresh
    · have hlive : ¬ row.status.terminal := by
        rcases hchange with rfl | hstep
        · exact hlive'
        · exact hstep.live
      obtain ⟨first, hfirst⟩ := h.escalated row hrow hlive
      obtain ⟨hsubmission, hmode, hreached⟩ : row'.submissionId = row.submissionId ∧
          row'.evaluationMode = row.evaluationMode ∧
          Escalated (cfg.work row.submissionId) row.evaluationMode first row'.currentStage := by
        rcases hchange with rfl | hstep
        · exact ⟨rfl, rfl, hfirst.reached⟩
        · exact ⟨hstep.submissionId, hstep.evaluationMode,
            (hstep.stage first hfirst).2.resolve_left hlive'⟩
      refine ⟨first, ?_, ?_⟩
      · rw [hsubmission, hmode]
        exact hreached
      · intro p claimed hclaimed hsame
        rw [hsubmission, hmode]
        rcases hclaims p claimed hclaimed with
          hold | ⟨origin, horigin, hcid, hcsub, hcmode, hcstage⟩
        · exact hfirst.claims p claimed hold (hsame.trans hid)
        · obtain rfl : origin = row :=
            Table.eq_of_key_eq horigin hrow (hcid.symm.trans (hsame.trans hid))
          exact ⟨hcsub, hcmode, by rw [hcstage]; exact hfirst.reached⟩
    · refine ⟨row'.currentStage, Or.inl rfl, ?_⟩
      intro p claimed hclaimed hsame
      obtain ⟨row, hrow, hid⟩ : ∃ row ∈ s.db.evaluations, row.id = claimed.id := by
        rcases hclaims p claimed hclaimed with hold | ⟨origin, horigin, hcid, -⟩
        · exact h.worked p claimed hold
        · exact ⟨origin, horigin, hcid.symm⟩
      exact absurd (hid.trans hsame) (hfresh row hrow)

/-! ## Steps -/

theorem claimsFrom_refl (h : t.claimed = s.claimed) : ClaimsFrom s t := by
  intro p claimed hclaimed
  exact Or.inl (by rw [← h]; exact hclaimed)

/-- Recovery leaves the stage alone. -/
theorem stageStep_recover {row : EvaluationRow} (hrunning : row.status = .running) (os : OsView)
    (maxAttempts : Int) (now : Timestamp) :
    StageStep cfg s row (row.recover os maxAttempts now) := by
  have hlive : ¬ row.status.terminal := by simp [EvaluationStatus.terminal, hrunning]
  obtain ⟨metadata, hquarantine | habandon⟩ := row.recover_cases os maxAttempts now
  · rw [hquarantine]
    exact .of_same hlive rfl rfl rfl
  · rw [habandon]
    unfold EvaluationRow.requeueOrAbandon
    split
    · exact .of_same hlive rfl rfl rfl
    · exact .of_same hlive rfl rfl rfl

/-- A completion writes the stage it computed, possibly for another claim of the row. -/
theorem stageStep_complete {row claimed : EvaluationRow} {p : Process} {c : Completion}
    (hrunning : row.status = .running) (hclaimed : s.claimed p = some claimed)
    (hid : claimed.id = row.id) (hwrite : StageWrite (cfg.work claimed.submissionId) claimed c)
    (now : Timestamp) : StageStep cfg s row (c.apply now row) where
  submissionId := by cases c <;> rfl
  evaluationMode := by cases c <;> rfl
  live := by simp [EvaluationStatus.terminal, hrunning]
  stage first hfirst := by
    obtain ⟨hsubmission, hmode, hreached⟩ := hfirst.claims p claimed hclaimed hid
    rw [hsubmission] at hwrite
    exact hwrite.stage hmode hreached hfirst.reached now

section Steps

variable [DecidableEq Process]

/-- Dropping a claim makes none. -/
theorem claimsFrom_drop {p : Process} (h : t.claimed = Function.update s.claimed p none) :
    ClaimsFrom s t := by
  intro q claimed hclaimed
  rw [h] at hclaimed
  by_cases hq : q = p
  · subst hq
    simp at hclaimed
  · exact Or.inl (by simpa [Function.update_of_ne hq] using hclaimed)

/-- **Step inversion for stages.**  A step changes the rows by `StageStep`, and
makes claims of rows as they are. -/
theorem stages_step {a : EvaluatorAction Process} (h : WorkerStep cfg s a t) :
    Table.Evolves (StageStep cfg s) (FreshRow s) s.db.evaluations t.db.evaluations ∧
      ClaimsFrom s t := by
  cases h with
  | created hcreate =>
      obtain ⟨-, row, evaluations, hnew, hinsert, rfl⟩ :=
        EvaluationDb.createQueued_inserts hcreate
      refine ⟨.insert hinsert ?_, claimsFrom_refl rfl⟩
      exact Table.find?_eq_none_iff.mp (Table.insert_eq_some_iff.mp hinsert).1
  | foundNothing => exact ⟨.refl _, claimsFrom_refl rfl⟩
  | @claimed p args now row state hidle hdec =>
      obtain ⟨hrow, hqueued⟩ := hdec.queued
      constructor
      · refine .update (EvaluationRow.startRunning_id (cfg.workerIdOf p) now) ?_
        intro other hother hid
        obtain rfl : other = row := Table.eq_of_key_eq hother hrow (of_decide_eq_true hid)
        exact .of_same (by simp [EvaluationStatus.terminal, hqueued]) rfl rfl rfl
      · intro q claimed hclaimed
        by_cases hq : q = p
        · subst hq
          simp only [Function.update_self, Option.some.injEq] at hclaimed
          subst hclaimed
          exact Or.inr ⟨row, hrow, rfl, rfl, rfl, rfl⟩
        · exact Or.inl (by simpa [Function.update_of_ne hq] using hclaimed)
  | @recorded p attempt claimed hclaimed =>
      refine ⟨.update (f := EvaluationDb.recordAttempt attempt) (fun _ => rfl) ?_,
        claimsFrom_refl rfl⟩
      intro row hrow howned
      have hrunning := (EvaluationRow.ownedBy_iff.mp howned).2.1
      exact .of_same (by simp [EvaluationStatus.terminal, hrunning]) rfl rfl rfl
  | @finished p now done claimed c hclaimed hmode hcompletion =>
      refine ⟨?_, claimsFrom_drop rfl⟩
      rw [EvaluationDb.complete_eq_apply]
      refine .update (fun row => c.apply_id now row) ?_
      intro row hrow howned
      obtain ⟨hid, hrunning, -⟩ := EvaluationRow.ownedBy_iff.mp howned
      exact stageStep_complete hrunning hclaimed hid.symm
        (stageWrite_of_completion hcompletion) now
  | dropped => exact ⟨.refl _, claimsFrom_drop rfl⟩
  | @recovered staleBefore now os =>
      have hrewrite := EvaluationDb.recover_rewrite staleBefore cfg.maxAttempts now os
      refine ⟨.update hrewrite.id ?_, claimsFrom_refl rfl⟩
      intro row hrow hstale
      exact stageStep_recover (hrewrite.running row hstale) (os row.id) cfg.maxAttempts now

theorem stages_of_reach (h : (evaluationWorkers cfg).Reach always s) : StagesEscalated cfg s := by
  refine h.invariant ?_ ?_
  · intro s hidle
    constructor
    · intro p claimed hclaimed
      rw [hidle.2 p] at hclaimed
      cases hclaimed
    · intro row hrow
      exact absurd hrow (by simp [Table.mem_iff, hidle.1])
  · intro s a t hs _ hstep
    obtain ⟨hrows, hclaims⟩ := stages_step (step_spec hstep)
    exact hs.evolve hrows hclaims

/-- What becomes of a row along a run. -/
def Follows (row row' : EvaluationRow) : Prop :=
  row.currentStage ≤ row'.currentStage ∧ (row.status.terminal → row' = row)

theorem Follows.refl (row : EvaluationRow) : Follows row row := ⟨le_rfl, fun _ => rfl⟩

theorem Follows.trans {row row' row'' : EvaluationRow} (h : Follows row row')
    (h' : Follows row' row'') : Follows row row'' := by
  refine ⟨le_trans h.1 h'.1, ?_⟩
  intro hterminal
  have hsame := h.2 hterminal
  rw [h'.2 (by rw [hsame]; exact hterminal), hsame]

/-- **Stages along a run.**  No stage falls, and no terminal row changes. -/
theorem follows_of_path (hs : (evaluationWorkers cfg).Reach always s)
    (h : (evaluationWorkers cfg).Path always s t) :
    Table.Keeps Follows s.db.evaluations t.db.evaluations := by
  have hboth : (evaluationWorkers cfg).Reach always t ∧
      Table.Keeps Follows s.db.evaluations t.db.evaluations := by
    refine h.preserves (I := fun t => (evaluationWorkers cfg).Reach always t ∧
      Table.Keeps Follows s.db.evaluations t.db.evaluations) ?_ ⟨hs, .refl Follows.refl _⟩
    intro u a t hI hok hstep
    refine ⟨hI.1.snoc hok hstep, hI.2.trans Follows.trans ?_⟩
    intro row hrow
    obtain ⟨hrows, -⟩ := stages_step (step_spec hstep)
    obtain ⟨row', hrow', hid, rfl | hchange⟩ := hrows.kept row hrow
    · exact ⟨row', hrow', hid, Follows.refl row'⟩
    · obtain ⟨first, hfirst⟩ := (stages_of_reach hI.1).escalated row hrow hchange.live
      exact ⟨row', hrow', hid, (hchange.stage first hfirst).1,
        fun hterminal => absurd hterminal hchange.live⟩
  exact hboth.2

/-- What holds of the rows of a store, and of what becomes of them. -/
structure CoherentRows (cfg : Deployment Process) (s : Workers Process) : Prop where
  queued : ∀ row ∈ s.db.evaluations, row.status = .queued →
    row.workerId = none ∧ row.startedAt = none ∧ row.completedAt = none ∧ row.score = none
  running : ∀ row ∈ s.db.evaluations, row.status = .running →
    row.workerId ≠ none ∧ row.startedAt ≠ none ∧ row.completedAt = none ∧
      row.failureReason = none ∧ 1 ≤ row.attemptCount
  succeeded : ∀ row ∈ s.db.evaluations, row.status = .succeeded →
    (∃ score ∈ row.score, 0 ≤ score.val ∧ score.val ≤ 100) ∧ row.completedAt ≠ none ∧
      row.failureReason = none
  failed : ∀ row ∈ s.db.evaluations, row.status = .failed →
    row.score = none ∧ row.completedAt ≠ none ∧ row.failureReason ≠ none
  /-- A step changes a status only as the domain allows. -/
  transitions : ∀ a t, s.step cfg a = some t → ∀ row ∈ s.db.evaluations,
    ∃ row' ∈ t.db.evaluations, row'.id = row.id ∧
      (row'.status = row.status ∨ row'.status ∈ row.status.allowedTransitions)
  /-- No later state has a row at a lower stage, or changes a terminal row. -/
  later : ∀ t, (evaluationWorkers cfg).Path always s t → ∀ row ∈ s.db.evaluations,
    ∃ row' ∈ t.db.evaluations, row'.id = row.id ∧ row.currentStage ≤ row'.currentStage ∧
      (row.status = .succeeded ∨ row.status = .failed → row' = row)

/-- **Evaluation row coherence.**  In every run of the workers, under arbitrary
worker ids and any `max_attempts`. -/
theorem rows_coherent (cfg : Deployment Process) (s : Workers Process)
    (h : (evaluationWorkers cfg).Reach always s) : CoherentRows cfg s := by
  have hcoherent := coherent_of_reach (db_of_reach h)
  constructor
  · intro row hrow hqueued
    simpa [RowCoherent, hqueued] using hcoherent row hrow
  · intro row hrow hrunning
    obtain ⟨hworker, hstarted, hcompleted, hreason, hattempt, -⟩ :=
      (hcoherent row hrow).of_running hrunning
    exact ⟨hworker, hstarted, hcompleted, hreason, hattempt⟩
  · intro row hrow hsucceeded
    obtain ⟨hscore, hcompleted, hreason⟩ : row.score ≠ none ∧ row.completedAt ≠ none ∧
        row.failureReason = none := by
      simpa [RowCoherent, hsucceeded] using hcoherent row hrow
    obtain ⟨score, hscore⟩ := Option.ne_none_iff_exists'.mp hscore
    exact ⟨⟨score, hscore, score.property⟩, hcompleted, hreason⟩
  · intro row hrow hfailed
    simpa [RowCoherent, hfailed] using hcoherent row hrow
  · intro a t hstep
    rcases queue_step hstep with hsame | ⟨transaction, htransact⟩
    · rw [hsame]
      exact fun row hrow => ⟨row, hrow, rfl, Or.inl rfl⟩
    · exact (transact_evolves htransact).keeps (fun _ => Or.inl rfl)
        (fun _ _ hrow => hrow.transition)
  · intro t hpath
    exact follows_of_path h hpath

end Steps

end Workers

/-! ## A superseded worker that writes late -/

/-- No stage of the submission is confident. -/
def uncertainWork : SubmissionWork where
  runStage spec _ := .ok
    { confidence := .uncertain
      score := 55
      peakAllocBytes := 0
      evidence := [("stage", .str spec.name)]
      safeToTerminate := false }
  evaluateSubmission _ _ := .ok (55, [])

/-- Two processes under one worker id. -/
def sharedIdDeployment : Deployment Bool where
  workerIdOf _ := "worker-1"
  maxAttempts := 3
  work _ := uncertainWork

/-- A context without a deadline. -/
def underPressure (pressure : PressureState) : ClaimContext :=
  ⟨pressure, none, fun _ => 0, fun _ => 0⟩

/-- The first worker hangs in its claim; the second runs two stages, defers the
third under pressure and claims it; then the first writes, under the same id. -/
def lateWriteRun : List (EvaluatorAction Bool) :=
  let args : ClaimArgs := ⟨"", .fifo, 1, 1, 0⟩
  [.createQueued 1 10 .light .resourceAwareAdaptive none 0 0, .claimNext true args 1,
    .recoverStaleRunning 50 60 (fun _ => ⟨fun _ => false, fun _ => ⟨false, [], [], false⟩⟩),
    .claimNext false args 61, .finish false 62 (.progressive (underPressure .degraded)),
    .claimNext false args 63, .finish true 64 (.progressive (underPressure .normal))]

theorem rows_coherent_late_write :
    ∃ s, (∃ row ∈ s.db.evaluations, row.status = .succeeded ∧ row.currentStage = 3 ∧
        row.attemptCount = 3) ∧
      Workers.CoherentRows sharedIdDeployment s := by
  have hstart : (evaluationWorkers sharedIdDeployment).start
      ⟨⟨Table.empty, none⟩, fun _ => none⟩ := ⟨rfl, fun _ => rfl⟩
  obtain ⟨s, hreach, htest⟩ : ∃ s, (evaluationWorkers sharedIdDeployment).Reach always s ∧
      decide (∃ row ∈ s.db.evaluations, row.status = .succeeded ∧ row.currentStage = 3 ∧
        row.attemptCount = 3) = true :=
    System.reach_of_test _ lateWriteRun _ hstart (by decide)
  exact ⟨s, of_decide_eq_true htest, Workers.rows_coherent sharedIdDeployment s hreach⟩

end ChallengeForge
