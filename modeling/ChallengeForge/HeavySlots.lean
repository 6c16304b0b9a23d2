import ChallengeForge.StageExecution

/-!
# What the HEAVY budget bounds

`max_concurrent_heavy` is compared with the RUNNING rows whose `workload_class`
is HEAVY, when a row with that label is claimed.  The label of a row is written at
its creation and by deferrals; a run that goes on to the HEAVY stage within its
claim leaves it alone, and a superseded run holds no row.

* `heavy_slots_hold` — the budget bounds the HEAVY stages of the evaluations that are
  claimed as HEAVY, under that label or to resume at such a stage;
* `heavy_slots_exceeded` — other claims execute the HEAVY stage beside them.
-/

namespace ChallengeForge

open Keyed Labelled

/-- Stage `k` of the plan is a HEAVY one. -/
def RunsHeavy (k : Nat) : Prop := ∃ spec ∈ DEFAULT_PLAN.stageAt k, spec.workloadClass = .heavy

/-- A deferral of a HEAVY stage labels the row so. -/
theorem deferredClass_heavy {k : Nat} (h : RunsHeavy k) :
    SubmissionWork.deferredClass k = .heavy := by
  obtain ⟨spec, hspec, hclass⟩ := h
  rw [SubmissionWork.deferredClass, Option.mem_def.mp hspec]
  exact hclass

/-! ## Attempts and labels of a row -/

/-- What a transaction does to the attempts of a row, and to its label while the
attempt runs. -/
theorem RowStep.attempt {row row' : EvaluationRow} (h : RowStep row row') :
    row.attemptCount ≤ row'.attemptCount ∧
      (row'.attemptCount = row.attemptCount → row'.status = .running →
        row.status = .running ∧ row'.workloadClass = row.workloadClass) := by
  cases h with
  | claimed workerId now hqueued =>
      refine ⟨Nat.le_succ _, ?_⟩
      intro hsame
      exact absurd hsame (Nat.succ_ne_self _)
  | recorded attempt hrunning => exact ⟨le_rfl, fun _ _ => ⟨hrunning, rfl⟩⟩
  | completed now c hrunning =>
      constructor
      · cases c <;> exact le_rfl
      · intro _ hstatus
        cases c <;> cases hstatus
  | recovered os maxAttempts now hrunning =>
      obtain ⟨-, -, -, hcount, -, hsettled, -⟩ := row.recover_spec os maxAttempts now
      exact ⟨le_of_eq hcount.symm, fun _ hstatus => absurd hstatus hsettled⟩

/-- A completion writes the label of the stage it puts off, or no label. -/
theorem WorkDone.completion_label {Process : Type} {cfg : Deployment Process}
    {claimed row : EvaluationRow} {done : WorkDone} {c : Completion} {now : Timestamp}
    (hcompletion : done.completion cfg claimed = some c)
    (hopen : ¬ (c.apply now row).status.terminal) :
    ((c.apply now row).currentStage = row.currentStage ∧
        (c.apply now row).workloadClass = row.workloadClass) ∨
      (c.apply now row).workloadClass =
        SubmissionWork.deferredClass (c.apply now row).currentStage := by
  cases c with
  | succeeded score metadata => exact absurd (Or.inl rfl) hopen
  | succeededAtStage score metadata stage => exact absurd (Or.inl rfl) hopen
  | failed reason metadata => exact absurd (Or.inr rfl) hopen
  | released metadata reason => exact Or.inl ⟨rfl, rfl⟩
  | deferred stage workload metadata =>
      right
      show workload = SubmissionWork.deferredClass stage
      cases done with
      | submissionMissing => cases hcompletion
      | invalidWorkload error => cases hcompletion
      | legacy executionCpuMs =>
          simp only [completion, SubmissionWork.legacyCompletion] at hcompletion
          split at hcompletion
          · cases hcompletion
          · obtain ⟨score, -, hc⟩ := Option.map_eq_some_iff.mp hcompletion
            cases hc
      | synthetic report =>
          simp only [completion, syntheticCompletion] at hcompletion
          split at hcompletion
          · cases hcompletion
          · obtain ⟨score, -, hc⟩ := Option.map_eq_some_iff.mp hcompletion
            cases hc
          · cases hcompletion
      | progressive context =>
          simp only [completion, SubmissionWork.progressiveCompletion] at hcompletion
          split at hcompletion
          · cases hcompletion
          · split at hcompletion
            · obtain ⟨score, -, hc⟩ := Option.map_eq_some_iff.mp hcompletion
              cases hc
            · cases hcompletion
              rfl

namespace Workers

variable {Process : Type} {cfg : Deployment Process} {s t : Workers Process}

/-! ## Claims and attempts -/

/-- A row as its claim returned it. -/
structure MadeOf (s t : Workers Process) (claimed row : EvaluationRow) : Prop where
  mem : row ∈ s.db.evaluations
  queued : row.status = .queued
  id : claimed.id = row.id
  attempt : claimed.attemptCount = row.attemptCount + 1
  stage : claimed.currentStage = row.currentStage
  label : claimed.workloadClass = row.workloadClass
  running : claimed ∈ t.db.evaluations

/-- **Claims of a step.**  They were there before, but for one that is made of a
queued row. -/
theorem claims_made [DecidableEq Process] {a : EvaluatorAction Process}
    (h : WorkerStep cfg s a t) :
    (∀ q c, t.claimed q = some c → s.claimed q = some c) ∨
      ∃ p claimed row, t.claimed = Function.update s.claimed p (some claimed) ∧
        MadeOf s t claimed row := by
  have hdropped : ∀ p, t.claimed = Function.update s.claimed p none →
      ∀ q c, t.claimed q = some c → s.claimed q = some c := by
    intro p hdrop q c hclaimed
    rw [hdrop] at hclaimed
    by_cases hq : q = p
    · subst hq
      simp at hclaimed
    · simpa [Function.update_of_ne hq] using hclaimed
  cases h with
  | created hcreate => exact Or.inl (fun _ _ h => h)
  | foundNothing => exact Or.inl (fun _ _ h => h)
  | @claimed p args now row state hidle hdec =>
      obtain ⟨hrow, hqueued⟩ := hdec.queued
      refine Or.inr ⟨p, _, row, rfl, hrow, hqueued, rfl, rfl, rfl, rfl, ?_⟩
      exact (Table.mem_update (EvaluationRow.startRunning_id (cfg.workerIdOf p) now)).mpr
        ⟨row, hrow, by simp⟩
  | recorded hclaimed => exact Or.inl (fun _ _ h => h)
  | @finished p now done row c hclaimed hmode hcompletion => exact Or.inl (hdropped p rfl)
  | @dropped a p => exact Or.inl (hdropped p rfl)
  | recovered => exact Or.inl (fun _ _ h => h)

/-- Every claim is of a row that has counted its attempt, and carries the row's label
while that attempt runs; no two claims are of the same attempt. -/
structure ClaimsCounted (s : Workers Process) : Prop where
  counted : ∀ p claimed, s.claimed p = some claimed → ∃ row ∈ s.db.evaluations,
    row.id = claimed.id ∧ claimed.attemptCount ≤ row.attemptCount ∧
      (row.attemptCount = claimed.attemptCount → row.status = .running →
        row.workloadClass = claimed.workloadClass)
  distinct : ∀ p q c d, s.claimed p = some c → s.claimed q = some d → c.id = d.id →
    c.attemptCount = d.attemptCount → p = q

/-- The table counts more attempts than any claim of a row it has requeued. -/
theorem ClaimsCounted.lt_of_madeOf (h : ClaimsCounted s) {claimed row c : EvaluationRow}
    {p : Process} (hmade : MadeOf s t claimed row) (hold : s.claimed p = some c)
    (hid : c.id = claimed.id) : c.attemptCount < claimed.attemptCount := by
  obtain ⟨other, hother, hkey, hle, -⟩ := h.counted p c hold
  obtain rfl : other = row := Table.eq_of_key_eq hother hmade.mem
    (hkey.trans (hid.trans hmade.id))
  rw [hmade.attempt]
  exact Nat.lt_succ_of_le hle

theorem ClaimsCounted.step [DecidableEq Process] (h : ClaimsCounted s)
    {a : EvaluatorAction Process} (hstep : s.step cfg a = some t) : ClaimsCounted t := by
  have hrows : Table.Evolves RowStep EvaluationRow.New s.db.evaluations t.db.evaluations := by
    rcases queue_step hstep with hsame | ⟨transaction, htransact⟩
    · rw [hsame]
      exact .refl _
    · exact transact_evolves htransact
  have hold : ∀ p claimed, s.claimed p = some claimed → ∃ row ∈ t.db.evaluations,
      row.id = claimed.id ∧ claimed.attemptCount ≤ row.attemptCount ∧
        (row.attemptCount = claimed.attemptCount → row.status = .running →
          row.workloadClass = claimed.workloadClass) := by
    intro p claimed hclaimed
    obtain ⟨row, hrow, hid, hle, hlabel⟩ := h.counted p claimed hclaimed
    obtain ⟨row', hrow', hid', rfl | hchange⟩ := hrows.kept row hrow
    · exact ⟨row', hrow', hid, hle, hlabel⟩
    · obtain ⟨hmono, hkept⟩ := hchange.attempt
      refine ⟨row', hrow', hid'.trans hid, le_trans hle hmono, ?_⟩
      intro hcount hrunning
      have hsame : row.attemptCount = claimed.attemptCount := by omega
      obtain ⟨hwas, hclass⟩ := hkept (by omega) hrunning
      exact hclass.trans (hlabel hsame hwas)
  rcases claims_made (step_spec hstep) with hsame | ⟨p, claimed, row, hupdate, hmade⟩
  · constructor
    · intro q c hc
      exact hold q c (hsame q c hc)
    · intro q r c d hc hd
      exact h.distinct q r c d (hsame q c hc) (hsame r d hd)
  · have hnew : ∀ q c, t.claimed q = some c → (q = p ∧ c = claimed) ∨
        (q ≠ p ∧ s.claimed q = some c) := by
      intro q c hc
      rw [hupdate] at hc
      by_cases hq : q = p
      · subst hq
        exact Or.inl ⟨rfl, by simpa using hc.symm⟩
      · exact Or.inr ⟨hq, by simpa [Function.update_of_ne hq] using hc⟩
    constructor
    · intro q c hc
      rcases hnew q c hc with ⟨-, rfl⟩ | ⟨-, hc⟩
      · exact ⟨c, hmade.running, rfl, le_rfl, fun _ _ => rfl⟩
      · exact hold q c hc
    · intro q r c d hc hd hid hcount
      rcases hnew q c hc with ⟨rfl, rfl⟩ | ⟨-, hc⟩
      · rcases hnew r d hd with ⟨rfl, -⟩ | ⟨-, hd⟩
        · rfl
        · have hlt := h.lt_of_madeOf hmade hd hid.symm
          omega
      · rcases hnew r d hd with ⟨rfl, rfl⟩ | ⟨-, hd⟩
        · have hlt := h.lt_of_madeOf hmade hc hid
          omega
        · exact h.distinct q r c d hc hd hid hcount

/-! ## The budget and the labels -/

/-- Every claim is within the HEAVY budget, and nobody passes `create_queued` a stage. -/
def heavyBudget (K : Nat) : Condition (Workers Process) (EvaluatorAction Process)
  | _, .claimNext _ args _ => args.maxConcurrentHeavy ≤ K
  | _, .createQueued _ _ _ _ _ stage _ => stage = 0
  | _, .beginExecutionAttempt _ _ | _, .finish _ _ _ | _, .die _
  | _, .recoverStaleRunning _ _ _ => True

/-- A row at a HEAVY stage is labelled HEAVY. -/
def HeavyLabelled (row : EvaluationRow) : Prop :=
  RunsHeavy row.currentStage → row.workloadClass = .heavy

theorem HeavyLabelled.congr {row row' : EvaluationRow} (h : HeavyLabelled row)
    (hstage : row'.currentStage = row.currentStage)
    (hlabel : row'.workloadClass = row.workloadClass) : HeavyLabelled row' := by
  unfold HeavyLabelled at h ⊢
  rw [hstage, hlabel]
  exact h

/-- How a row changes, as far as its label goes. -/
def LabelStep (row row' : EvaluationRow) : Prop :=
  ¬ row.status.terminal ∧ (HeavyLabelled row → ¬ row'.status.terminal → HeavyLabelled row')

section Steps

variable [DecidableEq Process]

theorem labels_step {K : Nat} {a : EvaluatorAction Process} (hok : heavyBudget K s a)
    (h : WorkerStep cfg s a t) :
    Table.Evolves LabelStep HeavyLabelled s.db.evaluations t.db.evaluations := by
  cases h with
  | created hcreate =>
      obtain ⟨-, row, evaluations, hnew, hinsert, rfl⟩ :=
        EvaluationDb.createQueued_inserts hcreate
      refine .insert hinsert ?_
      intro hheavy
      rw [hnew.currentStage, show _ = 0 from hok] at hheavy
      obtain ⟨spec, hspec, hclass⟩ := hheavy
      cases hspec
      cases hclass
  | foundNothing => exact .refl _
  | @claimed p args now row state hidle hdec =>
      obtain ⟨hrow, hqueued⟩ := hdec.queued
      refine .update (EvaluationRow.startRunning_id (cfg.workerIdOf p) now) ?_
      intro other hother hid
      obtain rfl : other = row := Table.eq_of_key_eq hother hrow (of_decide_eq_true hid)
      exact ⟨by simp [EvaluationStatus.terminal, hqueued], fun hlabel _ => hlabel.congr rfl rfl⟩
  | @recorded p attempt claimed hclaimed =>
      refine .update (f := EvaluationDb.recordAttempt attempt) (fun _ => rfl) ?_
      intro row hrow howned
      have hrunning := (EvaluationRow.ownedBy_iff.mp howned).2.1
      exact ⟨by simp [EvaluationStatus.terminal, hrunning], fun hlabel _ => hlabel.congr rfl rfl⟩
  | @finished p now done claimed c hclaimed hmode hcompletion =>
      rw [EvaluationDb.complete_eq_apply]
      refine .update (fun row => c.apply_id now row) ?_
      intro row hrow howned
      have hrunning := (EvaluationRow.ownedBy_iff.mp howned).2.1
      refine ⟨by simp [EvaluationStatus.terminal, hrunning], fun hlabel hopen => ?_⟩
      rcases WorkDone.completion_label hcompletion hopen with ⟨hstage, hclass⟩ | hdeferred
      · exact hlabel.congr hstage hclass
      · intro hheavy
        rw [hdeferred]
        exact deferredClass_heavy hheavy
  | dropped => exact .refl _
  | @recovered staleBefore now os =>
      have hrewrite := EvaluationDb.recover_rewrite staleBefore cfg.maxAttempts now os
      refine .update hrewrite.id ?_
      intro row hrow hstale
      have hrunning := hrewrite.running row hstale
      refine ⟨by simp [EvaluationStatus.terminal, hrunning], fun hlabel _ => ?_⟩
      obtain ⟨-, -, -, -, hclass, -, -⟩ := row.recover_spec (os row.id) cfg.maxAttempts now
      obtain ⟨metadata, hquarantine | habandon⟩ :=
        row.recover_cases (os row.id) cfg.maxAttempts now
      · exact hlabel.congr (by rw [hquarantine]; rfl) hclass
      · refine hlabel.congr ?_ hclass
        rw [habandon]
        unfold EvaluationRow.requeueOrAbandon
        split <;> rfl

/-- No step takes a HEAVY slot beyond the budget. -/
theorem runningHeavy_step {K : Nat} {a : EvaluatorAction Process} (hok : heavyBudget K s a)
    (h : WorkerStep cfg s a t) (hle : s.db.runningHeavy ≤ K) : t.db.runningHeavy ≤ K := by
  cases h with
  | created hcreate =>
      obtain ⟨-, row, evaluations, hnew, hinsert, rfl⟩ :=
        EvaluationDb.createQueued_inserts hcreate
      simpa [EvaluationDb.runningHeavy, Table.count_of_insert hinsert,
        EvaluationRow.isRunningHeavy, hnew.status] using hle
  | foundNothing => exact hle
  | @claimed p args now row state hidle hdec => exact hdec.runningHeavy_le hle hok _ now
  | @recorded p attempt claimed hclaimed =>
      exact le_trans (EvaluationDb.runningHeavy_rewrite_le
        (EvaluationDb.recordAttempt_rewrite claimed.id (cfg.workerIdOf p) attempt) rfl) hle
  | @finished p now done claimed c hclaimed hmode hcompletion =>
      obtain ⟨f, hf, -, heq⟩ := s.db.complete_eq claimed.id (cfg.workerIdOf p) now c
      rw [heq]
      exact le_trans (EvaluationDb.runningHeavy_rewrite_le
        (hf.ownedRewrite claimed.id (cfg.workerIdOf p)) rfl) hle
  | dropped => exact hle
  | @recovered staleBefore now os =>
      exact le_trans (EvaluationDb.runningHeavy_rewrite_le
        (EvaluationDb.recover_rewrite staleBefore cfg.maxAttempts now os) rfl) hle

/-- What holds of the workers when their claims are within the budget. -/
structure WithinHeavy (K : Nat) (s : Workers Process) : Prop where
  budget : s.db.runningHeavy ≤ K
  claims : ClaimsCounted s
  rows : ∀ row ∈ s.db.evaluations, ¬ row.status.terminal → HeavyLabelled row
  labels : ∀ p claimed, s.claimed p = some claimed → HeavyLabelled claimed

theorem withinHeavy_of_reach {K : Nat} (h : (evaluationWorkers cfg).Reach (heavyBudget K) s) :
    WithinHeavy K s := by
  refine h.invariant ?_ ?_
  · intro s hidle
    have hnone : ∀ p claimed, s.claimed p ≠ some claimed := by
      intro p claimed hclaimed
      rw [hidle.2 p] at hclaimed
      cases hclaimed
    have hempty : ∀ row, row ∉ s.db.evaluations := by
      intro row
      simp [Table.mem_iff, hidle.1]
    refine ⟨?_, ⟨?_, ?_⟩, ?_, ?_⟩
    · simp [EvaluationDb.runningHeavy, Table.count, hidle.1]
    · exact fun p claimed hclaimed => absurd hclaimed (hnone p claimed)
    · exact fun p q c d hc => absurd hc (hnone p c)
    · exact fun row hrow => absurd hrow (hempty row)
    · exact fun p claimed hclaimed => absurd hclaimed (hnone p claimed)
  · intro s a t hs hok hstep
    have hworker := step_spec hstep
    refine ⟨runningHeavy_step hok hworker hs.budget, hs.claims.step hstep, ?_, ?_⟩
    · refine (labels_step hok hworker).all ?_ (fun row hlabel _ => hlabel) hs.rows
      intro row row' hlabel hchange hopen
      exact hchange.2 (hlabel hchange.1) hopen
    · intro q c hc
      rcases claims_made hworker with hsame | ⟨p, claimed, row, hupdate, hmade⟩
      · exact hs.labels q c (hsame q c hc)
      · rw [hupdate] at hc
        by_cases hq : q = p
        · subst hq
          obtain rfl : claimed = c := by simpa using hc
          have hopen : ¬ row.status.terminal := by
            simp [EvaluationStatus.terminal, hmade.queued]
          exact (hs.rows row hmade.mem hopen).congr hmade.stage hmade.label
        · exact hs.labels q c (by simpa [Function.update_of_ne hq] using hc)

end Steps

/-- The worker's claim, of a row that still runs under it. -/
def LiveClaim (s : Workers Process) (p : Process) (claimed : EvaluationRow) : Prop :=
  s.claimed p = some claimed ∧ ∃ row ∈ s.db.evaluations, row.id = claimed.id ∧
    row.status = .running ∧ row.attemptCount = claimed.attemptCount

/-- Live claims of rows labelled HEAVY have rows of their own. -/
theorem WithinHeavy.card_le {K : Nat} (h : WithinHeavy K s) (holders : Finset Process)
    (hholders : ∀ p ∈ holders, ∃ claimed, LiveClaim s p claimed ∧
      claimed.workloadClass = .heavy) : holders.card ≤ K := by
  classical
  have hrow : ∀ p : holders, ∃ row, row ∈ s.db.evaluations ∧ row.isRunningHeavy = true ∧
      ∃ claimed, s.claimed p = some claimed ∧ row.id = claimed.id ∧
        row.attemptCount = claimed.attemptCount := by
    intro p
    obtain ⟨claimed, ⟨hclaimed, row, hrow, hid, hrunning, hcount⟩, hheavy⟩ := hholders p.1 p.2
    obtain ⟨other, hother, hkey, -, hlabel⟩ := h.claims.counted p.1 claimed hclaimed
    obtain rfl : other = row := Table.eq_of_key_eq hother hrow (hkey.trans hid.symm)
    refine ⟨other, hrow, EvaluationRow.isRunningHeavy_iff.mpr ⟨hrunning, ?_⟩, claimed, hclaimed,
      hid, hcount⟩
    rw [hlabel hcount hrunning, hheavy]
  choose rowOf hmem hrunning hclaim using hrow
  have hcard : holders.attach.card ≤ s.db.runningHeavy := by
    refine Table.card_le_count holders.attach rowOf (fun p _ => ⟨hmem p, hrunning p⟩) ?_
    intro p _ q _ hsame
    obtain ⟨c, hc, hcid, hccount⟩ := hclaim p
    obtain ⟨d, hd, hdid, hdcount⟩ := hclaim q
    rw [hsame] at hcid hccount
    exact Subtype.ext (h.claims.distinct p q c d hc hd (hcid.symm.trans hdid)
      (hccount.symm.trans hdcount))
  calc holders.card = holders.attach.card := Finset.card_attach.symm
    _ ≤ s.db.runningHeavy := hcard
    _ ≤ K := h.budget

end Workers

/-! ## Workers in the HEAVY stage -/

namespace StagedWorkers

variable {Process : Type}

/-- The worker executes a HEAVY stage. -/
def ExecutesHeavy (s : StagedWorkers Process) (p : Process) : Prop :=
  ∃ k, (s.run p).bind StageRun.stage? = some k ∧ RunsHeavy k

/-- Every claim is within the HEAVY budget, and jobs are created at stage 0. -/
def heavyBudget (K : Nat) : Condition (StagedWorkers Process) (StageAction Process)
  | s, .workers a => Workers.heavyBudget K s.workers a
  | _, .startRun _ _ | _, .endStage _ | _, .finishRun _ _ => True

instance (K : Nat) (s : StagedWorkers Process) (a : StageAction Process) :
    Decidable (heavyBudget K s a) :=
  match a with
  | .workers a =>
      match a with
      | .claimNext _ args _ => inferInstanceAs (Decidable (args.maxConcurrentHeavy ≤ K))
      | .createQueued _ _ _ _ _ stage _ => inferInstanceAs (Decidable (stage = 0))
      | .beginExecutionAttempt .. | .finish .. | .die .. | .recoverStaleRunning .. => isTrue trivial
  | .startRun .. | .endStage .. | .finishRun .. => isTrue trivial

/-- The worker still holds the evaluation it claimed, and claimed it as HEAVY: under
that label, or to resume it at a HEAVY stage. -/
def HoldsHeavy (s : StagedWorkers Process) (p : Process) : Prop :=
  ∃ claimed, Workers.LiveClaim s.workers p claimed ∧
    (claimed.workloadClass = .heavy ∨ RunsHeavy claimed.currentStage)

/-- **HEAVY slots.**  In every run of the workers the budget bounds the HEAVY stages of
the evaluations that are claimed as HEAVY. -/
theorem heavy_slots_hold [DecidableEq Process] (cfg : Deployment Process) (K : Nat)
    (s : StagedWorkers Process) (h : (stagedWorkers cfg).Reach (heavyBudget K) s)
    (ps : Finset Process) (hps : ∀ p ∈ ps, s.ExecutesHeavy p ∧ s.HoldsHeavy p) :
    ps.card ≤ K := by
  have hok : ∀ (s : StagedWorkers Process) a a', heavyBudget K s a →
      s.evaluatorAction? a = some a' → Workers.heavyBudget K s.workers a' := by
    intro s a a' hcond haction
    cases a with
    | workers a =>
        cases haction
        exact hcond
    | startRun p context => cases haction
    | endStage p => cases haction
    | finishRun p now =>
        simp only [evaluatorAction?] at haction
        split at haction
        · cases haction
          trivial
        · cases haction
  have hwithin := Workers.withinHeavy_of_reach (workers_of_reach hok h)
  refine hwithin.card_le ps ?_
  intro p hp
  obtain ⟨-, claimed, hlive, hheavy⟩ := hps p hp
  refine ⟨claimed, hlive, ?_⟩
  rcases hheavy with hlabel | hstage
  · exact hlabel
  · exact hwithin.labels p claimed hlive.1 hstage

end StagedWorkers

/-! ## Two workers in the HEAVY stage -/

/-- Two processes with ids of their own, and submissions that no stage is sure about. -/
def pairDeployment : Deployment Bool where
  workerIdOf p := if p then "worker-1" else "worker-2"
  maxAttempts := 3
  work _ := uncertainWork

theorem pair_idle : (stagedWorkers pairDeployment).start
    ⟨⟨⟨Table.empty, none⟩, fun _ => none⟩, fun _ => none⟩ := ⟨⟨rfl, fun _ => rfl⟩, fun _ => rfl⟩

/-- A claim with two workers and one HEAVY slot, and a run up to the HEAVY stage. -/
def claimAndRun (p : Bool) (now : Timestamp) : List (StageAction Bool) :=
  [.workers (.claimNext p ⟨"", .boundedLightBypass, 2, 1, 2⟩ now),
    .startRun p (underPressure .normal), .endStage p, .endStage p]

/-- Two LIGHT evaluations. -/
def lightPairRun : List (StageAction Bool) :=
  [.workers (.createQueued 1 10 .light .fixedProgressive none 0 0),
    .workers (.createQueued 2 20 .light .fixedProgressive none 0 1)] ++
    claimAndRun true 2 ++ claimAndRun false 3

/-- One HEAVY evaluation, recovered while its worker is in the HEAVY stage. -/
def recoveredHeavyRun : List (StageAction Bool) :=
  .workers (.createQueued 1 10 .heavy .fixedProgressive none 0 0) :: claimAndRun true 1 ++
    .workers (.recoverStaleRunning 50 60 (fun _ => idleOs)) :: claimAndRun false 61

theorem runsHeavy_two : RunsHeavy 2 := ⟨HEAVY, rfl, rfl⟩

theorem heavy_slots_hold_recovered :
    ∃ s : StagedWorkers Bool, s.ExecutesHeavy false ∧ s.HoldsHeavy false ∧
      ({false} : Finset Bool).card ≤ 1 := by
  obtain ⟨s, hreach, htest⟩ : ∃ s, (stagedWorkers pairDeployment).Reach
      (StagedWorkers.heavyBudget 1) s ∧
      decide ((s.run false).bind StageRun.stage? = some 2 ∧
        ∃ row ∈ s.workers.db.evaluations, row.status = .running ∧
          row.workloadClass = .heavy ∧ s.workers.claimed false = some row) = true :=
    System.reach_of_test _ recoveredHeavyRun _ pair_idle (by decide)
  obtain ⟨hstage, row, hrow, hrunning, hlabel, hclaimed⟩ := of_decide_eq_true htest
  have hexecutes : s.ExecutesHeavy false := ⟨2, hstage, runsHeavy_two⟩
  have hholds : s.HoldsHeavy false :=
    ⟨row, ⟨hclaimed, row, hrow, rfl, hrunning, rfl⟩, Or.inl hlabel⟩
  refine ⟨s, hexecutes, hholds,
    StagedWorkers.heavy_slots_hold pairDeployment 1 s hreach {false} ?_⟩
  intro p hp
  obtain rfl : p = false := Finset.mem_singleton.mp hp
  exact ⟨hexecutes, hholds⟩

/-- **Beyond the budget.**  With one HEAVY slot two workers execute the HEAVY stage of
LIGHT evaluations that they hold; and of HEAVY ones, when one has lost its row. -/
theorem heavy_slots_exceeded :
    (¬ ∀ s, (stagedWorkers pairDeployment).Reach (StagedWorkers.heavyBudget 1) s →
      ∀ ps : Finset Bool, (∀ p ∈ ps, s.ExecutesHeavy p ∧
        ∃ claimed, Workers.LiveClaim s.workers p claimed) → ps.card ≤ 1) ∧
    ¬ ∀ s, (stagedWorkers pairDeployment).Reach (StagedWorkers.heavyBudget 1) s →
      (∀ row ∈ s.workers.db.evaluations, row.workloadClass = .heavy) →
        ∀ ps : Finset Bool, (∀ p ∈ ps, s.ExecutesHeavy p) → ps.card ≤ 1 := by
  constructor
  · intro hbound
    obtain ⟨s, hreach, htest⟩ : ∃ s, (stagedWorkers pairDeployment).Reach
        (StagedWorkers.heavyBudget 1) s ∧
        decide (∀ p : Bool, (s.run p).bind StageRun.stage? = some 2 ∧
          ∃ row ∈ s.workers.db.evaluations, row.status = .running ∧
            s.workers.claimed p = some row) = true :=
      System.reach_of_test _ lightPairRun _ pair_idle (by decide)
    have htwo := hbound s hreach Finset.univ (fun p _ => by
      obtain ⟨hstage, row, hrow, hrunning, hclaimed⟩ := of_decide_eq_true htest p
      exact ⟨⟨2, hstage, runsHeavy_two⟩, row, hclaimed, row, hrow, rfl, hrunning, rfl⟩)
    exact absurd htwo (by decide)
  · intro hbound
    obtain ⟨s, hreach, htest⟩ : ∃ s, (stagedWorkers pairDeployment).Reach
        (StagedWorkers.heavyBudget 1) s ∧
        decide ((∀ p : Bool, (s.run p).bind StageRun.stage? = some 2) ∧
          ∀ row ∈ s.workers.db.evaluations, row.workloadClass = .heavy) = true :=
      System.reach_of_test _ recoveredHeavyRun _ pair_idle (by decide)
    obtain ⟨hstages, hheavy⟩ := of_decide_eq_true htest
    have htwo := hbound s hreach hheavy Finset.univ
      (fun p _ => ⟨2, hstages p, runsHeavy_two⟩)
    exact absurd htwo (by decide)

end ChallengeForge
