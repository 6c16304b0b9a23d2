import ChallengeForge.DeferralTransparency
import ChallengeForge.EvaluationStages
import ChallengeForge.StageRunners

/-!
# The stored progressive record

`result_metadata.progressive` is put together from the records of several claims:
a deferral writes the log so far, the claim that resumes adds its own stages, and
whoever finishes adds the rest.

* `Logged` — a record lists the stages below the row's, and their cost;
* `finished_record`, `deferred_record` — what the two merges make of it.
-/

namespace ChallengeForge

open Keyed Labelled Staged SubmissionWork

/-! ## Logs -/

/-- An integer entry of a stage's evidence. -/
def logField (k : String) : Json → Option Int
  | .obj evidence =>
      match JsonDict.get? evidence k with
      | some (.int n) => some n
      | _ => none
  | _ => none

/-- The indices of the logged stages. -/
def loggedIndices (stages : List Json) : List (Option Int) := stages.map (logField "stage_index")

/-- The sum of the `cost_units`. -/
def loggedCost (stages : List Json) : Int :=
  (stages.map (fun stage => (logField "cost_units" stage).getD 0)).sum

/-- `[start, start + n)`, as a log lists it. -/
def consecutive (start n : Nat) : List (Option Int) :=
  (List.range' start n).map (fun i : Nat => some (i : Int))

/-- Later stages have the later indices. -/
theorem loggedIndices_append (stages later : List Json) :
    loggedIndices (stages ++ later) = loggedIndices stages ++ loggedIndices later :=
  List.map_append

/-- Costs add up. -/
theorem loggedCost_append (stages later : List Json) :
    loggedCost (stages ++ later) = loggedCost stages + loggedCost later := by
  simp [loggedCost]

/-- Consecutive stretches that meet are one. -/
theorem consecutive_append (n m : Nat) :
    consecutive 0 n ++ consecutive n m = consecutive 0 (n + m) := by
  have happend := @List.range'_append_1 0 n m
  rw [Nat.zero_add] at happend
  simp only [consecutive, ← List.map_append, happend]

/-- The record lists the stages below `stage`, each once and in order, and what
they cost. -/
structure Logged (prior : JsonDict) (stage : Nat) : Prop where
  indices : loggedIndices (priorStages prior) = consecutive 0 stage
  cost : priorCost prior = loggedCost (priorStages prior)

/-- As many stages are logged as are completed. -/
theorem Logged.length {prior : JsonDict} {stage : Nat} (h : Logged prior stage) :
    (priorStages prior).length = stage := by
  have hlength := congrArg List.length h.indices
  simpa [loggedIndices, consecutive] using hlength

/-- Nothing is logged at the start. -/
theorem logged_nil : Logged [] 0 := ⟨rfl, rfl⟩

/-! ## The log of a run -/

/-- Every outcome of a stage names its index and its cost. -/
def Evidences (runStage : StageRunner) : Prop :=
  ∀ spec i outcome, runStage spec i = .ok outcome →
    outcome.evidence.get? "stage_index" = some (.int i) ∧
      outcome.evidence.get? "cost_units" = some (.int spec.costUnits)

/-- The stage runners give evidence in every mode. -/
theorem evidences_runStage (legacyDigest : StageSpec → Nat → String) (submissionId : UUID)
    (metadata : JsonDict) : Evidences (runStage legacyDigest submissionId metadata) :=
  fun _ _ _ h => (runStage_evidence h).2

/-- What the log of a run from `start` on says, and the record it comes with. -/
structure RunLogged (start : Nat) (result : ProgressiveResult) : Prop where
  indices : loggedIndices (result.stages.map .obj) = consecutive start result.stages.length
  cost : result.actualCostUnits = loggedCost (result.stages.map .obj)
  nextStage : result.nextStage = start + result.stages.length
  attempted : (priorProgressive result.resultMetadata).get? "stages_attempted" =
    some (.int result.stages.length)
  completed : (priorProgressive result.resultMetadata).get? "stages_completed" =
    some (.arr (result.stages.map .obj))
  costUnits : (priorProgressive result.resultMetadata).get? "actual_cost_units" =
    some (.int result.actualCostUnits)
  savings : (priorProgressive result.resultMetadata).get? "compute_savings" =
    some (.float (computeSavings result.actualCostUnits))

section Runs

variable {plan : EvaluationPlan} {runStage : StageRunner} {start : Nat}

/-- The evidence of the stages from `start` on. -/
theorem executed_logged (hevidence : Evidences runStage)
    {executed : List (StageSpec × StageOutcome)}
    (h : ∀ k (hk : k < executed.length), plan.stage runStage (start + k) = some (.ok executed[k])) :
    loggedIndices (executed.map (fun x => .obj x.2.evidence)) =
        consecutive start executed.length ∧
      loggedCost (executed.map (fun x => .obj x.2.evidence)) =
        (executed.map (fun x => x.1.costUnits)).sum := by
  induction executed generalizing start with
  | nil => exact ⟨rfl, rfl⟩
  | cons x executed ih =>
      have hfirst : runStage x.1 start = .ok x.2 := (drop_of_stage_ok (h 0 (by simp))).2
      obtain ⟨hindex, hcost⟩ := hevidence _ _ _ hfirst
      have hrest : ∀ k (hk : k < executed.length),
          plan.stage runStage (start + 1 + k) = some (.ok executed[k]) := by
        intro k hk
        have hlater := h (k + 1) (by simpa using hk)
        rw [show start + 1 + k = start + (k + 1) by omega]
        simpa using hlater
      obtain ⟨hindices, hcosts⟩ := ih hrest
      constructor
      · calc loggedIndices ((x :: executed).map (fun x => .obj x.2.evidence))
            = some (start : Int) ::
                loggedIndices (executed.map (fun x => .obj x.2.evidence)) := by
              simp [loggedIndices, logField, hindex]
          _ = some (start : Int) :: consecutive (start + 1) executed.length := by rw [hindices]
          _ = consecutive start (x :: executed).length := by
              simp [consecutive, List.range'_succ]
      · calc loggedCost ((x :: executed).map (fun x => .obj x.2.evidence))
            = x.1.costUnits + loggedCost (executed.map (fun x => .obj x.2.evidence)) := by
              simp [loggedCost, logField, hcost]
          _ = ((x :: executed).map (fun x => x.1.costUnits)).sum := by
              rw [hcosts, List.map_cons, List.sum_cons]

/-- The result of a run, as far as its log goes. -/
theorem runLogged_result {progress : Progress} {mode : EvaluationMode} {finished : Bool}
    {earlyExit defer finalTier : Option String}
    (hindices : loggedIndices (progress.stagesLog.map .obj) =
      consecutive start progress.stagesLog.length)
    (hcost : progress.cost = loggedCost (progress.stagesLog.map .obj)) :
    RunLogged start (progress.result mode finished (start + progress.stagesLog.length)
      earlyExit defer finalTier) where
  indices := hindices
  cost := hcost
  nextStage := rfl
  attempted := rfl
  completed := rfl
  costUnits := rfl
  savings := rfl

/-- **The log of a run.**  It lists the stages the run executed; a run that starts
at a stage there is executes one, and one that defers leaves a stage. -/
theorem run_logged (hevidence : Evidences runStage) {mode : EvaluationMode}
    {context : ClaimContext} {result : ProgressiveResult}
    (h : runProgressive mode plan runStage context start = .ok result) :
    RunLogged start result ∧ (start < plan.stages.length → result.stages ≠ []) ∧
      (result.finished = false → result.nextStage < plan.stages.length) := by
  obtain ⟨executed, ending, hstretch, hrun⟩ := run_spec plan runStage mode context start
  obtain ⟨hindices, hcosts⟩ := executed_logged hevidence hstretch.stage_getElem
  have hlog : (Progress.initial.after context start executed).stagesLog =
      executed.map (fun x => x.2.evidence) := by
    simp [Progress.stagesLog_after, Progress.initial]
  have hcost : (Progress.initial.after context start executed).cost =
      (executed.map (fun x => x.1.costUnits)).sum := by
    simp [Progress.cost_after, Progress.initial]
  have hobj : (executed.map (fun x => x.2.evidence)).map Json.obj =
      executed.map (fun x => Json.obj x.2.evidence) := by
    rw [List.map_map]
    rfl
  have hresult : ∀ finished earlyExit defer finalTier,
      RunLogged start ((Progress.initial.after context start executed).result mode finished
        (start + executed.length) earlyExit defer finalTier) := by
    intro finished earlyExit defer finalTier
    have hlength : (Progress.initial.after context start executed).stagesLog.length =
        executed.length := by rw [hlog, List.length_map]
    rw [← hlength]
    refine runLogged_result ?_ ?_
    · rw [hlog, hobj, hindices, List.length_map]
    · rw [hcost, hlog, hobj, hcosts]
  have hsome : (∀ reason, ending ≠ .failed reason) → start < plan.stages.length →
      (Progress.initial.after context start executed).stagesLog ≠ [] := by
    intro hok hstart
    rw [hlog, Ne, List.map_eq_nil_iff]
    refine executed_ne_nil hstretch ?_ hok
    simp [EvaluationPlan.stage, EvaluationPlan.stageAt, hstart]
  rw [hrun] at h
  cases ending with
  | failed reason => cases h
  | stopped reason =>
      cases h
      exact ⟨hresult _ _ _ _, hsome (by simp), fun hopen => by cases hopen⟩
  | exhausted =>
      cases h
      exact ⟨hresult _ _ _ _, hsome (by simp), fun hopen => by cases hopen⟩
  | paused reason =>
      cases h
      refine ⟨hresult _ _ _ _, hsome (by simp), ?_⟩
      intro _
      obtain ⟨k, x, hlength, hstage, hverdict⟩ := hstretch.endsAt
      have hnext := EvaluationPlan.verdict_next (by rw [hverdict]; simp)
      show start + executed.length < _
      omega

end Runs

/-! ## Merged records -/

/-- Setting a key of the progressive record sets that key in it. -/
theorem priorProgressive_setProgressive (metadata : JsonDict) (k : String) (v : Json) :
    priorProgressive (setProgressive metadata k v) =
      (priorProgressive metadata).set k v := by
  simp [setProgressive, priorProgressive]

/-- A row of other entries has the same record. -/
theorem priorProgressive_set_ne (metadata : JsonDict) {k : String} (v : Json)
    (hk : k ≠ "progressive") : priorProgressive (metadata.set k v) = priorProgressive metadata := by
  simp [priorProgressive, JsonDict.get?_set_ne _ _ hk]

/-- The stages that are on record. -/
theorem priorStages_of_get {prior : JsonDict} {stages : List Json}
    (h : prior.get? "stages_completed" = some (.arr stages)) : priorStages prior = stages := by
  simp [priorStages, h]

/-- The cost that is on record. -/
theorem priorCost_of_get {prior : JsonDict} {cost : Int}
    (h : prior.get? "actual_cost_units" = some (.int cost)) : priorCost prior = cost := by
  simp [priorCost, h]

/-- The stored record of a row. -/
def storedRecord (row : EvaluationRow) : JsonDict := priorProgressive row.resultMetadata

/-- The record lists the stages `0, …, k` of the evaluation, their cost, and the
share of the full cost that was saved. -/
structure LogsEvaluation (row : EvaluationRow) : Prop where
  stages : ∃ k, row.currentStage = k + 1 ∧
    loggedIndices (priorStages (storedRecord row)) = consecutive 0 (k + 1)
  cost : (storedRecord row).get? "actual_cost_units" =
    some (.int (loggedCost (priorStages (storedRecord row))))
  savings : (storedRecord row).get? "compute_savings" =
    some (.float (computeSavings (loggedCost (priorStages (storedRecord row)))))

/-- It also counts them. -/
structure DescribesEvaluation (row : EvaluationRow) : Prop extends LogsEvaluation row where
  attempted : (storedRecord row).get? "stages_attempted" =
    some (.int (priorStages (storedRecord row)).length)

section Merges

variable {claimed row : EvaluationRow} {result : ProgressiveResult}

/-- The log of a claim goes on where the record it found ends. -/
theorem merged_log (hlog : Logged (storedRecord claimed) claimed.currentStage)
    (hrun : RunLogged claimed.currentStage result) :
    loggedIndices (priorStages (storedRecord claimed) ++ result.stages.map .obj) =
        consecutive 0 result.nextStage ∧
      priorCost (storedRecord claimed) + result.actualCostUnits =
        loggedCost (priorStages (storedRecord claimed) ++ result.stages.map .obj) := by
  constructor
  · rw [loggedIndices_append, hlog.indices, hrun.indices, consecutive_append, hrun.nextStage]
  · rw [loggedCost_append, ← hlog.cost, ← hrun.cost]

/-- **Deferral.**  The record lists the stages below the one that is put off. -/
theorem deferred_record (hlog : Logged (storedRecord claimed) claimed.currentStage)
    (hrun : RunLogged claimed.currentStage result) :
    Logged (priorProgressive (deferredMetadata claimed result)) result.nextStage := by
  obtain ⟨hindices, hcost⟩ := merged_log hlog hrun
  have hstages : priorStages (priorProgressive (deferredMetadata claimed result)) =
      priorStages (storedRecord claimed) ++ result.stages.map .obj := by
    apply priorStages_of_get
    simp [deferredMetadata, priorProgressive_setProgressive, storedRecord]
  have hunits : priorCost (priorProgressive (deferredMetadata claimed result)) =
      priorCost (storedRecord claimed) + result.actualCostUnits := by
    apply priorCost_of_get
    simp [deferredMetadata, priorProgressive_setProgressive, storedRecord]
  constructor
  · rw [hstages, hindices]
  · rw [hunits, hstages, hcost]

/-- **Success.**  The record lists the whole evaluation, and counts the stages of
the last claim: all of them only if that claim was the first. -/
theorem finished_record (hlog : Logged (storedRecord claimed) claimed.currentStage)
    (hrun : RunLogged claimed.currentStage result) (hsome : result.stages ≠ [])
    (hmetadata : row.resultMetadata = finishedMetadata claimed result)
    (hstage : row.currentStage = result.nextStage) :
    LogsEvaluation row ∧ (DescribesEvaluation row ↔ claimed.currentStage = 0) := by
  have hpos : 0 < result.stages.length := List.length_pos_iff.mpr hsome
  have hlength := hlog.length
  have hnext := hrun.nextStage
  have hread : ∃ stages, priorStages (storedRecord row) = stages ∧
      loggedIndices stages = consecutive 0 result.nextStage ∧
      (storedRecord row).get? "actual_cost_units" = some (.int (loggedCost stages)) ∧
      (storedRecord row).get? "compute_savings" =
        some (.float (computeSavings (loggedCost stages))) ∧
      (storedRecord row).get? "stages_attempted" = some (.int result.stages.length) ∧
      stages.length = claimed.currentStage + result.stages.length := by
    obtain ⟨hindices, hcost⟩ := merged_log hlog hrun
    have hrecord : storedRecord row = priorProgressive (finishedMetadata claimed result) := by
      rw [storedRecord, hmetadata]
    rw [hrecord]
    by_cases hprior : priorStages (storedRecord claimed) = []
    · -- nothing was recorded before, and the run's own record stands
      have hzero : claimed.currentStage = 0 := by simpa [hprior] using hlength.symm
      have hplain : finishedMetadata claimed result = result.resultMetadata := by
        rw [finishedMetadata, if_neg (by simpa [storedRecord] using hprior)]
      rw [hprior, List.nil_append] at hindices
      rw [hplain]
      refine ⟨result.stages.map .obj, priorStages_of_get hrun.completed, hindices, ?_, ?_,
        hrun.attempted, by simp [hzero]⟩
      · rw [hrun.costUnits, hrun.cost]
      · rw [hrun.savings, hrun.cost]
    · have hmerged : finishedMetadata claimed result =
          setProgressive (setProgressive (setProgressive result.resultMetadata
            "stages_completed" (.arr (priorStages (storedRecord claimed) ++
              result.stages.map .obj)))
            "actual_cost_units" (.int (priorCost (storedRecord claimed) +
              result.actualCostUnits)))
            "compute_savings" (.float (computeSavings (priorCost (storedRecord claimed) +
              result.actualCostUnits))) := by
        rw [finishedMetadata, if_pos (by simpa [storedRecord] using hprior)]
        rfl
      rw [hmerged]
      simp only [priorProgressive_setProgressive]
      refine ⟨_, priorStages_of_get (by simp), hindices, ?_, ?_, ?_, ?_⟩
      · simp [hcost]
      · simp [hcost]
      · simpa using hrun.attempted
      · rw [List.length_append, List.length_map, hlength]
  obtain ⟨stages, hstages, hindices, hcost, hsavings, hattempted, hcount⟩ := hread
  have hlogs : LogsEvaluation row := by
    refine ⟨⟨result.nextStage - 1, by omega, ?_⟩, ?_, ?_⟩
    · rw [hstages, hindices, show result.nextStage - 1 + 1 = result.nextStage by omega]
    · rw [hstages, hcost]
    · rw [hstages, hsavings]
  refine ⟨hlogs, ?_, ?_⟩
  · intro hdescribes
    have hsame := hdescribes.attempted
    rw [hattempted, hstages, hcount] at hsame
    have hequal : (result.stages.length : Int) =
        (claimed.currentStage + result.stages.length : Nat) := Json.int.inj (Option.some.inj hsame)
    omega
  · intro hzero
    refine ⟨hlogs, ?_⟩
    rw [hattempted, hstages, hcount, hzero, Nat.zero_add]

end Merges

end ChallengeForge
