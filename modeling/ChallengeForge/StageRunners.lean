import ChallengeForge.ProgressiveEvaluation
import ChallengeForge.WorkloadKinds

/-!
# What a stage gives for a submission

`run_stage`: a stage of a plan, run for a submission and its metadata.  A forced
failure comes first; a named workload kind decides by its evidence, any other
submission by the scenario labels and hashes of version 2.  The hash of a stage's
canonical description and work token is a parameter.

* `runStage_evidence` — every outcome names its stage, its index and its cost;
* `runStage_kind` — under a workload kind the outcome is that of the evidence.
-/

namespace ChallengeForge

/-- Hard cap for experiment safety, in bytes. -/
def MAX_MEMORY_BYTES : Int := 48 * 1024 * 1024

/-- `_bounded_memory_work`. -/
def boundedMemoryWork (nbytes : Int) : Nat := (min (max nbytes 0) MAX_MEMORY_BYTES).toNat

/-! ## Version 2 scenarios -/

/-- `mapping.get(key)` of a scenario label. -/
def scenarioConfidence (key : String) : Option StageConfidence :=
  if key = "pass_confident" then some .passConfident
  else if key = "fail_confident" then some .failConfident
  else if key = "uncertain" ∨ key = "requires_expensive" then some .uncertain
  else none

/-- `metadata.get("adaptive_scenario")` as a label. -/
def adaptiveScenario (metadata : JsonDict) : String :=
  labelOf ((metadata.get? "adaptive_scenario").getD .null)

/-- The confidence a named scenario has, or else one drawn from the digest of the id. -/
def legacyScenarioConfidence (metadata : JsonDict) (submissionId : UUID) : StageConfidence :=
  let digest := Sha256.hexdigest (Utf8.encode (uuidText submissionId).toList)
  let bucket := hexNat (digest.toList.take 8) % 100
  (scenarioConfidence (adaptiveScenario metadata)).getD
    (if bucket < 25 then .passConfident
    else if bucket < 50 then .failConfident
    else .uncertain)

/-- v2-compatible: a confident cheap or medium exit is treated as safe. -/
def legacySafeToTerminate (confidence : StageConfidence) (metadata : JsonDict)
    (stageName : String) : Bool :=
  if adaptiveScenario metadata = "requires_expensive" ∧ stageName ≠ "heavy" then false
  else confidence.confident

/-! ## Running a stage -/

/-- What is found out about a stage. -/
structure StageFinding where
  confidence : StageConfidence
  score : Int
  safe : Bool
  notes : String
  digestFp : String

/-- `digest[:16]`. -/
def fingerprint (digest : String) : String := String.ofList (digest.toList.take 16)

section

variable (legacyDigest : StageSpec → Nat → String) (submissionId : UUID) (metadata : JsonDict)

/-- Version 2 submissions, judged by label and hash. -/
def legacyFinding (stage : StageSpec) (stageIndex : Nat) : StageFinding :=
  let confidence :=
    if adaptiveScenario metadata = "requires_expensive" ∧ stage.name ≠ "heavy" then .uncertain
    else legacyScenarioConfidence metadata submissionId
  let digest := legacyDigest stage stageIndex
  let baseScore : Int := hexNat (digest.toList.take 8) % 101
  { confidence := confidence
    score :=
      if confidence = .passConfident ∧ stageIndex = 0 then 90 + baseScore % 11
      else if confidence = .failConfident ∧ stageIndex = 0 then baseScore % 20
      else 40 + baseScore % 41
    safe := legacySafeToTerminate confidence metadata stage.name
    notes := "legacy_adaptive_scenario"
    digestFp := fingerprint digest }

/-- Workload kinds, judged by their evidence. -/
def kindFinding (kind : WorkloadKind) (stage : StageSpec) : StageFinding :=
  let evidence := evidenceForStage stage.name kind submissionId
  { confidence := evidence.confidence
    score := evidence.score
    safe := evidence.safeToTerminate
    notes := evidence.notes
    digestFp := fingerprint (Sha256.hexdigest (Utf8.encode
      (uuidText submissionId ++ ":" ++ stage.name ++ ":" ++ kind.value ++ ":" ++
        toString evidence.score).toList)) }

/-- What a stage finds: by the workload kind where one is declared. -/
def stageFinding (stage : StageSpec) (stageIndex : Nat) : StageFinding :=
  match parseWorkloadKind metadata with
  | some kind => kindFinding submissionId kind stage
  | none => legacyFinding legacyDigest submissionId metadata stage stageIndex

/-- `metadata.get("force_evaluation_failure") is True`. -/
def forcesFailure : Bool := metadata.get? "force_evaluation_failure" = some (.bool true)

/-- `force_stage_failure` names the stage. -/
def forcesStageFailure (stageName : String) : Bool :=
  (metadata.get? "force_stage_failure").any (fun raw => labelOf raw = stageName)

/-- `run_stage`: a forced failure, or the finding with its cost. -/
def runStage : StageRunner := fun stage stageIndex =>
  if forcesFailure metadata then
    .error "Forced evaluation failure via submission metadata."
  else if forcesStageFailure metadata stage.name then
    .error s!"Forced stage failure at {stage.name}."
  else
    let finding := stageFinding legacyDigest submissionId metadata stage stageIndex
    .ok
      { confidence := finding.confidence
        score := min 100 (max 0 finding.score)
        peakAllocBytes := boundedMemoryWork (stage.estimatedMemoryMb * 1024 * 1024).floor
        safeToTerminate := finding.safe
        evidence :=
          [("stage", .str stage.name),
           ("stage_index", .int stageIndex),
           ("confidence", .str finding.confidence.value),
           ("safe_to_terminate", .bool finding.safe),
           ("fingerprint", .str finding.digestFp),
           ("cost_units", .int stage.costUnits),
           ("workload_class", .str stage.workloadClass.value),
           ("workload_kind", Progress.optText ((parseWorkloadKind metadata).map
             WorkloadKind.value)),
           ("notes", .str finding.notes)] }

variable {legacyDigest submissionId metadata} {stage : StageSpec} {stageIndex : Nat}

/-- **Stage evidence.**  Every outcome names its stage, its index and its cost. -/
theorem runStage_evidence {outcome : StageOutcome}
    (h : runStage legacyDigest submissionId metadata stage stageIndex = .ok outcome) :
    outcome.evidence.get? "stage" = some (.str stage.name) ∧
      outcome.evidence.get? "stage_index" = some (.int stageIndex) ∧
      outcome.evidence.get? "cost_units" = some (.int stage.costUnits) := by
  unfold runStage at h
  split at h
  · cases h
  · split at h
    · cases h
    · cases h
      exact ⟨rfl, rfl, rfl⟩

/-- **Kinds.**  Without a forced failure a workload kind decides by its evidence. -/
theorem runStage_kind {kind : WorkloadKind} (hkind : parseWorkloadKind metadata = some kind)
    (hforced : forcesFailure metadata = false)
    (hstage : forcesStageFailure metadata stage.name = false) :
    ∃ outcome, runStage legacyDigest submissionId metadata stage stageIndex = .ok outcome ∧
      outcome.confidence = (evidenceForStage stage.name kind submissionId).confidence ∧
      outcome.safeToTerminate =
        (evidenceForStage stage.name kind submissionId).safeToTerminate ∧
      outcome.score = min 100 (max 0 (evidenceForStage stage.name kind submissionId).score) := by
  simp only [runStage, hforced, hstage, Bool.false_eq_true, if_false]
  refine ⟨_, rfl, ?_⟩
  simp [stageFinding, hkind, kindFinding]

end

end ChallengeForge
