import ChallengeForge.ProgressivePolicy
import ChallengeForge.PythonText
import ChallengeForge.Sha256
import ChallengeForge.Utf8

/-!
# Synthetic workload kinds

The kinds of synthetic workload, the truth each fixes for a submission, and what
a stage may conclude about it.

* `truthScore_decides` — the score of a truth decides as the truth does;
* `evidence_decisive` — evidence that is safe to terminate on is the truth.
-/

namespace ChallengeForge

/-- Increasing uncertainty; truth is fixed by kind suffix. -/
inductive WorkloadKind
  | easyPass
  | easyFail
  | ambiguousPass
  | ambiguousFail
  | hardPass
  | hardFail
  | adversarialPass
  | adversarialFail
  deriving DecidableEq, Repr

namespace WorkloadKind

/-- The kinds, in the order of the enumeration. -/
def all : List WorkloadKind :=
  [easyPass, easyFail, ambiguousPass, ambiguousFail, hardPass, hardFail, adversarialPass,
    adversarialFail]

/-- The value of the enumeration. -/
def value : WorkloadKind → String
  | easyPass => "easy_pass"
  | easyFail => "easy_fail"
  | ambiguousPass => "ambiguous_pass"
  | ambiguousFail => "ambiguous_fail"
  | hardPass => "hard_pass"
  | hardFail => "hard_fail"
  | adversarialPass => "adversarial_pass"
  | adversarialFail => "adversarial_fail"

end WorkloadKind

/-- `str.lower()`, as far as the ASCII labels it is compared with can tell. -/
def lower (text : List Char) : List Char := text.map Char.toLower

/-- `str(raw).strip().lower()`.  Only a string can spell a label: what `str` makes
of any other value starts with a bracket, a digit, a sign or a capital. -/
def labelOf : Json → String
  | .str s => String.ofList (lower (strip s.toList))
  | _ => ""

/-- v2 scenario labels, mapped into v3 kinds where possible. -/
def scenarioKind (key : String) : Option WorkloadKind :=
  if key = "pass_confident" then some .easyPass
  else if key = "fail_confident" then some .easyFail
  else if key = "uncertain" then some .ambiguousPass
  else if key = "requires_expensive" then some .hardPass
  else none

/-- `WorkloadKind(key)`, where it does not raise. -/
def WorkloadKind.ofValue (key : String) : Option WorkloadKind :=
  WorkloadKind.all.find? (fun kind => kind.value = key)

/-- `parse_workload_kind(metadata)`. -/
def parseWorkloadKind (metadata : JsonDict) : Option WorkloadKind :=
  let named := (metadata.get? "workload_kind").getD .null
  let raw := if named.truthy then named else (metadata.get? "adaptive_scenario").getD .null
  match raw with
  | .str s => (scenarioKind (labelOf (.str s))).or (WorkloadKind.ofValue (labelOf (.str s)))
  | _ => none

/-! ## Ground truth -/

/-- The decision on a submission. -/
inductive WorkloadDecision
  | pass
  | fail
  deriving DecidableEq, Repr

/-- The score from which a submission passes. -/
def PASS_THRESHOLD : Int := 60

/-- What the full evaluation of a kind is to find. -/
structure GroundTruth where
  decision : WorkloadDecision
  kind : WorkloadKind
  /-- Score the full expensive path is defined to produce. -/
  truthScore : Int

/-- `int(text, 16)`. -/
def hexNat (text : List Char) : Nat :=
  text.foldl (fun n c => 16 * n + (if c.isDigit then c.toNat - 48 else c.toNat - 87)) 0

/-- `int(digest[:4], 16) % 15` of the kind and the id. -/
def truthJitter (kind : WorkloadKind) (submissionId : UUID) : Nat :=
  let digest := Sha256.hexdigest
    (Utf8.encode ("truth:" ++ kind.value ++ ":" ++ uuidText submissionId).toList)
  hexNat (digest.toList.take 4) % 15

/-- The jitter is a residue, whatever the hash. -/
theorem truthJitter_lt (kind : WorkloadKind) (submissionId : UUID) :
    truthJitter kind submissionId < 15 :=
  Nat.mod_lt _ (by decide)

/-- Deterministic truth: PASS/FAIL from kind; score from kind+id. -/
def groundTruthFor (kind : WorkloadKind) (submissionId : UUID) : GroundTruth :=
  let decision : WorkloadDecision :=
    if endsWith kind.value.toList "_pass" then .pass else .fail
  { decision := decision
    kind := kind
    truthScore :=
      if decision = .pass then 70 + truthJitter kind submissionId
      else 10 + truthJitter kind submissionId }

/-- `decision_from_score(score)`. -/
def decisionFromScore (score : Int) : WorkloadDecision :=
  if score ≥ PASS_THRESHOLD then .pass else .fail

/-- The score of the truth lies on its side of the threshold. -/
theorem truthScore_eq (kind : WorkloadKind) (submissionId : UUID) :
    ∃ jitter : Nat, jitter < 15 ∧ (groundTruthFor kind submissionId).truthScore =
      if (groundTruthFor kind submissionId).decision = .pass then 70 + (jitter : Int)
      else 10 + (jitter : Int) :=
  ⟨truthJitter kind submissionId, truthJitter_lt kind submissionId, rfl⟩

/-- The score of the truth is a score, and decides as the truth does. -/
theorem truthScore_decides (kind : WorkloadKind) (submissionId : UUID) :
    0 ≤ (groundTruthFor kind submissionId).truthScore ∧
      (groundTruthFor kind submissionId).truthScore ≤ 100 ∧
      decisionFromScore (groundTruthFor kind submissionId).truthScore =
        (groundTruthFor kind submissionId).decision := by
  obtain ⟨jitter, hjitter, hscore⟩ := truthScore_eq kind submissionId
  rw [hscore]
  cases (groundTruthFor kind submissionId).decision with
  | pass =>
      simp only [if_true, decisionFromScore, PASS_THRESHOLD]
      exact ⟨by omega, by omega, if_pos (by omega)⟩
  | fail =>
      simp only [reduceCtorEq, if_false, decisionFromScore, PASS_THRESHOLD]
      exact ⟨by omega, by omega, if_neg (by omega)⟩

/-! ## Evidence -/

/-- Contractual output of a stage — confidence alone is never enough. -/
structure StageEvidence where
  confidence : StageConfidence
  safeToTerminate : Bool
  provisionalDecision : Option WorkloadDecision
  score : Int
  kind : Option WorkloadKind
  notes : String

/-- The confidence that goes with a decision. -/
def WorkloadDecision.confidence : WorkloadDecision → StageConfidence
  | .pass => .passConfident
  | .fail => .failConfident

/-- A confident and safe report of the truth. -/
def decisiveEvidence (kind : WorkloadKind) (submissionId : UUID) (notes : String) :
    StageEvidence :=
  let truth := groundTruthFor kind submissionId
  { confidence := truth.decision.confidence
    safeToTerminate := true
    provisionalDecision := some truth.decision
    score := truth.truthScore
    kind := some kind
    notes := notes }

/-- Evidence that leaves the decision open. -/
def undecidedEvidence (kind : WorkloadKind) (notes : String) : StageEvidence where
  confidence := .uncertain
  safeToTerminate := false
  provisionalDecision := none
  score := 50
  kind := some kind
  notes := notes

/-- Cheap stage: when is early exit *allowed*? -/
def cheapEvidence (kind : WorkloadKind) (submissionId : UUID) : StageEvidence :=
  let truth := groundTruthFor kind submissionId
  match kind with
  | .easyPass | .easyFail =>
      decisiveEvidence kind submissionId "easy: cheap evidence matches ground truth"
  | .adversarialPass | .adversarialFail =>
      -- confident but wrong, so it must not be safe
      let wrong : WorkloadDecision := if truth.decision = .pass then .fail else .pass
      { confidence := wrong.confidence
        safeToTerminate := false
        provisionalDecision := some wrong
        score := if wrong = .pass then 95 else 5
        kind := some kind
        notes := "adversarial: cheap confident signal disagrees with truth" }
  | .ambiguousPass | .ambiguousFail | .hardPass | .hardFail =>
      undecidedEvidence kind "insufficient cheap evidence"

/-- The evidence of the second stage. -/
def mediumEvidence (kind : WorkloadKind) (submissionId : UUID) : StageEvidence :=
  match kind with
  | .ambiguousPass | .ambiguousFail =>
      decisiveEvidence kind submissionId "ambiguous: medium sufficient"
  | .easyPass | .easyFail | .hardPass | .hardFail | .adversarialPass | .adversarialFail =>
      undecidedEvidence kind "medium insufficient; need heavy"

/-- The evidence of the third stage, which is always decisive. -/
def heavyEvidence (kind : WorkloadKind) (submissionId : UUID) : StageEvidence :=
  decisiveEvidence kind submissionId "heavy establishes ground truth"

/-- `evidence_for_stage`. -/
def evidenceForStage (stageName : String) (kind : WorkloadKind) (submissionId : UUID) :
    StageEvidence :=
  if stageName = "cheap" then cheapEvidence kind submissionId
  else if stageName = "medium" then mediumEvidence kind submissionId
  else heavyEvidence kind submissionId

section Evidence

variable {stageName : String} {kind : WorkloadKind} {submissionId : UUID}

/-- Where the first stage may end the evaluation, it says what the full one would. -/
theorem cheap_decisive (hsafe : (cheapEvidence kind submissionId).safeToTerminate = true) :
    cheapEvidence kind submissionId =
      decisiveEvidence kind submissionId "easy: cheap evidence matches ground truth" := by
  cases kind <;> first | rfl | cases hsafe

/-- Where the second stage may end it, so does it. -/
theorem medium_decisive (hsafe : (mediumEvidence kind submissionId).safeToTerminate = true) :
    mediumEvidence kind submissionId =
      decisiveEvidence kind submissionId "ambiguous: medium sufficient" := by
  cases kind <;> first | rfl | cases hsafe

/-- **Safe evidence.**  Evidence that is safe to terminate on reports the truth. -/
theorem evidence_decisive
    (hsafe : (evidenceForStage stageName kind submissionId).safeToTerminate = true) :
    (evidenceForStage stageName kind submissionId).score =
      (groundTruthFor kind submissionId).truthScore := by
  unfold evidenceForStage at hsafe ⊢
  by_cases hcheap : stageName = "cheap"
  · simp only [hcheap, if_true] at hsafe ⊢
    rw [cheap_decisive hsafe]
    rfl
  · by_cases hmedium : stageName = "medium"
    · simp only [hmedium, if_true] at hsafe ⊢
      rw [medium_decisive hsafe]
      rfl
    · simp only [hcheap, hmedium, if_false]
      rfl

end Evidence

end ChallengeForge
