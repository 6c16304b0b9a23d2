import ChallengeForge.DeferralTransparency
import ChallengeForge.StageRunners

/-!
# The evaluation modes agree

Under a workload kind a run finishes only on evidence that is safe to terminate
on, and such evidence is the truth.  So every run that finishes scores the truth,
in whatever mode, from whatever stage, and under whatever pressure and deadline.

* `run_settles` — one run finishes with the truth, or defers to a later stage;
* `modes_agree` — the progressive modes and the full evaluation.
-/

namespace ChallengeForge

open Staged

/-- A progressive mode finishes on a safe outcome or at the last stage. -/
theorem ProgressivePolicy.decide_finish {policy : ProgressivePolicy}
    {confidence : StageConfidence} {nextStageExists safeToTerminate : Bool}
    {pressure : PressureState} {deadlineAt : Option Timestamp} {now : Timestamp}
    {nextStageCostUnits : Int} (hmode : policy.mode.progressive)
    (h : (policy.decide confidence nextStageExists pressure deadlineAt now nextStageCostUnits
      safeToTerminate).action = .finish) :
    nextStageExists = false ∨ safeToTerminate = true := by
  unfold EvaluationMode.progressive at hmode
  unfold decide at h
  grind

/-- No forced failure is asked for. -/
structure Unforced (metadata : JsonDict) : Prop where
  evaluation : forcesFailure metadata = false
  stages : ∀ stage ∈ DEFAULT_PLAN.stages, forcesStageFailure metadata stage.name = false

section Agreement

variable {legacyDigest : StageSpec → Nat → String} {submissionId : UUID} {metadata : JsonDict}
  {kind : WorkloadKind} {mode : EvaluationMode} {context : ClaimContext}

/-- Under a workload kind no stage fails, and a safe outcome scores the truth. -/
theorem stage_settles (hkind : parseWorkloadKind metadata = some kind)
    (hunforced : Unforced metadata) {i : Nat} {result : Except String (StageSpec × StageOutcome)}
    (hstage : DEFAULT_PLAN.stage (runStage legacyDigest submissionId metadata) i = some result) :
    ∃ x, result = .ok x ∧ DEFAULT_PLAN.stageAt i = some x.1 ∧
      x.2.safeToTerminate = (evidenceForStage x.1.name kind submissionId).safeToTerminate ∧
      (x.2.safeToTerminate = true →
        x.2.score = (groundTruthFor kind submissionId).truthScore) := by
  obtain ⟨spec, hspec, hresult⟩ := Option.map_eq_some_iff.mp hstage
  have hmem : spec ∈ DEFAULT_PLAN.stages := List.mem_of_getElem? hspec
  obtain ⟨outcome, hrun, -, hsafe, hscore⟩ :=
    @runStage_kind legacyDigest submissionId metadata spec i kind hkind hunforced.evaluation
      (hunforced.stages spec hmem)
  refine ⟨(spec, outcome), ?_, hspec, hsafe, ?_⟩
  · rw [← hresult, hrun]
    rfl
  · intro hterminal
    obtain ⟨hpos, hle, -⟩ := truthScore_decides kind submissionId
    have htruth := evidence_decisive (hsafe.symm.trans hterminal)
    show outcome.score = _
    rw [hscore, htruth]
    omega

/-- **Stops.**  A progressive run stops at a stage that scores the truth. -/
theorem stop_settles (hkind : parseWorkloadKind metadata = some kind)
    (hunforced : Unforced metadata) (hmode : mode.progressive) {i : Nat}
    {x : StageSpec × StageOutcome} {reason : String}
    (hstage : DEFAULT_PLAN.stage (runStage legacyDigest submissionId metadata) i = some (.ok x))
    (hverdict : DEFAULT_PLAN.verdict mode context i x = .stop reason) :
    x.2.score = (groundTruthFor kind submissionId).truthScore := by
  obtain ⟨y, hy, hspec, hsafe, htruth⟩ := stage_settles hkind hunforced hstage
  cases hy
  have haction : (decideAfter mode context (DEFAULT_PLAN.stages.drop (i + 1)) i x.2).action =
      .finish := by
    rw [EvaluationPlan.verdict, EscalationDecision.verdict] at hverdict
    split at hverdict
    · assumption
    · cases hverdict
    · cases hverdict
  rcases ProgressivePolicy.decide_finish hmode haction with hlast | hterminal
  · -- the last stage of the plan is HEAVY, whose evidence is safe
    have hi : i < DEFAULT_PLAN.stages.length := (List.getElem?_eq_some_iff.mp hspec).1
    have hpast : DEFAULT_PLAN.stages.length ≤ i + 1 := by
      rw [List.head?_drop] at hlast
      simpa using hlast
    have hlength : DEFAULT_PLAN.stages.length = 3 := rfl
    obtain rfl : i = 2 := by omega
    have hheavy : x.1 = HEAVY := (Option.some.inj hspec).symm
    apply htruth
    rw [hsafe, hheavy]
    rfl
  · exact htruth hterminal

/-- **One run.**  From any stage of the plan a progressive run finishes with the
truth, or puts off a later stage. -/
theorem run_settles (legacyDigest : StageSpec → Nat → String) (submissionId : UUID)
    (context : ClaimContext) (hkind : parseWorkloadKind metadata = some kind)
    (hunforced : Unforced metadata) (hmode : mode.progressive) {start : Nat}
    (hstart : start < DEFAULT_PLAN.stages.length) :
    ∃ result, runProgressive mode DEFAULT_PLAN (runStage legacyDigest submissionId metadata)
        context start = .ok result ∧
      (result.finished = true →
        result.score = some (groundTruthFor kind submissionId).truthScore) ∧
      (result.finished = false → mode = .resourceAwareAdaptive ∧ start < result.nextStage ∧
        result.nextStage < DEFAULT_PLAN.stages.length) := by
  obtain ⟨executed, ending, hstretch, hrun⟩ := run_spec DEFAULT_PLAN
    (runStage legacyDigest submissionId metadata) mode context start
  have hends := hstretch.endsAt
  cases ending with
  | failed reason =>
      obtain ⟨x, hx, -⟩ := stage_settles hkind hunforced hends
      cases hx
  | exhausted =>
      -- the last executed stage went on, so there was a next one
      exfalso
      have hpast : DEFAULT_PLAN.stages.length ≤ start + executed.length := by
        have hnone : DEFAULT_PLAN.stage (runStage legacyDigest submissionId metadata)
            (start + executed.length) = none := hends
        simpa [EvaluationPlan.stage, EvaluationPlan.stageAt] using hnone
      have hlast := hstretch.last_go rfl (executed.length - 1) (by omega)
      have hnext := EvaluationPlan.verdict_next (by rw [hlast]; simp)
      omega
  | stopped reason =>
      obtain ⟨k, x, hlength, hstage, hverdict⟩ := hends
      have hsettled := stop_settles hkind hunforced hmode hstage hverdict
      have hlast : executed.getLast? = some x := by
        have hget := hstretch.stage_getElem k (by omega)
        have hx : x = executed[k] := by
          rw [hstage] at hget
          exact Except.ok.inj (Option.some.inj hget)
        rw [List.getLast?_eq_getElem?, hlength, hx]
        exact List.getElem?_eq_getElem (by omega)
      refine ⟨_, hrun, ?_, ?_⟩
      · intro _
        show some _ = _
        rw [Progress.score_after, hlast]
        exact congrArg some hsettled
      · intro hunfinished
        cases hunfinished
  | paused reason =>
      obtain ⟨k, x, hlength, hstage, hverdict⟩ := hends
      have hnext : start + k + 1 < DEFAULT_PLAN.stages.length :=
        EvaluationPlan.verdict_next (by rw [hverdict]; simp)
      refine ⟨_, hrun, ?_, ?_⟩
      · intro hfinished
        cases hfinished
      · intro _
        refine ⟨(EvaluationPlan.verdict_pause hverdict).1, ?_, ?_⟩
        · show start < start + executed.length
          omega
        · show start + executed.length < _
          omega

/-- **The claims together.**  They end with the truth. -/
theorem claims_settle (legacyDigest : StageSpec → Nat → String) (submissionId : UUID)
    (hkind : parseWorkloadKind metadata = some kind) (hunforced : Unforced metadata)
    (claims : Nat → ClaimContext) (fuel k start : Nat)
    (hstart : start < DEFAULT_PLAN.stages.length)
    (hfuel : DEFAULT_PLAN.stages.length < start + fuel) :
    ∃ deferrals last,
      claimAfterClaim DEFAULT_PLAN (runStage legacyDigest submissionId metadata) claims fuel k
        start = some (deferrals, .ok last) ∧ last.finished = true ∧
      last.score = some (groundTruthFor kind submissionId).truthScore := by
  induction fuel generalizing k start with
  | zero => omega
  | succ fuel ih =>
      obtain ⟨result, hrun, hfinished, hdeferred⟩ := run_settles legacyDigest submissionId
        (claims k) hkind hunforced (Or.inr (Or.inr rfl)) hstart
      cases hdone : result.finished with
      | true => exact ⟨[], result, by simp [claimAfterClaim, hrun, hdone], hdone, hfinished hdone⟩
      | false =>
          obtain ⟨-, hlater, hnext⟩ := hdeferred hdone
          obtain ⟨deferrals, last, hclaims, hlast⟩ := ih (k + 1) result.nextStage hnext (by omega)
          exact ⟨result :: deferrals, last, by simp [claimAfterClaim, hrun, hdone, hclaims], hlast⟩

end Agreement

/-- The full evaluation, the fixed progressive mode and the claims of the
resource-aware mode finish with one score, that of the truth, which decides as the
kind does. -/
def ModesAgree (runStage : StageRunner) (truth : GroundTruth)
    (expensive straight : ClaimContext) (claims : Nat → ClaimContext) : Prop :=
  ∃ full fixed deferrals last,
    runProgressive .alwaysExpensive DEFAULT_PLAN runStage expensive 0 = .ok full ∧
    runProgressive .fixedProgressive DEFAULT_PLAN runStage straight 0 = .ok fixed ∧
    claimAfterClaim DEFAULT_PLAN runStage claims (DEFAULT_PLAN.stages.length + 1) 0 0 =
      some (deferrals, .ok last) ∧
    (full.finished = true ∧ fixed.finished = true ∧ last.finished = true) ∧
    full.score = some truth.truthScore ∧ fixed.score = full.score ∧ last.score = full.score ∧
    decisionFromScore truth.truthScore = truth.decision

/-- **The modes agree.**  For every submission and workload kind, and every schedule
of pressures, deadlines and deferrals. -/
theorem modes_agree (legacyDigest : StageSpec → Nat → String) (submissionId : UUID)
    (metadata : JsonDict) (kind : WorkloadKind) (hkind : parseWorkloadKind metadata = some kind)
    (hunforced : Unforced metadata) (expensive straight : ClaimContext)
    (claims : Nat → ClaimContext) :
    ModesAgree (runStage legacyDigest submissionId metadata) (groundTruthFor kind submissionId)
      expensive straight claims := by
  have hfirst : 0 < DEFAULT_PLAN.stages.length := by decide
  have hstraight : ∀ mode context, mode.progressive → mode ≠ .resourceAwareAdaptive →
      ∃ result, runProgressive mode DEFAULT_PLAN (runStage legacyDigest submissionId metadata)
        context 0 = .ok result ∧ result.finished = true ∧
        result.score = some (groundTruthFor kind submissionId).truthScore := by
    intro mode context hmode hfixed
    obtain ⟨result, hrun, hfinished, hdeferred⟩ := run_settles legacyDigest submissionId
      context hkind hunforced hmode hfirst
    cases hdone : result.finished with
    | true => exact ⟨result, hrun, hdone, hfinished hdone⟩
    | false => exact absurd (hdeferred hdone).1 hfixed
  obtain ⟨full, hfull, hfullDone, hfullScore⟩ :=
    hstraight .alwaysExpensive expensive (Or.inl rfl) (by decide)
  obtain ⟨fixed, hfixed, hfixedDone, hfixedScore⟩ :=
    hstraight .fixedProgressive straight (Or.inr (Or.inl rfl)) (by decide)
  obtain ⟨deferrals, last, hclaims, hlastDone, hlastScore⟩ :=
    claims_settle legacyDigest submissionId hkind hunforced claims
      (DEFAULT_PLAN.stages.length + 1) 0 0 hfirst (by omega)
  exact ⟨full, fixed, deferrals, last, hfull, hfixed, hclaims,
    ⟨hfullDone, hfixedDone, hlastDone⟩, hfullScore, hfixedScore.trans hfullScore.symm,
    hlastScore.trans hfullScore.symm, (truthScore_decides kind submissionId).2.2⟩

/-- A submission whose first stage is confidently wrong. -/
def adversarialMetadata : JsonDict := [("workload_kind", .str " Adversarial_PASS ")]

/-- It is run straight, and in claims that meet pressure first. -/
theorem modes_agree_adversarial :
    ModesAgree (runStage (fun _ _ => "") 7 adversarialMetadata)
      (groundTruthFor .adversarialPass 7) ⟨.normal, none, fun _ => 0, fun _ => 0⟩
      ⟨.normal, none, fun _ => 0, fun _ => 0⟩
      (fun k => ⟨if k = 0 then .degraded else .normal, none, fun _ => 0, fun _ => 0⟩) :=
  modes_agree (fun _ _ => "") 7 adversarialMetadata .adversarialPass (by decide +kernel)
    ⟨by decide +kernel, by decide +kernel⟩ _ _ _

end ChallengeForge
