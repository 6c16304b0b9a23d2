import ChallengeForge.ProgressiveEvaluation

/-!
# Deferral is transparent

An evaluation in the resource-aware mode is run claim after claim: a claim that
defers is followed by one that starts at its `next_stage`, under a pressure, a
deadline and a clock of its own.  One fixed progressive run from the first stage
is what all these claims together come to.

* `claims_end` — the claims come to an end, as one stretch of stages;
* `deferral_transparent` — they agree with the uninterrupted run.
-/

namespace ChallengeForge

open Staged

section Claims

variable (plan : EvaluationPlan) (runStage : StageRunner) (claims : Nat → ClaimContext)

/-- The claims on an evaluation from claim `k` on, which starts at stage `start`:
the results of those that defer, and that of the last one.  `none` where the
given number of claims does not suffice. -/
def claimAfterClaim :
    Nat → Nat → Nat → Option (List ProgressiveResult × Except String ProgressiveResult)
  | 0, _, _ => none
  | fuel + 1, k, start =>
      match runProgressive .resourceAwareAdaptive plan runStage (claims k) start with
      | .error reason => some ([], .error reason)
      | .ok result =>
        if result.finished then some ([], .ok result)
        else
          (claimAfterClaim fuel (k + 1) result.nextStage).map (fun later =>
            (result :: later.1, later.2))

/-- The stages on which the loop of a run calls `run_stage`. -/
def stagesRun (mode : EvaluationMode) (context : ClaimContext) : List StageSpec → Nat → List Nat
  | [], _ => []
  | stage :: rest, index =>
      match runStage stage index with
      | .error _ => [index]
      | .ok outcome =>
        if (decideAfter mode context rest index outcome).action = .continue then
          index :: stagesRun mode context rest (index + 1)
        else [index]

/-- The stages on which the claims call it, one claim after the other. -/
def claimStages : Nat → Nat → Nat → List Nat
  | 0, _, _ => []
  | fuel + 1, k, start =>
      stagesRun runStage .resourceAwareAdaptive (claims k) (plan.stages.drop start) start ++
        match runProgressive .resourceAwareAdaptive plan runStage (claims k) start with
        | .error _ => []
        | .ok result => if result.finished then [] else claimStages fuel (k + 1) result.nextStage

end Claims

/-- What the claims on an evaluation come to. -/
structure EvaluationTotal where
  stages : List JsonDict
  actualCostUnits : Int
  score : Option Int
  earlyExitReason : Option String
  nextStage : Nat

/-- The logs and costs of all claims, and the verdict of the last. -/
def totalOf (deferrals : List ProgressiveResult) (last : ProgressiveResult) :
    EvaluationTotal where
  stages := (deferrals ++ [last]).flatMap ProgressiveResult.stages
  actualCostUnits := ((deferrals ++ [last]).map ProgressiveResult.actualCostUnits).sum
  score := last.score
  earlyExitReason := last.earlyExitReason
  nextStage := last.nextStage

namespace Progress

/-! ## What executed stages add up to -/

theorem stagesLog_after (progress : Progress) (context : ClaimContext) (i : Nat)
    (executed : List (StageSpec × StageOutcome)) :
    (progress.after context i executed).stagesLog =
      progress.stagesLog ++ executed.map (fun x => x.2.evidence) := by
  induction executed generalizing progress i with
  | nil => simp [after]
  | cons x executed ih => simp [after, ih, add]

theorem cost_after (progress : Progress) (context : ClaimContext) (i : Nat)
    (executed : List (StageSpec × StageOutcome)) :
    (progress.after context i executed).cost =
      progress.cost + (executed.map (fun x => x.1.costUnits)).sum := by
  induction executed generalizing progress i with
  | nil => simp [after]
  | cons x executed ih =>
      simp only [after, ih, add, List.map_cons, List.sum_cons]
      omega

theorem score_after (progress : Progress) (context : ClaimContext) (i : Nat)
    (executed : List (StageSpec × StageOutcome)) :
    (progress.after context i executed).score =
      (executed.getLast?.map (fun x => x.2.score)).getD progress.score := by
  induction executed generalizing progress i with
  | nil => rfl
  | cons x executed ih =>
      rw [after, ih]
      cases hlast : executed.getLast? with
      | none => simp [List.getLast?_cons, hlast, add]
      | some last => simp [List.getLast?_cons, hlast]

end Progress

/-- What a stretch of stages from `start` on comes to, one that does not pause. -/
def stretchTotal (start : Nat) (executed : List (StageSpec × StageOutcome)) :
    Ending String String → Except String EvaluationTotal
  | .failed reason => .error reason
  | .stopped reason | .paused reason => .ok (reached reason)
  | .exhausted => .ok (reached "plan_exhausted")
where
  reached (earlyExitReason : String) : EvaluationTotal :=
    { stages := executed.map (fun x => x.2.evidence)
      actualCostUnits := (executed.map (fun x => x.1.costUnits)).sum
      score := some ((executed.getLast?.map (fun x => x.2.score)).getD 0)
      earlyExitReason := some earlyExitReason
      nextStage := start + executed.length }

/-- The log and the cost of an earlier claim come first. -/
def EvaluationTotal.prepend (total : EvaluationTotal)
    (executed : List (StageSpec × StageOutcome)) : EvaluationTotal :=
  { total with
    stages := executed.map (fun x => x.2.evidence) ++ total.stages
    actualCostUnits := (executed.map (fun x => x.1.costUnits)).sum + total.actualCostUnits }

section Totals

variable {plan : EvaluationPlan} {runStage : StageRunner} {mode : EvaluationMode}
  {context : ClaimContext} {start : Nat} {executed executed' : List (StageSpec × StageOutcome)}
  {ending : Ending String String} {verdict : Nat → StageSpec × StageOutcome → Verdict String}

/-- A run that does not defer comes to what its stretch does. -/
theorem total_conclude (lastStage : Option String) (hpaused : ∀ reason, ending ≠ .paused reason) :
    ((Progress.initial.after context start executed).conclude mode (start + executed.length)
      lastStage ending).map (totalOf []) = stretchTotal start executed ending := by
  have htotal : ∀ reason tier, totalOf []
      ((Progress.initial.after context start executed).result mode true
        (start + executed.length) (some reason) none tier) =
      stretchTotal.reached start executed reason := by
    intro reason tier
    simp [totalOf, stretchTotal.reached, Progress.result, Progress.stagesLog_after,
      Progress.cost_after, Progress.score_after, Progress.initial]
  cases ending with
  | failed reason => rfl
  | paused reason => exact absurd rfl (hpaused reason)
  | stopped reason => exact congrArg Except.ok (htotal reason lastStage)
  | exhausted => exact congrArg Except.ok (htotal "plan_exhausted" _)

/-- A stretch that starts at a stage there is gives something, or fails. -/
theorem executed_ne_nil (h : Stretch (plan.stage runStage) verdict start executed ending)
    (hstart : plan.stage runStage start ≠ none) (hok : ∀ reason, ending ≠ .failed reason) :
    executed ≠ [] := by
  cases h with
  | exhausted hstage => exact absurd hstage hstart
  | failed hstage => exact absurd rfl (hok _)
  | stopped hstage hverdict => exact List.cons_ne_nil _ _
  | paused hstage hverdict => exact List.cons_ne_nil _ _
  | next hstage hverdict hrest => exact List.cons_ne_nil _ _

/-- Two stretches in a row. -/
theorem stretchTotal_append
    (h : Stretch (plan.stage runStage) verdict (start + executed.length) executed' ending)
    (hnext : plan.stage runStage (start + executed.length) ≠ none) :
    stretchTotal start (executed ++ executed') ending =
      (stretchTotal (start + executed.length) executed' ending).map
        (fun total => total.prepend executed) := by
  have hreached : (∀ reason, ending ≠ .failed reason) → ∀ reason,
      stretchTotal.reached start (executed ++ executed') reason =
        (stretchTotal.reached (start + executed.length) executed' reason).prepend executed := by
    intro hok reason
    have hne : executed' ≠ [] := executed_ne_nil h hnext hok
    have hlast : (executed ++ executed').getLast? = executed'.getLast? :=
      List.getLast?_append_of_ne_nil executed hne
    simp [stretchTotal.reached, EvaluationTotal.prepend, hlast, Nat.add_assoc]
  cases ending with
  | failed reason => rfl
  | stopped reason => exact congrArg Except.ok (hreached (by simp) reason)
  | paused reason => exact congrArg Except.ok (hreached (by simp) reason)
  | exhausted => exact congrArg Except.ok (hreached (by simp) "plan_exhausted")

/-! ## The stages that run -/

/-- A stage that fails was run too. -/
def lastAttempt : Ending String String → Nat
  | .failed _ => 1
  | .stopped _ | .paused _ | .exhausted => 0

theorem drop_of_stage_none {i : Nat} (h : plan.stage runStage i = none) :
    plan.stages.drop i = [] := by
  simpa [EvaluationPlan.stage, EvaluationPlan.stageAt] using h

/-- A stage that has a result is the next one of the plan. -/
theorem drop_of_stage {i : Nat} {result : Except String (StageSpec × StageOutcome)}
    (h : plan.stage runStage i = some result) :
    ∃ spec, plan.stages.drop i = spec :: plan.stages.drop (i + 1) ∧
      (runStage spec i).map (fun outcome => (spec, outcome)) = result := by
  obtain ⟨spec, hspec, hresult⟩ := Option.map_eq_some_iff.mp h
  obtain ⟨hi, rfl⟩ := List.getElem?_eq_some_iff.mp hspec
  exact ⟨_, List.drop_eq_getElem_cons hi, hresult⟩

theorem drop_of_stage_ok {i : Nat} {x : StageSpec × StageOutcome}
    (h : plan.stage runStage i = some (.ok x)) :
    plan.stages.drop i = x.1 :: plan.stages.drop (i + 1) ∧ runStage x.1 i = .ok x.2 := by
  obtain ⟨spec, hdrop, hresult⟩ := drop_of_stage h
  cases hrun : runStage spec i with
  | error reason => simp [hrun, Except.map] at hresult
  | ok outcome =>
      obtain rfl : (spec, outcome) = x := by simpa [hrun, Except.map] using hresult
      exact ⟨hdrop, hrun⟩

/-- The policy continues exactly where the verdict goes on. -/
theorem verdict_go_iff {i : Nat} {x : StageSpec × StageOutcome} :
    plan.verdict mode context i x = .go ↔
      (decideAfter mode context (plan.stages.drop (i + 1)) i x.2).action = .continue := by
  rw [EvaluationPlan.verdict, EscalationDecision.verdict]
  cases (decideAfter mode context (plan.stages.drop (i + 1)) i x.2).action <;> simp

/-- After a stage that does not continue nothing is run. -/
theorem stagesRun_last {i : Nat} {x : StageSpec × StageOutcome}
    (hstage : plan.stage runStage i = some (.ok x))
    (hverdict : plan.verdict mode context i x ≠ .go) :
    stagesRun runStage mode context (plan.stages.drop i) i = [i] := by
  obtain ⟨hdrop, hrun⟩ := drop_of_stage_ok hstage
  rw [hdrop]
  simp only [stagesRun, hrun]
  exact if_neg (fun hgo => hverdict (verdict_go_iff.mpr hgo))

/-- A run tries the stages from its first one on, up to the one where it ends. -/
theorem stagesRun_of_stretch
    (h : Stretch (plan.stage runStage) (plan.verdict mode context) start executed ending) :
    stagesRun runStage mode context (plan.stages.drop start) start =
      List.range' start (executed.length + lastAttempt ending) := by
  induction h with
  | exhausted hstage =>
      rw [drop_of_stage_none hstage]
      rfl
  | @failed i reason hstage =>
      obtain ⟨spec, hdrop, hresult⟩ := drop_of_stage hstage
      have hrun : runStage spec i = .error reason := by
        cases hrun : runStage spec i <;> simp_all [Except.map]
      rw [hdrop]
      simp only [stagesRun, hrun]
      rfl
  | stopped hstage hverdict => exact stagesRun_last hstage (by simp [hverdict])
  | paused hstage hverdict => exact stagesRun_last hstage (by simp [hverdict])
  | @next i x executed ending hstage hverdict hrest ih =>
      obtain ⟨hdrop, hrun⟩ := drop_of_stage_ok hstage
      have hgo := verdict_go_iff.mp hverdict
      rw [hdrop]
      simp only [stagesRun, hrun, if_pos hgo, ih]
      rw [List.length_cons, Nat.add_right_comm, List.range'_succ]

end Totals

/-! ## The claims together -/

section Transparency

variable {plan : EvaluationPlan} {runStage : StageRunner} {claims : Nat → ClaimContext}

/-- The claims from stage `start` on come to one stretch of the uninterrupted
run. -/
structure ClaimsEnd (plan : EvaluationPlan) (runStage : StageRunner)
    (claims : Nat → ClaimContext) (straight : ClaimContext) (fuel k start : Nat)
    (deferrals : List ProgressiveResult) (last : Except String ProgressiveResult)
    (executed : List (StageSpec × StageOutcome)) (ending : Ending String String) : Prop where
  results : claimAfterClaim plan runStage claims fuel k start = some (deferrals, last)
  stretch : Stretch (plan.stage runStage) (plan.verdict .fixedProgressive straight) start
    executed ending
  unpaused : ∀ reason, ending ≠ .paused reason
  total : last.map (totalOf deferrals) = stretchTotal start executed ending
  finished : ∀ result, last = .ok result → result.finished = true
  stages : claimStages plan runStage claims fuel k start =
    List.range' start (executed.length + lastAttempt ending)

variable {straight : ClaimContext} {fuel k start : Nat}
  {executed : List (StageSpec × StageOutcome)} {ending : Ending String String}

/-- A claim that does not defer is the last one. -/
theorem ClaimsEnd.of_last
    (hstretch : Stretch (plan.stage runStage)
      (plan.verdict .resourceAwareAdaptive (claims k)) start executed ending)
    (hrun : runProgressive .resourceAwareAdaptive plan runStage (claims k) start =
      (Progress.initial.after (claims k) start executed).conclude .resourceAwareAdaptive
        (start + executed.length) (lastStageName executed) ending)
    (hpaused : ∀ reason, ending ≠ .paused reason) :
    ClaimsEnd plan runStage claims straight (fuel + 1) k start []
      (runProgressive .resourceAwareAdaptive plan runStage (claims k) start) executed ending := by
  have hfinished : ∀ result,
      runProgressive .resourceAwareAdaptive plan runStage (claims k) start = .ok result →
        result.finished = true := by
    intro result hresult
    rw [hrun] at hresult
    cases ending with
    | paused reason => exact absurd rfl (hpaused reason)
    | failed reason => cases hresult
    | stopped reason => cases hresult; rfl
    | exhausted => cases hresult; rfl
  refine ⟨?_, hstretch.unpaused (EvaluationPlan.verdict_adaptive straight (claims k)) hpaused,
    hpaused, ?_, hfinished, ?_⟩
  · cases hresult : runProgressive .resourceAwareAdaptive plan runStage (claims k) start with
    | error reason => simp [claimAfterClaim, hresult]
    | ok result => simp [claimAfterClaim, hresult, hfinished result hresult]
  · rw [hrun]
    exact total_conclude _ hpaused
  · rw [← stagesRun_of_stretch hstretch]
    cases hresult : runProgressive .resourceAwareAdaptive plan runStage (claims k) start with
    | error reason => simp [claimStages, hresult]
    | ok result => simp [claimStages, hresult, hfinished result hresult]

/-- A claim that defers is followed by those from its next stage on. -/
theorem ClaimsEnd.of_deferral {reason : String} {result : ProgressiveResult}
    {deferrals : List ProgressiveResult} {last : Except String ProgressiveResult}
    {executed' : List (StageSpec × StageOutcome)}
    (hstretch : Stretch (plan.stage runStage)
      (plan.verdict .resourceAwareAdaptive (claims k)) start executed (.paused reason))
    (hrun : runProgressive .resourceAwareAdaptive plan runStage (claims k) start = .ok result)
    (hresult : result = (Progress.initial.after (claims k) start executed).result
      .resourceAwareAdaptive false (start + executed.length) none (some reason)
      (lastStageName executed))
    (hnext : start + executed.length < plan.stages.length)
    (hlater : ClaimsEnd plan runStage claims straight fuel (k + 1) (start + executed.length)
      deferrals last executed' ending) :
    ClaimsEnd plan runStage claims straight (fuel + 1) k start (result :: deferrals) last
      (executed ++ executed') ending := by
  have hdeferred : result.finished = false := by rw [hresult]; rfl
  have hnextStage : result.nextStage = start + executed.length := by rw [hresult]; rfl
  have hthere : plan.stage runStage (start + executed.length) ≠ none := by
    simp [EvaluationPlan.stage, EvaluationPlan.stageAt, hnext]
  -- the log and the cost of the deferral are those of its stages
  have hprepend : ∀ final,
      totalOf (result :: deferrals) final = (totalOf deferrals final).prepend executed := by
    intro final
    have hlog : result.stages = executed.map (fun x => x.2.evidence) := by
      simp [hresult, Progress.result, Progress.stagesLog_after, Progress.initial]
    have hcost : result.actualCostUnits = (executed.map (fun x => x.1.costUnits)).sum := by
      simp [hresult, Progress.result, Progress.cost_after, Progress.initial]
    simp [totalOf, EvaluationTotal.prepend, hlog, hcost]
  refine ⟨?_, hstretch.resume (EvaluationPlan.verdict_adaptive straight (claims k)) hlater.stretch,
    hlater.unpaused, ?_, hlater.finished, ?_⟩
  · simp [claimAfterClaim, hrun, hdeferred, hnextStage, hlater.results]
  · calc last.map (totalOf (result :: deferrals))
        = (last.map (totalOf deferrals)).map (fun total => total.prepend executed) := by
          cases last with
          | error e => rfl
          | ok final => exact congrArg Except.ok (hprepend final)
      _ = (stretchTotal (start + executed.length) executed' ending).map
            (fun total => total.prepend executed) := by rw [hlater.total]
      _ = stretchTotal start (executed ++ executed') ending :=
          (stretchTotal_append hlater.stretch hthere).symm
  · have hstages : claimStages plan runStage claims (fuel + 1) k start =
        List.range' start executed.length ++
          List.range' (start + executed.length) (executed'.length + lastAttempt ending) := by
      simp only [claimStages, hrun, hdeferred, hnextStage, hlater.stages,
        stagesRun_of_stretch hstretch]
      rfl
    rw [hstages, List.range'_append_1, List.length_append, Nat.add_assoc]

/-- **Claims end.**  Each deferral has run a stage, and leaves a next one. -/
theorem claims_end (plan : EvaluationPlan) (runStage : StageRunner)
    (claims : Nat → ClaimContext) (straight : ClaimContext) (fuel k start : Nat)
    (hfuel : plan.stages.length < start + fuel) (hstart : start ≤ plan.stages.length) :
    ∃ deferrals last executed ending,
      ClaimsEnd plan runStage claims straight fuel k start deferrals last executed ending := by
  induction fuel generalizing k start with
  | zero => omega
  | succ fuel ih =>
      obtain ⟨executed, ending, hstretch, hrun⟩ :=
        run_spec plan runStage .resourceAwareAdaptive (claims k) start
      cases ending with
      | paused reason =>
          obtain ⟨last, x, hlength, hstage, hverdict⟩ := hstretch.endsAt
          have hlast : start + last + 1 < plan.stages.length :=
            EvaluationPlan.verdict_next (by rw [hverdict]; simp)
          obtain ⟨deferrals, final, executed', ending', hlater⟩ :=
            ih (k + 1) (start + executed.length) (by omega) (by omega)
          exact ⟨_, _, _, _, .of_deferral hstretch hrun rfl (by omega) hlater⟩
      | stopped reason => exact ⟨_, _, _, _, .of_last hstretch hrun (by simp)⟩
      | failed reason => exact ⟨_, _, _, _, .of_last hstretch hrun (by simp)⟩
      | exhausted => exact ⟨_, _, _, _, .of_last hstretch hrun (by simp)⟩

/-- The stages a stretch runs are stages of the plan. -/
theorem attempted_le
    {verdict : Nat → StageSpec × StageOutcome → Verdict String}
    (h : Stretch (plan.stage runStage) verdict start executed ending)
    (hstart : start ≤ plan.stages.length) :
    start + (executed.length + lastAttempt ending) ≤ plan.stages.length := by
  have hlt : ∀ j result, plan.stage runStage j = some result → j < plan.stages.length := by
    intro j result hstage
    obtain ⟨spec, hdrop, -⟩ := drop_of_stage hstage
    by_contra hpast
    rw [List.drop_eq_nil_of_le (by omega)] at hdrop
    cases hdrop
  have hexecuted : start + executed.length ≤ plan.stages.length := by
    rcases Nat.eq_zero_or_pos executed.length with hzero | hpos
    · omega
    · have hlast := hlt _ _ (h.stage_getElem (executed.length - 1) (by omega))
      omega
  cases ending with
  | failed reason => exact hlt _ _ h.endsAt
  | stopped reason => exact hexecuted
  | paused reason => exact hexecuted
  | exhausted => exact hexecuted

/-- **Deferral is transparent.**  For every plan, outcomes of its stages, and
pressures, deadlines and clocks of the claims, the claims end, and agree with
the uninterrupted run; each of them runs on where the last one deferred, so that
together they run the first stages of the plan, each once and in order. -/
theorem deferral_transparent (plan : EvaluationPlan) (runStage : StageRunner)
    (claims : Nat → ClaimContext) (straight : ClaimContext) :
    ∃ deferrals last,
      claimAfterClaim plan runStage claims (plan.stages.length + 1) 0 0 =
        some (deferrals, last) ∧
      last.map (totalOf deferrals) =
        (runProgressive .fixedProgressive plan runStage straight 0).map (totalOf []) ∧
      (∀ result, last = .ok result → result.finished = true) ∧
      ∃ n ≤ plan.stages.length,
        claimStages plan runStage claims (plan.stages.length + 1) 0 0 = List.range n ∧
        stagesRun runStage .fixedProgressive straight plan.stages 0 = List.range n := by
  obtain ⟨deferrals, last, executed, ending, hend⟩ :=
    claims_end plan runStage claims straight (plan.stages.length + 1) 0 0 (by omega) (by omega)
  obtain ⟨executed', ending', hstretch, hrun⟩ :=
    run_spec plan runStage .fixedProgressive straight 0
  obtain ⟨rfl, rfl⟩ := hend.stretch.unique hstretch
  refine ⟨deferrals, last, hend.results, ?_, hend.finished,
    executed.length + lastAttempt ending, ?_, ?_, ?_⟩
  · rw [hrun, hend.total, total_conclude _ hend.unpaused]
  · simpa using attempted_le hstretch (Nat.zero_le _)
  · rw [hend.stages, List.range_eq_range']
  · rw [List.range_eq_range', ← stagesRun_of_stretch hstretch, List.drop_zero]

end Transparency

end ChallengeForge
