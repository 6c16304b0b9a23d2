import ChallengeForge.Debouncing
import ChallengeForge.ResourceRuntime
import Mathlib.Algebra.Order.Ring.Rat
import Mathlib.Tactic.Linarith

/-!
# Runs of the interactive feedback controller

A run feeds the controller one reading after another.  An enabled controller
is a debouncer of the level its threshold ladder asks for: `showing` puts the
debouncer's gate into the controller's four mutable fields, and one `update`
is one step of the gate.

* `run_no_flapping` — consecutive changes are a cooldown and a sustain span
  apart, and each was asked for a sustain span before;
* `run_recovers_below` — while no reading between the recovery and the warn
  threshold arrives in CRITICAL, only recovered readings lead to HEALTHY;
* `run_notices_iff` — readings at or above the warn threshold move the
  controller out of HEALTHY exactly when one band is held long enough.
-/

namespace ChallengeForge

open Debounce

/-- The arguments of one `update`. -/
structure Reading where
  p95Ms : Option Rat
  sampleCount : Int
  now : Rat

namespace InteractiveFeedbackController

/-- One reading. -/
def observe (feedback : InteractiveFeedbackController) (r : Reading) :
    InteractiveFeedbackController :=
  feedback.update r.p95Ms r.sampleCount r.now

/-- One reading after the other. -/
def run (feedback : InteractiveFeedbackController) (readings : List Reading) :
    InteractiveFeedbackController :=
  readings.foldl observe feedback

/-- The level a reading asks for; none when `update` does not look at it. -/
def asks (feedback : InteractiveFeedbackController) (r : Reading) :
    Option InteractiveLevel :=
  if r.sampleCount < feedback.minSamples then none
  else r.p95Ms.map feedback.desiredLevel

/-- A controller as constructed, in any level. -/
structure Fresh (feedback : InteractiveFeedbackController) : Prop where
  candidate : feedback.candidate = none
  candidateSince : feedback.candidateSince = none
  lastChangeAt : feedback.lastChangeAt = none

/-! ## The controller is a debouncer -/

/-- The controller, as a debouncer of what its readings ask for. -/
def debouncer (feedback : InteractiveFeedbackController) :
    Debouncer InteractiveLevel Reading Rat where
  asks := fun level r => { feedback with level := level }.asks r
  time := Reading.now
  sustain := feedback.sustainSeconds
  cooldown := feedback.cooldownSeconds

/-- The controller with a gate's state in its mutable fields. -/
def showing (feedback : InteractiveFeedbackController) (g : Gate InteractiveLevel Rat) :
    InteractiveFeedbackController :=
  { feedback with
    level := g.level
    candidate := g.pending.map Prod.fst
    candidateSince := g.pending.map Prod.snd
    lastChangeAt := g.changedAt }

/-- The gate of a fresh controller. -/
def gate (feedback : InteractiveFeedbackController) : Gate InteractiveLevel Rat where
  level := feedback.level
  pending := none
  changedAt := none

/-- A fresh controller shows its gate. -/
theorem showing_gate {feedback : InteractiveFeedbackController} (hfresh : feedback.Fresh) :
    feedback.showing feedback.gate = feedback := by
  obtain ⟨hcandidate, hsince, hlast⟩ := hfresh
  cases feedback
  simp only at hcandidate hsince hlast
  subst hcandidate hsince hlast
  rfl

/-- A span is over when it has passed since the time, if there is one. -/
theorem within_eq_false_iff {now : Rat} {since : Option Rat} {seconds : Rat} :
    within now since seconds = false ↔ ∀ t ∈ since, seconds ≤ now - t := by
  cases since with
  | none => simp [within]
  | some t => simp [within]

/-- The gate has rested when the cooldown is over. -/
theorem rested_iff {feedback : InteractiveFeedbackController} {g : Gate InteractiveLevel Rat}
    {now : Rat} : feedback.debouncer.Rested g now ↔
      within now g.changedAt feedback.cooldownSeconds = false :=
  within_eq_false_iff.symm

/-- What a reading asks for, and when. -/
theorem asks_eq_some_iff {feedback : InteractiveFeedbackController} {r : Reading}
    {wanted : InteractiveLevel} : feedback.asks r = some wanted ↔
      feedback.minSamples ≤ r.sampleCount ∧
        ∃ p95 ∈ r.p95Ms, feedback.desiredLevel p95 = wanted := by
  unfold asks
  split
  · rename_i hfew
    simp [not_le_of_gt hfew]
  · rename_i hmany
    simp [not_lt.mp hmany]

/-- A reading that asks for nothing is not looked at. -/
theorem observe_of_silent {feedback : InteractiveFeedbackController}
    (henabled : feedback.enabled = true) {r : Reading} (hasks : feedback.asks r = none) :
    feedback.observe r = feedback := by
  unfold asks at hasks
  simp only [observe, update, henabled, Bool.true_eq_false, if_false]
  cases hp95 : r.p95Ms with
  | none => rfl
  | some p95 =>
      by_cases hfew : r.sampleCount < feedback.minSamples
      · simp [hfew]
      · simp [hfew, hp95] at hasks

/-- What `update` does with a reading that asks for `wanted`. -/
theorem observe_of_asks {feedback : InteractiveFeedbackController}
    (henabled : feedback.enabled = true) {r : Reading} {wanted : InteractiveLevel}
    (hasks : feedback.asks r = some wanted) : feedback.observe r =
      if wanted = feedback.level then
        { feedback with candidate := none, candidateSince := none }
      else if within r.now feedback.lastChangeAt feedback.cooldownSeconds then feedback
      else if feedback.candidate ≠ some wanted then
        { feedback with candidate := some wanted, candidateSince := some r.now }
      else if within r.now feedback.candidateSince feedback.sustainSeconds then feedback
      else
        { feedback with
          level := wanted
          lastChangeAt := some r.now
          candidate := none
          candidateSince := none } := by
  obtain ⟨hmany, p95, hp95, hwanted⟩ := asks_eq_some_iff.mp hasks
  subst hwanted
  simp only [observe, update, henabled, Bool.true_eq_false, if_false, Option.mem_def.mp hp95,
    not_lt_of_ge hmany]

/-- **One update is one step of the gate.** -/
theorem observe_showing {feedback : InteractiveFeedbackController}
    (henabled : feedback.enabled = true) (g : Gate InteractiveLevel Rat) (r : Reading) :
    (feedback.showing g).observe r = feedback.showing (feedback.debouncer.step g r) := by
  have hshown : (feedback.showing g).enabled = true := henabled
  have hresting : feedback.debouncer.Rested g r.now →
      within r.now (feedback.showing g).lastChangeAt (feedback.showing g).cooldownSeconds =
        false := rested_iff.mp
  generalize hnext : feedback.debouncer.step g r = next
  cases hnext ▸ feedback.debouncer.step_spec g r with
  | silent hasks => exact observe_of_silent hshown hasks
  | agreed hasks =>
      have hsame : g.level = (feedback.showing g).level := rfl
      rw [observe_of_asks hshown hasks, if_pos hsame]
      rfl
  | cooling wanted hasks hother hcooling =>
      have hchange : wanted ≠ (feedback.showing g).level := hother
      have hwithin : within r.now (feedback.showing g).lastChangeAt
          (feedback.showing g).cooldownSeconds = true := by
        apply Bool.eq_true_of_not_eq_false
        exact fun hfalse => hcooling (rested_iff.mpr hfalse)
      rw [observe_of_asks hshown hasks, if_neg hchange, if_pos hwithin]
  | started wanted hasks hother hrested hnew =>
      have hchange : wanted ≠ (feedback.showing g).level := hother
      have hnew' : (feedback.showing g).candidate ≠ some wanted := by
        intro hsame
        obtain ⟨request, hrequest, hlevel⟩ := Option.map_eq_some_iff.mp hsame
        exact hnew request.2 (hlevel ▸ hrequest)
      rw [observe_of_asks hshown hasks, if_neg hchange, hresting hrested,
        if_neg Bool.false_ne_true, if_pos hnew']
      rfl
  | sustaining wanted since hasks hother hrested hpending hshort =>
      have hchange : wanted ≠ (feedback.showing g).level := hother
      have hsame : (feedback.showing g).candidate = some wanted := by
        simp [showing, hpending]
      have hwithin : within r.now (feedback.showing g).candidateSince
          (feedback.showing g).sustainSeconds = true := by
        have hshort' : r.now - since < feedback.sustainSeconds := hshort
        simpa [showing, hpending, within] using hshort'
      rw [observe_of_asks hshown hasks, if_neg hchange, hresting hrested,
        if_neg Bool.false_ne_true, if_neg (not_not_intro hsame), if_pos hwithin]
  | changed wanted since hasks hother hrested hpending hlong =>
      have hchange : wanted ≠ (feedback.showing g).level := hother
      have hsame : (feedback.showing g).candidate = some wanted := by
        simp [showing, hpending]
      have hwithin : within r.now (feedback.showing g).candidateSince
          (feedback.showing g).sustainSeconds = false := by
        have hlong' : feedback.sustainSeconds ≤ r.now - since := hlong
        simpa [showing, hpending, within] using hlong'
      rw [observe_of_asks hshown hasks, if_neg hchange, hresting hrested,
        if_neg Bool.false_ne_true, if_neg (not_not_intro hsame), hwithin,
        if_neg Bool.false_ne_true]
      rfl

/-- **A run of the controller is a run of the gate.** -/
theorem run_showing {feedback : InteractiveFeedbackController}
    (henabled : feedback.enabled = true) (g : Gate InteractiveLevel Rat)
    (readings : List Reading) :
    (feedback.showing g).run readings = feedback.showing (feedback.debouncer.run g readings) := by
  induction readings generalizing g with
  | nil => rfl
  | cons r rest ih =>
      have hone : (feedback.showing g).run (r :: rest) =
          ((feedback.showing g).observe r).run rest := rfl
      rw [hone, observe_showing henabled g r, ih, Debouncer.run_cons]

/-- A run of the controller is a run of its gate. -/
theorem run_eq_showing {feedback : InteractiveFeedbackController}
    (henabled : feedback.enabled = true) (hfresh : feedback.Fresh) (readings : List Reading) :
    feedback.run readings =
      feedback.showing (feedback.debouncer.run feedback.gate readings) := by
  rw [← run_showing henabled, showing_gate hfresh]

/-- So is its level. -/
theorem run_level {feedback : InteractiveFeedbackController}
    (henabled : feedback.enabled = true) (hfresh : feedback.Fresh) (readings : List Reading) :
    (feedback.run readings).level = (feedback.debouncer.run feedback.gate readings).level := by
  rw [run_eq_showing henabled hfresh]
  rfl

/-- And so is what it makes of the next reading. -/
theorem run_asks {feedback : InteractiveFeedbackController}
    (henabled : feedback.enabled = true) (hfresh : feedback.Fresh) (readings : List Reading)
    (r : Reading) : (feedback.run readings).asks r =
      feedback.debouncer.asks (feedback.debouncer.run feedback.gate readings).level r := by
  rw [run_eq_showing henabled hfresh]
  rfl

/-! ## No flapping -/

/-- The reading `r` after `before` changes the level. -/
def ChangesAt (feedback : InteractiveFeedbackController) (before : List Reading)
    (r : Reading) : Prop :=
  (feedback.run (before ++ [r])).level ≠ (feedback.run before).level

/-- The level after `last` was asked for a sustain span before, and no reading
in between that the controller looked at asked for another one. -/
def AskedSince (feedback : InteractiveFeedbackController) (before : List Reading)
    (last : Reading) : Prop :=
  ∃ earlier first between, before = earlier ++ first :: between ∧
    first.now ≤ last.now - feedback.sustainSeconds ∧
    (feedback.run earlier).asks first = some (feedback.run (before ++ [last])).level ∧
    ∀ part x rest, between = part ++ x :: rest →
      ∀ other, (feedback.run (earlier ++ first :: part)).asks x = some other →
        other = (feedback.run (before ++ [last])).level

/-- The controller changes its level where its gate does. -/
theorem changesAt_iff {feedback : InteractiveFeedbackController}
    (henabled : feedback.enabled = true) (hfresh : feedback.Fresh) {before : List Reading}
    {r : Reading} : feedback.ChangesAt before r ↔
      (feedback.debouncer.run feedback.gate (before ++ [r])).level ≠
        (feedback.debouncer.run feedback.gate before).level := by
  unfold ChangesAt
  rw [run_level henabled hfresh, run_level henabled hfresh]

/-- A change was asked for over the whole sustain span. -/
theorem askedSince_of_changesAt {feedback : InteractiveFeedbackController}
    (henabled : feedback.enabled = true) (hfresh : feedback.Fresh) {before : List Reading}
    {last : Reading}
    (hordered : (before ++ [last]).Pairwise (fun a b => a.now ≤ b.now))
    (hchange : feedback.ChangesAt before last) : feedback.AskedSince before last := by
  obtain ⟨earlier, first, between, hsplit, hlong, -, -, hstanding⟩ :=
    Debouncer.change_requested rfl ((changesAt_iff henabled hfresh).mp hchange)
  rw [← run_level henabled hfresh] at hstanding
  refine ⟨earlier, first, between, hsplit, ?_, ?_, ?_⟩
  · have hspan : feedback.sustainSeconds ≤ last.now - first.now := hlong
    linarith
  · rw [run_asks henabled hfresh]
    exact hstanding.asked
  · intro part x rest hbetween other hother
    have hmem : x ∈ between := by simp [hbetween]
    have hbegin : feedback.debouncer.Ordered (first :: between) := by
      rw [hsplit, List.append_assoc] at hordered
      have htail := (List.pairwise_append.mp hordered).2.1
      exact (List.pairwise_append.mp htail).1
    have hpart : part <+: between := ⟨x :: rest, hbetween.symm⟩
    rw [run_asks henabled hfresh, hstanding.holds part hpart] at hother
    rcases hstanding.undisputed hbegin x hmem with hsilent | hsame
    · rw [hsilent] at hother
      cases hother
    · exact Option.some.inj (hother.symm.trans hsame)

/-- **No flapping.**  Over any ordered run of an enabled controller,
consecutive changes are a cooldown and a sustain span apart, and every change
was asked for a sustain span before and not disputed since. -/
theorem run_no_flapping {feedback : InteractiveFeedbackController}
    (henabled : feedback.enabled = true) (hfresh : feedback.Fresh) {readings : List Reading}
    (hordered : readings.Pairwise (fun a b => a.now ≤ b.now)) :
    (∀ before a mid b after, readings = before ++ a :: (mid ++ b :: after) →
      feedback.ChangesAt before a →
      (∀ part x rest, mid = part ++ x :: rest →
        ¬ feedback.ChangesAt (before ++ a :: part) x) →
      feedback.ChangesAt (before ++ a :: mid) b →
      feedback.cooldownSeconds + feedback.sustainSeconds ≤ b.now - a.now) ∧
    (∀ before b after, readings = before ++ b :: after →
      feedback.ChangesAt before b → feedback.AskedSince before b) := by
  constructor
  · intro before a mid b after _ ha hquiet hb
    rw [changesAt_iff henabled hfresh] at ha hb
    refine Debouncer.changes_apart rfl ha ?_ hb
    intro part x rest hmid
    have hsame := hquiet part x rest hmid
    rw [changesAt_iff henabled hfresh] at hsame
    exact not_not.mp hsame
  · intro before b after hsplit hb
    have hhead : readings = (before ++ [b]) ++ after := by simp [hsplit]
    rw [hhead] at hordered
    exact askedSince_of_changesAt henabled hfresh (List.pairwise_append.mp hordered).1 hb

/-- Warn at 300 ms, critical at 900 ms, recover at 220 ms, each for a second. -/
def oneSecondFeedback : InteractiveFeedbackController where
  warnMs := 300
  criticalMs := 900
  recoveryMs := 220
  minSamples := 5
  sustainSeconds := 1
  cooldownSeconds := 1 / 2

/-- This controller has not been called. -/
theorem oneSecondFeedback_fresh : oneSecondFeedback.Fresh := ⟨rfl, rfl, rfl⟩

/-- A controller that warns after a second. -/
theorem run_no_flapping_warned :
    oneSecondFeedback.AskedSince [⟨some 400, 10, 0⟩, ⟨none, 0, 1 / 2⟩] ⟨some 500, 10, 1⟩ :=
  (run_no_flapping (by decide +kernel) oneSecondFeedback_fresh (by decide +kernel)).2
    [⟨some 400, 10, 0⟩, ⟨none, 0, 1 / 2⟩] ⟨some 500, 10, 1⟩ [] rfl
    (fun hsame => absurd hsame (by decide +kernel))

/-! ## Recovery -/

/-- What may lead to HEALTHY from above the recovery threshold: after the
cooldown, a reading between recovery and warn in CRITICAL, where the ladder has
no branch that holds; or a reading that asks for another level while HEALTHY is
the candidate and the cooldown hides it, which takes a clock that went
backwards. -/
def Strays (feedback : InteractiveFeedbackController) (r : Reading) : Prop :=
  feedback.minSamples ≤ r.sampleCount ∧ ∃ p95 ∈ r.p95Ms,
    feedback.effectiveRecoveryMs < p95 ∧
    (feedback.level = .critical ∧ p95 < feedback.warnMs ∧
        within r.now feedback.lastChangeAt feedback.cooldownSeconds = false ∨
      feedback.candidate = some .healthy ∧ feedback.desiredLevel p95 ≠ feedback.level ∧
        within r.now feedback.lastChangeAt feedback.cooldownSeconds = true)

instance (feedback : InteractiveFeedbackController) (r : Reading) :
    Decidable (feedback.Strays r) :=
  inferInstanceAs (Decidable (feedback.minSamples ≤ r.sampleCount ∧ ∃ p95 ∈ r.p95Ms,
    feedback.effectiveRecoveryMs < p95 ∧
    (feedback.level = .critical ∧ p95 < feedback.warnMs ∧
        within r.now feedback.lastChangeAt feedback.cooldownSeconds = false ∨
      feedback.candidate = some .healthy ∧ feedback.desiredLevel p95 ≠ feedback.level ∧
        within r.now feedback.lastChangeAt feedback.cooldownSeconds = true)))

/-- No reading of the run strays in the state it arrives in. -/
def NeverStrays (feedback : InteractiveFeedbackController) : List Reading → Prop
  | [] => True
  | r :: rest => ¬ feedback.Strays r ∧ (feedback.observe r).NeverStrays rest

/-- No reading of such a run strays where it arrives. -/
theorem NeverStrays.at_reading {feedback : InteractiveFeedbackController}
    {earlier later : List Reading} {r : Reading}
    (h : feedback.NeverStrays (earlier ++ r :: later)) : ¬ (feedback.run earlier).Strays r := by
  induction earlier generalizing feedback with
  | nil => exact h.1
  | cons x earlier ih => exact ih h.2

/-- If the controller looks at the reading, it finds the latency recovered. -/
def Recovered (feedback : InteractiveFeedbackController) (r : Reading) : Prop :=
  feedback.minSamples ≤ r.sampleCount →
    ∀ p95 ∈ r.p95Ms, p95 ≤ feedback.effectiveRecoveryMs

/-- Away from HEALTHY and after the cooldown, only the stray readings ask for
HEALTHY from above the recovery threshold. -/
theorem le_recovery_of_asks_healthy {feedback : InteractiveFeedbackController} {r : Reading}
    (haway : feedback.level ≠ .healthy) (hstray : ¬ feedback.Strays r)
    (hrested : within r.now feedback.lastChangeAt feedback.cooldownSeconds = false)
    (hasks : feedback.asks r = some .healthy) :
    ∃ p95 ∈ r.p95Ms, p95 ≤ feedback.effectiveRecoveryMs := by
  obtain ⟨hmany, p95, hp95, hdesired⟩ := asks_eq_some_iff.mp hasks
  refine ⟨p95, hp95, ?_⟩
  by_contra habove
  have hlevel : feedback.level = .critical ∧ p95 < feedback.warnMs := by
    cases hcase : feedback.level with
    | healthy => exact absurd hcase haway
    | warn =>
        simp only [desiredLevel, hcase, if_neg habove] at hdesired
        split at hdesired <;> cases hdesired
    | critical =>
        simp only [desiredLevel, hcase, if_neg habove] at hdesired
        refine ⟨rfl, lt_of_not_ge fun hwarn => ?_⟩
        rw [if_pos hwarn] at hdesired
        split at hdesired <;> cases hdesired
  exact hstray ⟨hmany, p95, hp95, lt_of_not_ge habove, .inl ⟨hlevel.1, hlevel.2, hrested⟩⟩

/-- After a run the cooldown is over when the gate has rested. -/
theorem run_rested_iff {feedback : InteractiveFeedbackController}
    (henabled : feedback.enabled = true) (hfresh : feedback.Fresh) {readings : List Reading}
    {now : Rat} :
    feedback.debouncer.Rested (feedback.debouncer.run feedback.gate readings) now ↔
      within now (feedback.run readings).lastChangeAt
        (feedback.run readings).cooldownSeconds = false := by
  rw [run_eq_showing henabled hfresh]
  exact rested_iff

/-- A run leaves the threshold and the sample count as they are. -/
theorem recovered_run_iff {feedback : InteractiveFeedbackController}
    (henabled : feedback.enabled = true) (hfresh : feedback.Fresh) (readings : List Reading)
    (r : Reading) : (feedback.run readings).Recovered r ↔ feedback.Recovered r := by
  rw [run_eq_showing henabled hfresh]
  exact Iff.rfl

/-- A reading that asks for nothing, or after the cooldown for HEALTHY, or in the
cooldown for another level while HEALTHY is the candidate, has recovered unless
it strays. -/
theorem recovered_of_calm {feedback : InteractiveFeedbackController} {r : Reading}
    (haway : feedback.level ≠ .healthy) (hstray : ¬ feedback.Strays r)
    (hcalm : feedback.asks r = none ∨
      feedback.asks r = some .healthy ∧
        within r.now feedback.lastChangeAt feedback.cooldownSeconds = false ∨
      feedback.asks r ≠ some feedback.level ∧ feedback.candidate = some .healthy ∧
        within r.now feedback.lastChangeAt feedback.cooldownSeconds = true) :
    feedback.Recovered r := by
  intro hmany p95 hp95
  have hasked : feedback.asks r = some (feedback.desiredLevel p95) :=
    asks_eq_some_iff.mpr ⟨hmany, p95, hp95, rfl⟩
  rcases hcalm with hsilent | ⟨hhealthy, hrested⟩ | ⟨hother, hcandidate, hhidden⟩
  · rw [hsilent] at hasked
    cases hasked
  · obtain ⟨p, hp, hle⟩ := le_recovery_of_asks_healthy haway hstray hrested hhealthy
    exact Option.mem_unique hp95 hp ▸ hle
  · by_contra habove
    have hanother : feedback.desiredLevel p95 ≠ feedback.level := by
      rintro hsame
      exact hother (hsame ▸ hasked)
    exact hstray ⟨hmany, p95, hp95, lt_of_not_ge habove, .inr ⟨hcandidate, hanother, hhidden⟩⟩

/-- `last` finds the latency recovered, and so does every reading since the
HEALTHY candidate was started. -/
def RecoveredSince (feedback : InteractiveFeedbackController) (before : List Reading)
    (last : Reading) : Prop :=
  (∃ p95 ∈ last.p95Ms, p95 ≤ feedback.effectiveRecoveryMs) ∧
  ∃ earlier first between, before = earlier ++ first :: between ∧
    (feedback.run earlier).candidate ≠ some .healthy ∧
    (∀ part, part <+: between →
      (feedback.run (earlier ++ first :: part)).candidate = some .healthy) ∧
    ∀ r ∈ first :: between, feedback.Recovered r

/-- **Recovery with hysteresis.**  In a run of an enabled controller without
stray readings, whatever leads to HEALTHY has recovered. -/
theorem run_recovers_below {feedback : InteractiveFeedbackController}
    (henabled : feedback.enabled = true) (hfresh : feedback.Fresh) {before : List Reading}
    {last : Reading}
    (hsteps : feedback.NeverStrays (before ++ [last]))
    (hchange : feedback.ChangesAt before last)
    (hhealthy : (feedback.run (before ++ [last])).level = .healthy) :
    feedback.RecoveredSince before last := by
  have haway : (feedback.run before).level ≠ .healthy :=
    fun hsame => hchange (hhealthy.trans hsame.symm)
  obtain ⟨earlier, first, between, hsplit, -, hlast, hrested, hstanding⟩ :=
    Debouncer.change_requested rfl ((changesAt_iff henabled hfresh).mp hchange)
  rw [← run_level henabled hfresh (before ++ [last]), hhealthy] at hstanding hlast
  rw [← run_asks henabled hfresh] at hlast
  refine ⟨?_, earlier, first, between, hsplit, ?_, ?_, ?_⟩
  · have hle := le_recovery_of_asks_healthy haway hsteps.at_reading
      ((run_rested_iff henabled hfresh).mp hrested) hlast
    rw [run_eq_showing henabled hfresh] at hle
    exact hle
  · rw [run_eq_showing henabled hfresh]
    intro hcandidate
    obtain ⟨request, hrequest, hlevel⟩ := Option.map_eq_some_iff.mp hcandidate
    exact hstanding.fresh request.2 (hlevel ▸ hrequest)
  · intro part hpart
    rw [run_eq_showing henabled hfresh, hstanding.holds part hpart]
    rfl
  · have hsteps' : feedback.NeverStrays (earlier ++ first :: (between ++ [last])) := by
      simpa [hsplit] using hsteps
    intro r hr
    rcases List.mem_cons.mp hr with rfl | hbetween
    · apply (recovered_run_iff henabled hfresh earlier _).mp
      refine recovered_of_calm ?_ hsteps'.at_reading ?_
      · rw [run_level henabled hfresh]
        exact hstanding.other.symm
      · refine .inr (.inl ⟨?_, (run_rested_iff henabled hfresh).mp hstanding.rested⟩)
        rw [run_asks henabled hfresh]
        exact hstanding.asked
    · obtain ⟨part, rest, hpart⟩ := List.append_of_mem hbetween
      have hstate := hstanding.holds part ⟨r :: rest, hpart.symm⟩
      have hsteps'' : feedback.NeverStrays
          ((earlier ++ first :: part) ++ r :: (rest ++ [last])) := by
        simpa [hpart] using hsteps'
      apply (recovered_run_iff henabled hfresh (earlier ++ first :: part) r).mp
      refine recovered_of_calm ?_ hsteps''.at_reading ?_
      · rw [run_level henabled hfresh, hstate]
        exact hstanding.other.symm
      · rw [run_asks henabled hfresh, run_eq_showing henabled hfresh, hstate]
        have hhidden : ¬ feedback.debouncer.Rested
              (feedback.debouncer.run feedback.gate earlier) r.now →
            within r.now (feedback.debouncer.run feedback.gate earlier).changedAt
              feedback.cooldownSeconds = true := by
          intro hcooling
          exact Bool.eq_true_of_not_eq_false (fun hfalse => hcooling (rested_iff.mpr hfalse))
        rcases hstanding.calm r hbetween with hsilent | hsame | ⟨hother, hcooling⟩
        · exact .inl hsilent
        · by_cases hcool : feedback.debouncer.Rested
            (feedback.debouncer.run feedback.gate earlier) r.now
          · exact .inr (.inl ⟨hsame, rested_iff.mp hcool⟩)
          · refine .inr (.inr ⟨?_, rfl, hhidden hcool⟩)
            intro hpresent
            exact hstanding.other (Option.some.inj (hsame.symm.trans hpresent))
        · exact .inr (.inr ⟨hother, rfl, hhidden hcooling⟩)

/-- A controller that warns, and recovers. -/
theorem run_recovers_below_after_warn :
    oneSecondFeedback.RecoveredSince
      [⟨some 400, 10, 0⟩, ⟨some 400, 10, 1⟩, ⟨some 200, 10, 2⟩] ⟨some 210, 10, 3⟩ :=
  run_recovers_below (by decide +kernel) oneSecondFeedback_fresh
    ⟨by decide +kernel, by decide +kernel, by decide +kernel, by decide +kernel, trivial⟩
    (fun hsame => absurd hsame (by decide +kernel)) (by decide +kernel)

/-- From CRITICAL, 250 ms held for a second leads to HEALTHY, above the
recovery threshold of 220 ms. -/
theorem recovers_above_recovery :
    oneSecondFeedback.Fresh ∧ oneSecondFeedback.enabled = true ∧
    (0 < oneSecondFeedback.recoveryMs ∧
      oneSecondFeedback.recoveryMs < oneSecondFeedback.warnMs ∧
      oneSecondFeedback.warnMs < oneSecondFeedback.criticalMs) ∧
    oneSecondFeedback.ChangesAt
      [⟨some 1000, 10, 0⟩, ⟨some 1000, 10, 1⟩, ⟨some 250, 10, 2⟩] ⟨some 250, 10, 3⟩ ∧
    (oneSecondFeedback.run [⟨some 1000, 10, 0⟩, ⟨some 1000, 10, 1⟩, ⟨some 250, 10, 2⟩,
      ⟨some 250, 10, 3⟩]).level = .healthy ∧
    ¬ oneSecondFeedback.RecoveredSince
      [⟨some 1000, 10, 0⟩, ⟨some 1000, 10, 1⟩, ⟨some 250, 10, 2⟩] ⟨some 250, 10, 3⟩ := by
  refine ⟨oneSecondFeedback_fresh, by decide +kernel, by decide +kernel, ?_, by decide +kernel, ?_⟩
  · exact fun hsame => absurd hsame (by decide +kernel)
  · exact fun hrecovered => absurd hrecovered.1 (by decide +kernel)

/-- Every stray reading in CRITICAL, once the cooldown is over, leads to
HEALTHY when it is only repeated. -/
theorem run_strays_to_healthy {feedback : InteractiveFeedbackController}
    (henabled : feedback.enabled = true) (hlevel : feedback.level = .critical) {p95 : Rat}
    {sampleCount : Int} {now later : Rat} (hmany : feedback.minSamples ≤ sampleCount)
    (hrecovery : feedback.effectiveRecoveryMs < p95) (hwarn : p95 < feedback.warnMs)
    (hcritical : feedback.warnMs < feedback.criticalMs)
    (hrested : within now feedback.lastChangeAt feedback.cooldownSeconds = false)
    (hnew : feedback.candidate ≠ some .healthy)
    (horder : now ≤ later) (hsustain : feedback.sustainSeconds ≤ later - now) :
    (feedback.run [⟨some p95, sampleCount, now⟩, ⟨some p95, sampleCount, later⟩]).level =
      .healthy := by
  have hasks : ∀ g : InteractiveFeedbackController, g.level = .critical →
      g.effectiveRecoveryMs = feedback.effectiveRecoveryMs → g.warnMs = feedback.warnMs →
      g.criticalMs = feedback.criticalMs → g.minSamples = feedback.minSamples →
      ∀ t, g.asks ⟨some p95, sampleCount, t⟩ = some .healthy := by
    intro g hg hrec hw hc hm t
    refine asks_eq_some_iff.mpr ⟨hm ▸ hmany, p95, rfl, ?_⟩
    have hbelow : ¬ g.criticalMs ≤ p95 := by linarith
    simp [desiredLevel, hg, hrec, hw, not_le_of_gt hrecovery, hbelow, not_le_of_gt hwarn]
  have hother : InteractiveLevel.healthy ≠ feedback.level := by simp [hlevel]
  have hfirst : feedback.observe ⟨some p95, sampleCount, now⟩ =
      { feedback with candidate := some .healthy, candidateSince := some now } := by
    rw [observe_of_asks henabled (hasks feedback hlevel rfl rfl rfl rfl now), if_neg hother,
      hrested, if_neg Bool.false_ne_true, if_pos hnew]
  have hstarted : InteractiveFeedbackController.enabled
      { feedback with candidate := some .healthy, candidateSince := some now } = true := henabled
  have hlater : within later feedback.lastChangeAt feedback.cooldownSeconds = false := by
    refine within_eq_false_iff.mpr (fun t ht => ?_)
    have hspan := within_eq_false_iff.mp hrested t ht
    linarith
  have hheld : within later (some now) feedback.sustainSeconds = false := by
    simpa [within] using hsustain
  have hrun : feedback.run [⟨some p95, sampleCount, now⟩, ⟨some p95, sampleCount, later⟩] =
      (feedback.observe ⟨some p95, sampleCount, now⟩).observe ⟨some p95, sampleCount, later⟩ :=
    rfl
  rw [hrun, hfirst, observe_of_asks hstarted (hasks _ hlevel rfl rfl rfl rfl later),
    if_neg hother, hlater, if_neg Bool.false_ne_true, if_neg (not_not_intro rfl), hheld,
    if_neg Bool.false_ne_true]

/-! ## Entering WARN or CRITICAL -/

/-- A reading the controller looks at, at or above the warn threshold. -/
def Elevated (feedback : InteractiveFeedbackController) (r : Reading) : Prop :=
  feedback.minSamples ≤ r.sampleCount ∧ ∃ p95 ∈ r.p95Ms, feedback.warnMs ≤ p95

instance (feedback : InteractiveFeedbackController) (r : Reading) :
    Decidable (feedback.Elevated r) :=
  inferInstanceAs (Decidable (feedback.minSamples ≤ r.sampleCount ∧
    ∃ p95 ∈ r.p95Ms, feedback.warnMs ≤ p95))

/-- The band of an elevated reading. -/
def band (feedback : InteractiveFeedbackController) (r : Reading) : InteractiveLevel :=
  if reaches r.p95Ms feedback.criticalMs then .critical else .warn

/-- One band is held over a sustain span: by two readings and all between
them, or, when it is the candidate already, by all readings up to one. -/
inductive BandHeld (feedback : InteractiveFeedbackController) (readings : List Reading) : Prop
  | afresh (wanted : InteractiveLevel) (earlier mid later : List Reading)
      (first last : Reading) (hsplit : readings = earlier ++ first :: (mid ++ last :: later))
      (hband : ∀ r ∈ first :: (mid ++ [last]), feedback.band r = wanted)
      (hlong : feedback.sustainSeconds ≤ last.now - first.now)
  | standing (wanted : InteractiveLevel) (since : Rat) (mid later : List Reading)
      (last : Reading) (hcandidate : feedback.candidate = some wanted)
      (hsince : feedback.candidateSince = some since)
      (hsplit : readings = mid ++ last :: later)
      (hband : ∀ r ∈ mid ++ [last], feedback.band r = wanted)
      (hlong : feedback.sustainSeconds ≤ last.now - since)

/-- In HEALTHY an elevated reading asks for its band. -/
theorem asks_of_elevated {feedback : InteractiveFeedbackController} {r : Reading}
    (hlevel : feedback.level = .healthy) (h : feedback.Elevated r) :
    feedback.asks r = some (feedback.band r) := by
  obtain ⟨hmany, p95, hp95, hwarn⟩ := h
  refine asks_eq_some_iff.mpr ⟨hmany, p95, hp95, ?_⟩
  simp [desiredLevel, hlevel, band, reaches, Option.mem_def.mp hp95, hwarn]

/-- Elsewhere it does not ask for HEALTHY. -/
theorem not_asks_healthy_of_elevated {feedback : InteractiveFeedbackController} {r : Reading}
    (hrecovery : feedback.effectiveRecoveryMs < feedback.warnMs)
    (haway : feedback.level ≠ .healthy) (h : feedback.Elevated r) :
    feedback.asks r ≠ some .healthy := by
  intro hasks
  obtain ⟨-, p, hp, hwarn⟩ := h
  obtain ⟨-, p95, hp95, hdesired⟩ := asks_eq_some_iff.mp hasks
  obtain rfl : p = p95 := Option.mem_unique hp hp95
  have habove : ¬ p ≤ feedback.effectiveRecoveryMs := by linarith
  cases hcase : feedback.level with
  | healthy => exact haway hcase
  | warn =>
      simp only [desiredLevel, hcase, if_neg habove] at hdesired
      split at hdesired <;> cases hdesired
  | critical =>
      simp only [desiredLevel, hcase, if_neg habove, if_pos hwarn] at hdesired
      split at hdesired <;> cases hdesired

/-- In the gate's terms a held band is a held request. -/
theorem held_iff_bandHeld {feedback : InteractiveFeedbackController}
    {g : Gate InteractiveLevel Rat} {readings : List Reading}
    (hasks : ∀ r ∈ readings,
      feedback.debouncer.asks .healthy r = some (feedback.band r)) :
    Debouncer.Held feedback.debouncer .healthy g.pending readings ↔
      (feedback.showing g).BandHeld readings := by
  have hwanted : ∀ (wanted : InteractiveLevel) (part : List Reading), part ⊆ readings →
      ((∀ r ∈ part, feedback.debouncer.asks .healthy r = some wanted) ↔
        ∀ r ∈ part, (feedback.showing g).band r = wanted) := by
    intro wanted part hpart
    refine forall₂_congr fun r hr => ?_
    rw [hasks r (hpart hr), Option.some_inj]
    rfl
  constructor
  · intro hheld
    cases hheld with
    | afresh wanted earlier mid later first last hsplit hall hlong =>
        refine .afresh wanted earlier mid later first last hsplit ?_ hlong
        refine (hwanted wanted _ ?_).mp hall
        grind
    | standing wanted since mid later last hpending hsplit hall hlong =>
        refine .standing wanted since mid later last (by simp [showing, hpending])
          (by simp [showing, hpending]) hsplit ?_ hlong
        refine (hwanted wanted _ ?_).mp hall
        grind
  · intro hheld
    cases hheld with
    | afresh wanted earlier mid later first last hsplit hall hlong =>
        refine .afresh wanted earlier mid later first last hsplit ?_ hlong
        refine (hwanted wanted _ ?_).mpr hall
        grind
    | standing wanted since mid later last hcandidate hsince hsplit hall hlong =>
        obtain ⟨request, hrequest, hfst⟩ := Option.map_eq_some_iff.mp hcandidate
        have hsnd : request.2 = since := by
          simpa [showing, hrequest] using hsince
        have hpending : g.pending = some (wanted, since) := by
          rw [hrequest, ← hfst, ← hsnd]
        refine .standing wanted since mid later last hpending hsplit ?_ hlong
        refine (hwanted wanted _ ?_).mpr hall
        grind

/-- The gate asks for the band as well. -/
theorem elevated_band {feedback : InteractiveFeedbackController} {r : Reading}
    (h : feedback.Elevated r) :
    feedback.debouncer.asks .healthy r = some (feedback.band r) :=
  @asks_of_elevated { feedback with level := .healthy } r rfl h

/-- A controller with these thresholds is enabled. -/
theorem enabled_of_thresholds {feedback : InteractiveFeedbackController}
    (hrecovery : 0 < feedback.recoveryMs) (hwarn : feedback.recoveryMs < feedback.warnMs)
    (hcritical : feedback.warnMs < feedback.criticalMs) : feedback.enabled = true := by
  simp [enabled, hrecovery.trans hwarn, (hrecovery.trans hwarn).trans hcritical]

/-- Elevated readings make a rested gate leave HEALTHY exactly if a request is
held. -/
theorem leaves_healthy_iff_held {feedback : InteractiveFeedbackController}
    (hrecovery : 0 < feedback.recoveryMs) (hwarn : feedback.recoveryMs < feedback.warnMs)
    {before readings : List Reading}
    (hordered : (before ++ readings).Pairwise (fun a b => a.now ≤ b.now))
    (hlevel : (feedback.debouncer.run feedback.gate before).level = .healthy)
    (hrested : ∀ first ∈ readings.head?,
      feedback.debouncer.Rested (feedback.debouncer.run feedback.gate before) first.now)
    (helevated : ∀ r ∈ readings, feedback.Elevated r) :
    (feedback.debouncer.run feedback.gate (before ++ readings)).level ≠ .healthy ↔
      Debouncer.Held feedback.debouncer .healthy
        (feedback.debouncer.run feedback.gate before).pending readings := by
  have heffective : feedback.effectiveRecoveryMs < feedback.warnMs := by
    simpa [effectiveRecoveryMs, hrecovery] using hwarn
  rw [Debouncer.run_append]
  apply Debouncer.run_leaves_iff hlevel
  · intro r hr
    refine ⟨feedback.band r, ?_, elevated_band (helevated r hr)⟩
    unfold band
    split <;> simp
  · intro r hr level haway
    exact not_asks_healthy_of_elevated heffective haway (helevated r hr)
  · intro r hr
    cases readings with
    | nil => cases hr
    | cons first rest =>
        have hfirst := hrested first rfl
        rcases List.mem_cons.mp hr with rfl | hrest
        · exact hfirst
        · have htail := (List.pairwise_append.mp hordered).2.1
          exact hfirst.mono ((List.pairwise_cons.mp htail).1 r hrest)
  · exact Debouncer.pending_le rfl hordered
  · exact (List.pairwise_append.mp hordered).2.1

/-- **Sustained latency.**  After any run that left the controller HEALTHY and
rested, elevated readings move it out of HEALTHY exactly when one band is held
over a sustain span. -/
theorem run_notices_iff {feedback : InteractiveFeedbackController} (hfresh : feedback.Fresh)
    (hrecovery : 0 < feedback.recoveryMs) (hwarn : feedback.recoveryMs < feedback.warnMs)
    (hcritical : feedback.warnMs < feedback.criticalMs) {before readings : List Reading}
    (hordered : (before ++ readings).Pairwise (fun a b => a.now ≤ b.now))
    (hlevel : (feedback.run before).level = .healthy)
    (hrested : ∀ first ∈ readings.head?, within first.now
      (feedback.run before).lastChangeAt feedback.cooldownSeconds = false)
    (helevated : ∀ r ∈ readings, feedback.Elevated r) :
    (feedback.run (before ++ readings)).level ≠ .healthy ↔
      (feedback.run before).BandHeld readings := by
  have henabled := enabled_of_thresholds hrecovery hwarn hcritical
  rw [run_level henabled hfresh] at hlevel
  rw [run_eq_showing henabled hfresh] at hrested
  rw [run_level henabled hfresh, run_eq_showing henabled hfresh before,
    ← held_iff_bandHeld (fun r hr => elevated_band (helevated r hr))]
  apply leaves_healthy_iff_held hrecovery hwarn hordered hlevel _ helevated
  intro first hfirst
  exact rested_iff.mpr (hrested first hfirst)

/-- A spike into the upper band restarts the span. -/
theorem run_notices_iff_after_spike :
    (oneSecondFeedback.run ([⟨some 400, 10, 0⟩] ++
        [⟨some 950, 10, 1 / 2⟩, ⟨some 350, 10, 1⟩, ⟨some 450, 10, 2⟩])).level ≠ .healthy ↔
      (oneSecondFeedback.run [⟨some 400, 10, 0⟩]).BandHeld
        [⟨some 950, 10, 1 / 2⟩, ⟨some 350, 10, 1⟩, ⟨some 450, 10, 2⟩] :=
  run_notices_iff oneSecondFeedback_fresh (by decide +kernel) (by decide +kernel)
    (by decide +kernel) (by decide +kernel) (by decide +kernel) (by decide +kernel)
    (by decide +kernel)

/-- Two seconds of readings at or above the warn threshold, alternating
between the bands, leave the controller HEALTHY. -/
theorem alternating_bands_unnoticed :
    oneSecondFeedback.Fresh ∧
    (0 < oneSecondFeedback.recoveryMs ∧
      oneSecondFeedback.recoveryMs < oneSecondFeedback.warnMs ∧
      oneSecondFeedback.warnMs < oneSecondFeedback.criticalMs) ∧
    (∀ r ∈ [⟨some 400, 10, 0⟩, ⟨some 1000, 10, 1 / 2⟩, ⟨some 400, 10, 1⟩,
        ⟨some 1000, 10, 3 / 2⟩, ⟨some 400, 10, 2⟩], oneSecondFeedback.Elevated r) ∧
    oneSecondFeedback.level = .healthy ∧
    (0 : Rat) + oneSecondFeedback.sustainSeconds ≤ 2 ∧
    (oneSecondFeedback.run [⟨some 400, 10, 0⟩, ⟨some 1000, 10, 1 / 2⟩, ⟨some 400, 10, 1⟩,
      ⟨some 1000, 10, 3 / 2⟩, ⟨some 400, 10, 2⟩]).level = .healthy := by
  refine ⟨oneSecondFeedback_fresh, by decide +kernel, ?_, rfl, by decide +kernel,
    by decide +kernel⟩
  decide +kernel

/-- In particular latency that stays in one band is noticed by the second
reading a sustain span away. -/
theorem run_notices_one_band {feedback : InteractiveFeedbackController}
    (hfresh : feedback.Fresh) (hrecovery : 0 < feedback.recoveryMs)
    (hwarn : feedback.recoveryMs < feedback.warnMs)
    (hcritical : feedback.warnMs < feedback.criticalMs) {first last : Reading}
    {mid : List Reading}
    (hordered : (first :: (mid ++ [last])).Pairwise (fun a b => a.now ≤ b.now))
    (hlevel : feedback.level = .healthy)
    (helevated : ∀ r ∈ first :: (mid ++ [last]), feedback.Elevated r)
    (hband : ∀ r ∈ mid ++ [last], feedback.band r = feedback.band first)
    (hlong : feedback.sustainSeconds ≤ last.now - first.now) :
    (feedback.run (first :: (mid ++ [last]))).level ≠ .healthy := by
  have hheld : Debouncer.Held feedback.debouncer .healthy feedback.gate.pending
      (first :: (mid ++ [last])) := by
    refine .afresh (feedback.band first) [] mid [] first last rfl ?_ hlong
    intro r hr
    rw [elevated_band (helevated r hr)]
    rcases List.mem_cons.mp hr with rfl | hlater
    · rfl
    · rw [hband r hlater]
  rw [run_level (enabled_of_thresholds hrecovery hwarn hcritical) hfresh]
  apply (@leaves_healthy_iff_held feedback hrecovery hwarn [] _ hordered hlevel _ helevated).mpr
  · exact hheld
  · intro r _ t ht
    cases ht

end InteractiveFeedbackController

end ChallengeForge
