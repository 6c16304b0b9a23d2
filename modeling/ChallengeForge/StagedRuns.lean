import Mathlib.Data.List.Basic

/-!
# Computations in stages

A computation runs numbered stages one after the other.  After each stage a
verdict stops it, lets it go on, or pauses it; a paused computation is taken up
later at the next stage, possibly under another verdict.

`Stretch` relates the stage a stretch starts at to what its stages gave and to
how it ended.

* `Stretch.unique` — a stretch is determined by where it starts;
* `Stretch.resume` — a paused stretch and the one that takes it up are one
  stretch of the verdict that never pauses;
* `Stretch.unpaused` — so is a stretch that does not end in a pause.
-/

namespace Staged

universe u v w

/-- What is decided after a stage. -/
inductive Verdict (ρ : Type w)
  | stop (reason : ρ)
  | go
  | pause (reason : ρ)

/-- The verdict that goes on instead of pausing. -/
def Verdict.unpaused {ρ : Type w} : Verdict ρ → Verdict ρ
  | .stop reason => .stop reason
  | .go => .go
  | .pause _ => .go

theorem Verdict.unpaused_eq_go {ρ : Type w} {verdict : Verdict ρ} :
    verdict.unpaused = .go ↔ ∀ reason, verdict ≠ .stop reason := by
  cases verdict <;> simp [unpaused]

@[simp] theorem Verdict.unpaused_eq_stop {ρ : Type w} {verdict : Verdict ρ} {reason : ρ} :
    verdict.unpaused = .stop reason ↔ verdict = .stop reason := by
  cases verdict <;> simp [unpaused]

/-- How a stretch ends: by a verdict, past the last stage, or in a stage that
fails. -/
inductive Ending (ε : Type u) (ρ : Type w)
  | stopped (reason : ρ)
  | paused (reason : ρ)
  | exhausted
  | failed (error : ε)

variable {ε : Type u} {ω : Type v} {ρ : Type w}

/-- The stages from `i` on, what they give, and how it ends.  `stage i` is
`none` where there is no stage. -/
inductive Stretch (stage : Nat → Option (Except ε ω)) (verdict : Nat → ω → Verdict ρ) :
    Nat → List ω → Ending ε ρ → Prop
  | exhausted {i} (hstage : stage i = none) : Stretch stage verdict i [] .exhausted
  | failed {i e} (hstage : stage i = some (.error e)) : Stretch stage verdict i [] (.failed e)
  | stopped {i o reason} (hstage : stage i = some (.ok o))
      (hverdict : verdict i o = .stop reason) : Stretch stage verdict i [o] (.stopped reason)
  | paused {i o reason} (hstage : stage i = some (.ok o))
      (hverdict : verdict i o = .pause reason) : Stretch stage verdict i [o] (.paused reason)
  | next {i o os ending} (hstage : stage i = some (.ok o)) (hverdict : verdict i o = .go)
      (hrest : Stretch stage verdict (i + 1) os ending) :
      Stretch stage verdict i (o :: os) ending

namespace Stretch

variable {stage : Nat → Option (Except ε ω)} {verdict verdict' : Nat → ω → Verdict ρ}
  {i : Nat} {os os' : List ω} {ending ending' : Ending ε ρ}

/-- Where a stretch starts determines the rest. -/
theorem unique (h : Stretch stage verdict i os ending)
    (h' : Stretch stage verdict i os' ending') : os = os' ∧ ending = ending' := by
  induction h generalizing os' ending' with
  | exhausted hstage =>
      cases h' <;> simp_all
  | failed hstage =>
      cases h' <;> simp_all
  | stopped hstage hverdict =>
      cases h' <;> simp_all
  | paused hstage hverdict =>
      cases h' <;> simp_all
  | next hstage hverdict hrest ih =>
      cases h' with
      | next hstage' hverdict' hrest' =>
          have ho := hstage.symm.trans hstage'
          simp only [Option.some.injEq, Except.ok.injEq] at ho
          obtain ⟨hos, hending⟩ := ih hrest'
          exact ⟨by rw [ho, hos], hending⟩
      | exhausted hstage' => simp_all
      | failed hstage' => simp_all
      | stopped hstage' hverdict' => simp_all
      | paused hstage' hverdict' => simp_all

/-- The outputs are those of the stages from `i` on, in order. -/
theorem stage_getElem (h : Stretch stage verdict i os ending) :
    ∀ k (hk : k < os.length), stage (i + k) = some (.ok os[k]) := by
  induction h with
  | exhausted hstage =>
      intro k hk
      exact absurd hk (Nat.not_lt_zero k)
  | failed hstage =>
      intro k hk
      exact absurd hk (Nat.not_lt_zero k)
  | stopped hstage hverdict =>
      intro k hk
      obtain rfl : k = 0 := by simpa using hk
      simpa using hstage
  | paused hstage hverdict =>
      intro k hk
      obtain rfl : k = 0 := by simpa using hk
      simpa using hstage
  | @next i o os ending hstage hverdict hrest ih =>
      intro k hk
      cases k with
      | zero => simpa using hstage
      | succ k =>
          have hlast := ih k (by simpa using hk)
          rw [show i + (k + 1) = i + 1 + k by omega]
          simpa using hlast

/-- Every stage but the last went on. -/
theorem verdict_go (h : Stretch stage verdict i os ending) :
    ∀ k (hk : k + 1 < os.length), verdict (i + k) os[k] = .go := by
  induction h with
  | exhausted hstage =>
      intro k hk
      exact absurd hk (Nat.not_lt_zero _)
  | failed hstage =>
      intro k hk
      exact absurd hk (Nat.not_lt_zero _)
  | stopped hstage hverdict =>
      intro k hk
      simp at hk
  | paused hstage hverdict =>
      intro k hk
      simp at hk
  | @next i o os ending hstage hverdict hrest ih =>
      intro k hk
      cases k with
      | zero => simpa using hverdict
      | succ k =>
          have hlater := ih k (by simpa using hk)
          rw [show i + (k + 1) = i + 1 + k by omega]
          simpa using hlater

/-- A stretch past the last stage went on after every stage. -/
theorem last_go (h : Stretch stage verdict i os ending) (hending : ending = .exhausted) :
    ∀ k (hk : k < os.length), verdict (i + k) os[k] = .go := by
  induction h with
  | exhausted hstage =>
      intro k hk
      exact absurd hk (Nat.not_lt_zero _)
  | failed hstage => cases hending
  | stopped hstage hverdict => cases hending
  | paused hstage hverdict => cases hending
  | @next i o os ending hstage hverdict hrest ih =>
      intro k hk
      cases k with
      | zero => simpa using hverdict
      | succ k =>
          have hlater := ih hending k (by simpa using hk)
          rw [show i + (k + 1) = i + 1 + k by omega]
          simpa using hlater

/-- What an ending says about the stage it came at. -/
def EndsAt (stage : Nat → Option (Except ε ω)) (verdict : Nat → ω → Verdict ρ) (i : Nat)
    (os : List ω) : Ending ε ρ → Prop
  | .stopped reason => ∃ k o, os.length = k + 1 ∧ stage (i + k) = some (.ok o) ∧
      verdict (i + k) o = .stop reason
  | .paused reason => ∃ k o, os.length = k + 1 ∧ stage (i + k) = some (.ok o) ∧
      verdict (i + k) o = .pause reason
  | .exhausted => stage (i + os.length) = none
  | .failed e => stage (i + os.length) = some (.error e)

/-- A stretch ends with the verdict on its last stage, past the last stage there
is, or in a stage that fails. -/
theorem endsAt (h : Stretch stage verdict i os ending) : EndsAt stage verdict i os ending := by
  induction h with
  | exhausted hstage => exact hstage
  | failed hstage => exact hstage
  | stopped hstage hverdict => exact ⟨0, _, rfl, hstage, hverdict⟩
  | paused hstage hverdict => exact ⟨0, _, rfl, hstage, hverdict⟩
  | @next i o os ending hstage hverdict hrest ih =>
      have hshift : ∀ k, i + (k + 1) = i + 1 + k := by omega
      cases ending with
      | stopped reason =>
          obtain ⟨k, last, hlength, hlast, hstop⟩ := ih
          refine ⟨k + 1, last, by simp [hlength], ?_, ?_⟩
          · rw [hshift]
            exact hlast
          · rw [hshift]
            exact hstop
      | paused reason =>
          obtain ⟨k, last, hlength, hlast, hpause⟩ := ih
          refine ⟨k + 1, last, by simp [hlength], ?_, ?_⟩
          · rw [hshift]
            exact hlast
          · rw [hshift]
            exact hpause
      | exhausted =>
          have hlength : i + (o :: os).length = i + 1 + os.length := hshift os.length
          simp only [EndsAt, hlength]
          exact ih
      | failed e =>
          have hlength : i + (o :: os).length = i + 1 + os.length := hshift os.length
          simp only [EndsAt, hlength]
          exact ih

/-- **Without pauses.**  A stretch that does not end in a pause is one of any
verdict that goes on where this one does or pauses. -/
theorem unpaused (h : Stretch stage verdict i os ending)
    (hverdict : ∀ j o, verdict' j o = (verdict j o).unpaused)
    (hending : ∀ reason, ending ≠ .paused reason) : Stretch stage verdict' i os ending := by
  induction h with
  | exhausted hstage => exact .exhausted hstage
  | failed hstage => exact .failed hstage
  | stopped hstage hstop =>
      refine .stopped hstage ?_
      rw [hverdict, hstop]
      rfl
  | paused hstage hpause => exact absurd rfl (hending _)
  | next hstage hgo hrest ih =>
      refine .next hstage ?_ (ih hending)
      rw [hverdict, hgo]
      rfl

/-- **Resumption.**  A paused stretch, taken up at the next stage, is one
stretch without the pause. -/
theorem resume {reason : ρ} (h : Stretch stage verdict i os (.paused reason))
    (hverdict : ∀ j o, verdict' j o = (verdict j o).unpaused)
    (h' : Stretch stage verdict' (i + os.length) os' ending') :
    Stretch stage verdict' i (os ++ os') ending' := by
  generalize hending : Ending.paused reason = ending at h
  induction h with
  | exhausted hstage => cases hending
  | failed hstage => cases hending
  | stopped hstage hstop => cases hending
  | paused hstage hpause =>
      refine .next hstage ?_ (by simpa using h')
      rw [hverdict, hpause]
      rfl
  | @next i o os ending hstage hgo hrest ih =>
      have hlength : i + (o :: os).length = i + 1 + os.length := by
        rw [List.length_cons]
        omega
      rw [hlength] at h'
      refine .next hstage ?_ (ih h' hending)
      rw [hverdict, hgo]
      rfl

end Stretch

end Staged
