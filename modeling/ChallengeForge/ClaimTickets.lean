import ChallengeForge.LabelledSystem
import Mathlib.Logic.Function.Basic

/-!
# Claim tickets

The bookkeeping behind a queue whose jobs are claimed, worked on outside any
transaction, and claimed again when a holder is given up on.  Every claim of a
job issues the next ticket of that job.  A holder works under one ticket at a
time; the ticket may be *superseded* while it works, because the job can be
freed behind its back and taken by somebody else.

Three moves suffice:

* `take h j` — an idle holder takes a job nobody owns, under a fresh ticket;
* `drop h` — a holder stops working (it finished, or it died), whatever became
  of its job;
* `free js` — jobs stop being owned, whatever their holders are doing.

`Sound` is what holds in every reachable state.  Its two consequences are the
ones a queue is verified with: no two holders ever work under the same ticket
(`Sound.held_inj`), and a holder of an owned job works under the current
ticket exactly when it is the owner (`Sound.current_iff_owner`).
-/

namespace Claims

universe u v

open Labelled

/-- Tickets issued so far, the owner of each job, and what each holder holds. -/
@[ext]
structure Tickets (Job : Type u) (Holder : Type v) where
  issued : Job → Nat
  owner : Job → Option Holder
  held : Holder → Option (Job × Nat)

/-- The moves of the ticket system. -/
inductive Move (Job : Type u) (Holder : Type v)
  | take (h : Holder) (j : Job)
  | drop (h : Holder)
  | free (js : Job → Bool)

variable {Job : Type u} {Holder : Type v}

namespace Tickets

/-- The jobs in `js` lose their owner. -/
def free (t : Tickets Job Holder) (js : Job → Bool) : Tickets Job Holder :=
  { t with owner := fun j => if js j then none else t.owner j }

/-- Nothing is owned and nothing is held; tickets may already have been issued. -/
def Fresh (t : Tickets Job Holder) : Prop :=
  (∀ j, t.owner j = none) ∧ ∀ h, t.held h = none

/-- What every reachable state of the ticket system satisfies. -/
structure Sound (t : Tickets Job Holder) : Prop where
  /-- A held ticket has been issued. -/
  held_le : ∀ {h j n}, t.held h = some (j, n) → n ≤ t.issued j
  /-- A ticket has one holder. -/
  held_inj : ∀ {h h' j n}, t.held h = some (j, n) → t.held h' = some (j, n) → h = h'
  /-- An owner that still works on its job works under the current ticket. -/
  owner_current : ∀ {h j n}, t.owner j = some h → t.held h = some (j, n) →
    n = t.issued j
  /-- The holder of the current ticket is the owner, unless the job was freed. -/
  current_owner : ∀ {h j}, t.held h = some (j, t.issued j) →
    t.owner j = some h ∨ t.owner j = none

theorem Fresh.sound {t : Tickets Job Holder} (h : t.Fresh) : t.Sound where
  held_le hheld := by simp [h.2] at hheld
  held_inj hheld := by simp [h.2] at hheld
  owner_current howner := by simp [h.1] at howner
  current_owner hheld := by simp [h.2] at hheld

theorem Sound.free {t : Tickets Job Holder} (hs : t.Sound) (js : Job → Bool) :
    (t.free js).Sound where
  held_le hheld := hs.held_le hheld
  held_inj h₁held h₂held := hs.held_inj h₁held h₂held
  owner_current {h j n} howner hheld := by
    by_cases hj : js j = true
    · simp [Tickets.free, hj] at howner
    · exact hs.owner_current (by simpa [Tickets.free, hj] using howner) hheld
  current_owner {h j} hheld := by
    by_cases hj : js j = true
    · exact Or.inr (by simp [Tickets.free, hj])
    · simpa [Tickets.free, hj] using hs.current_owner hheld

/-- A holder of an owned job works under its current ticket exactly when it is
the owner. -/
theorem Sound.current_iff_owner {t : Tickets Job Holder} (hs : t.Sound)
    {h h' : Holder} {j : Job} {n : Nat} (howned : t.owner j = some h')
    (hheld : t.held h = some (j, n)) : n = t.issued j ↔ h' = h := by
  constructor
  · intro hn
    subst hn
    rcases hs.current_owner hheld with hown | hown
    · exact Option.some.inj (howned.symm.trans hown)
    · simp [howned] at hown
  · intro hh
    subst hh
    exact hs.owner_current howned hheld

section Moves

variable [DecidableEq Holder]

/-- Holder `h` stops working. -/
def drop (t : Tickets Job Holder) (h : Holder) : Tickets Job Holder :=
  { t with held := Function.update t.held h none }

theorem Sound.drop {t : Tickets Job Holder} (hs : t.Sound) (h : Holder) :
    (t.drop h).Sound where
  held_le {h' j n} hheld := by
    have hle := @hs.held_le h' j n
    simp only [Tickets.drop, Function.update_apply] at hheld ⊢
    grind
  held_inj {h₁ h₂ j n} h₁held h₂held := by
    have hinj := @hs.held_inj h₁ h₂ j n
    simp only [Tickets.drop, Function.update_apply] at h₁held h₂held
    grind
  owner_current {h' j n} howner hheld := by
    have hcur := @hs.owner_current h' j n
    simp only [Tickets.drop, Function.update_apply] at howner hheld ⊢
    grind
  current_owner {h' j} hheld := by
    have hcur := @hs.current_owner h' j
    simp only [Tickets.drop, Function.update_apply] at hheld ⊢
    grind

variable [DecidableEq Job]

/-- Holder `h` takes job `j` under the job's next ticket. -/
def take (t : Tickets Job Holder) (h : Holder) (j : Job) : Tickets Job Holder where
  issued := Function.update t.issued j (t.issued j + 1)
  owner := Function.update t.owner j (some h)
  held := Function.update t.held h (some (j, t.issued j + 1))

/-- The fresh ticket is above every ticket out, so nobody else holds it. -/
theorem Sound.take {t : Tickets Job Holder} (hs : t.Sound) (h : Holder) (j : Job) :
    (t.take h j).Sound where
  held_le {h' j' n} hheld := by
    have hle := @hs.held_le h' j' n
    simp only [Tickets.take, Function.update_apply] at hheld ⊢
    grind
  held_inj {h₁ h₂ j' n} h₁held h₂held := by
    have hle₁ := @hs.held_le h₁ j' n
    have hle₂ := @hs.held_le h₂ j' n
    have hinj := @hs.held_inj h₁ h₂ j' n
    simp only [Tickets.take, Function.update_apply] at h₁held h₂held
    grind
  owner_current {h' j' n} howner hheld := by
    have hcur := @hs.owner_current h' j' n
    simp only [Tickets.take, Function.update_apply] at howner hheld ⊢
    grind
  current_owner {h' j'} hheld := by
    have hle := @hs.held_le h' j'
    have hcur := @hs.current_owner h' j'
    simp only [Tickets.take, Function.update_apply] at hheld ⊢
    grind

/-- The step function of the ticket system. -/
def step (t : Tickets Job Holder) : Move Job Holder → Option (Tickets Job Holder)
  | .take h j => if t.held h = none ∧ t.owner j = none then some (t.take h j) else none
  | .drop h => some (t.drop h)
  | .free js => some (t.free js)

/-- The ticket system. -/
def system (Job : Type u) (Holder : Type v) [DecidableEq Job] [DecidableEq Holder] :
    System (Tickets Job Holder) (Move Job Holder) where
  start := Fresh
  step := step

/-- **The ticket invariant.**  Every reachable state of the ticket system is
sound. -/
theorem sound_of_reach {t : Tickets Job Holder}
    (h : (system Job Holder).Reach always t) : t.Sound := by
  refine h.invariant (fun s hfresh => Fresh.sound (t := s) hfresh) ?_
  intro s move t hs _ hstep
  cases move with
  | take h j =>
      simp only [system, step] at hstep
      split at hstep
      · cases hstep
        exact hs.take h j
      · cases hstep
  | drop h =>
      cases hstep
      exact hs.drop h
  | free js =>
      cases hstep
      exact hs.free js

end Moves

end Tickets

end Claims
