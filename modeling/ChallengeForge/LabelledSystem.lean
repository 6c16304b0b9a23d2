import Mathlib.Logic.Relation
import Mathlib.Order.Defs.PartialOrder

/-!
# Labelled systems, their runs, and the conditions a run may meet

A labelled system reacts to an action by moving to one state or by refusing
it.  Everything nondeterministic about a component (which process moves, what
the clock says, whether a call fails) is carried by the action, so that one
step function serves replay, search and proof.

A *condition* `ok s a` speaks about the state a step is taken from and the
action taken.  `Path ok` and `Reach ok` are the runs in which every step met
the condition; `always` is the condition that asks for nothing.

* `Path.preserves`, `Reach.invariant` — what every step preserves, every run
  preserves;
* `Path.mono`, `Reach.path_mono` — a measure no step lowers never falls;
* `Reach.simulate`, `Reach.of_step_eq` — reachability transfers along a simulation, and
  to a system that answers alike;
* `path_of_run`, `reach_of_run` — a replayed list of actions is a run.
-/

namespace Labelled

universe u v w x

/-- A labelled system: where runs start, and how a state answers an action. -/
structure System (State : Type u) (Action : Type v) where
  start : State → Prop
  step : State → Action → Option State

/-- A condition on a step, read in the state before it. -/
abbrev Condition (State : Type u) (Action : Type v) := State → Action → Prop

/-- The condition that every step meets. -/
def always {State : Type u} {Action : Type v} : Condition State Action := fun _ _ => True

instance {State : Type u} {Action : Type v} (s : State) (a : Action) :
    Decidable (always s a) := inferInstanceAs (Decidable True)

variable {State : Type u} {Action : Type v}

namespace System

variable (M : System State Action) (ok : Condition State Action)

/-- One step meeting `ok`. -/
def Moves (s t : State) : Prop := ∃ a, ok s a ∧ M.step s a = some t

/-- The runs whose steps all meet `ok`, as a relation between their ends. -/
def Path : State → State → Prop := Relation.ReflTransGen (M.Moves ok)

/-- The states reached from a start by a run whose steps all meet `ok`. -/
def Reach (t : State) : Prop := ∃ s, M.start s ∧ M.Path ok s t

/-- Replay a list of actions, refusing a step that does not meet `ok`. -/
def run [∀ s a, Decidable (ok s a)] (s : State) (acts : List Action) : Option State :=
  acts.foldlM (fun s a => if ok s a then M.step s a else none) s

variable {M ok}

/-- A path of no step. -/
theorem Path.refl (s : State) : M.Path ok s s := Relation.ReflTransGen.refl

/-- A path, and one step more. -/
theorem Path.snoc {s t u : State} {a : Action} (h : M.Path ok s t)
    (hok : ok t a) (hstep : M.step t a = some u) : M.Path ok s u :=
  Relation.ReflTransGen.tail h ⟨a, hok, hstep⟩

/-- Two paths that meet. -/
theorem Path.trans {s t u : State} (h : M.Path ok s t) (h' : M.Path ok t u) :
    M.Path ok s u :=
  Relation.ReflTransGen.trans h h'

/-- A path of one step. -/
theorem Path.single {s t : State} {a : Action} (hok : ok s a)
    (hstep : M.step s a = some t) : M.Path ok s t :=
  (Path.refl s).snoc hok hstep

/-- A run under a condition is a run under every weaker one. -/
theorem Path.imp {ok' : Condition State Action} (himp : ∀ s a, ok s a → ok' s a) {s t : State}
    (h : M.Path ok s t) : M.Path ok' s t := by
  induction h with
  | refl => exact Path.refl s
  | tail _ hmove ih =>
      obtain ⟨a, hok, hst⟩ := hmove
      exact ih.snoc (himp _ a hok) hst

/-- **Run rule.**  A property preserved by every step meeting the condition
is preserved by every run of such steps. -/
theorem Path.preserves {I : State → Prop}
    (hstep : ∀ s a t, I s → ok s a → M.step s a = some t → I t)
    {s t : State} (h : M.Path ok s t) (hs : I s) : I t := by
  induction h with
  | refl => exact hs
  | tail _ hmove ih =>
      obtain ⟨a, hok, hst⟩ := hmove
      exact hstep _ a _ ih hok hst

/-- A measure that no step lowers is not lowered by a run. -/
theorem Path.mono {α : Type w} [Preorder α] {f : State → α}
    (hstep : ∀ s a t, ok s a → M.step s a = some t → f s ≤ f t)
    {s t : State} (h : M.Path ok s t) : f s ≤ f t :=
  h.preserves (I := fun t => f s ≤ f t)
    (fun _ a _ hle hok hst => le_trans hle (hstep _ a _ hok hst)) le_rfl

/-- A start is reached. -/
theorem Reach.of_start {s : State} (h : M.start s) : M.Reach ok s :=
  ⟨s, h, Path.refl s⟩

/-- What a path leads to from a reached state is reached. -/
theorem Reach.path {s t : State} (h : M.Reach ok s) (hp : M.Path ok s t) :
    M.Reach ok t := by
  obtain ⟨s₀, hs₀, hp₀⟩ := h
  exact ⟨s₀, hs₀, hp₀.trans hp⟩

/-- A step from a reached state reaches the next. -/
theorem Reach.snoc {s t : State} {a : Action} (h : M.Reach ok s) (hok : ok s a)
    (hstep : M.step s a = some t) : M.Reach ok t :=
  h.path (Path.single hok hstep)

/-- Induction on a run, with the reachability of every state on the way. -/
theorem Reach.induct {P : State → Prop} (hstart : ∀ s, M.start s → P s)
    (hstep : ∀ s a t, M.Reach ok s → P s → ok s a → M.step s a = some t → P t)
    {t : State} (h : M.Reach ok t) : P t := by
  obtain ⟨s, hs, hp⟩ := h
  have hboth : M.Reach ok t ∧ P t :=
    hp.preserves (I := fun t => M.Reach ok t ∧ P t)
      (fun s a t hI hok hst => ⟨hI.1.snoc hok hst, hstep s a t hI.1 hI.2 hok hst⟩)
      ⟨Reach.of_start hs, hstart s hs⟩
  exact hboth.2

/-- **Invariant rule.**  What holds at every start and is preserved by every
step meeting the condition holds in every state reached. -/
theorem Reach.invariant {I : State → Prop} (hstart : ∀ s, M.start s → I s)
    (hstep : ∀ s a t, I s → ok s a → M.step s a = some t → I t)
    {t : State} (h : M.Reach ok t) : I t :=
  h.induct hstart (fun s a t _ hI hok hst => hstep s a t hI hok hst)

/-- A measure that no step from a reached state lowers never falls between
two states of a run. -/
theorem Reach.path_mono {α : Type w} [Preorder α] {f : State → α}
    (hstep : ∀ s a t, M.Reach ok s → ok s a → M.step s a = some t → f s ≤ f t)
    {s t : State} (hs : M.Reach ok s) (h : M.Path ok s t) : f s ≤ f t := by
  have hboth : M.Reach ok t ∧ f s ≤ f t :=
    h.preserves (I := fun t => M.Reach ok t ∧ f s ≤ f t)
      (fun u a t hI hok hst =>
        ⟨hI.1.snoc hok hst, le_trans hI.2 (hstep u a t hI.1 hok hst)⟩)
      ⟨hs, le_rfl⟩
  exact hboth.2

/-- **Simulation.**  If `f` sends starts to starts and every step from a
reached state to a (possibly empty) run of the other system, then it sends
reached states to reached states. -/
theorem Reach.simulate {State' : Type w} {Action' : Type x}
    {N : System State' Action'} {ok' : Condition State' Action'} {f : State → State'}
    (hstart : ∀ s, M.start s → N.start (f s))
    (hstep : ∀ s a t, M.Reach ok s → ok s a → M.step s a = some t →
      N.Path ok' (f s) (f t))
    {t : State} (h : M.Reach ok t) : N.Reach ok' (f t) :=
  h.induct (fun s hs => Reach.of_start (hstart s hs))
    (fun s a t hr hP hok hst => hP.path (hstep s a t hr hok hst))

/-- A system that answers the actions of the condition in the same way reaches the same
states. -/
theorem Reach.of_step_eq {N : System State Action} {t : State} (h : M.Reach ok t)
    (hstart : ∀ s, M.start s → N.start s)
    (hstep : ∀ s a, ok s a → M.step s a = N.step s a) : N.Reach ok t :=
  h.simulate (f := id) hstart
    (fun s a _ _ hok hst => Path.single hok ((hstep s a hok).symm.trans hst))

/-- A run under a condition is a run. -/
theorem Reach.unconditional {t : State} (h : M.Reach ok t) : M.Reach always t :=
  h.simulate (f := id) (fun _ hs => hs) (fun _ _ _ _ _ hst => Path.single trivial hst)

section Replay

variable [∀ s a, Decidable (ok s a)]

/-- A run is a path. -/
theorem path_of_run {s t : State} {acts : List Action}
    (h : M.run ok s acts = some t) : M.Path ok s t := by
  induction acts generalizing s with
  | nil =>
      obtain rfl : s = t := by simpa [run] using h
      exact Path.refl s
  | cons a rest ih =>
      simp only [run, List.foldlM_cons, Option.bind_eq_bind, Option.bind_eq_some_iff] at h
      obtain ⟨u, hu, hrest⟩ := h
      by_cases hok : ok s a
      · exact (Path.single hok (by simpa [hok] using hu)).trans (ih hrest)
      · simp [hok] at hu

/-- The end of a successful replay from a start is reached. -/
theorem reach_of_run {s t : State} {acts : List Action} (hs : M.start s)
    (h : M.run ok s acts = some t) : M.Reach ok t :=
  ⟨s, hs, path_of_run h⟩

/-- A replay that ends in a state passing a test reaches such a state. -/
theorem reach_of_test (s : State) (acts : List Action) (p : State → Bool)
    (hs : M.start s) (h : (M.run ok s acts).any p = true) :
    ∃ t, M.Reach ok t ∧ p t = true := by
  cases hrun : M.run ok s acts with
  | none => simp [hrun] at h
  | some t => exact ⟨t, reach_of_run hs hrun, by simpa [hrun] using h⟩

end Replay

end System

end Labelled
