import ChallengeForge.LabelledSystem
import Mathlib.Logic.Function.Basic

/-!
# Request coalescing

`InProcessCoalescer`: one computation in flight per key, whose callers share a
future.  A call of `do` runs on one event loop from one `await` to the next; a
future has the name of the call that creates it.

`except Exception` does not catch every exception: a `CancelledError` passes it, as
any other `BaseException` that is no `Exception` does.  One that leaves a computation
releases the key and leaves the future as it is.

* `run_answered_iff` — as long as none leaves a computation while a caller waits on
  it, every caller is answered, and the first that does ends it;
* `stranded_forever` — the callers it leaves behind are never answered.
-/

namespace ChallengeForge

open Labelled

universe u v w x

/-- How a computation ends, and what a future is set to. -/
inductive ComputeOutcome (Result : Type w) (Error : Type x)
  | result (result : Result)
  | exception (error : Error)
  deriving DecidableEq

/-- Where a call of `do` stands.  An outcome that is `none` is what `except Exception`
lets pass: the cancellation of the task, or any other `BaseException` that is no
`Exception`. -/
inductive CallState (Key : Type u) (Call : Type v) (Result : Type w) (Error : Type x)
  | idle
  | computing (key : Key)
  | computed (key : Key) (outcome : Option (ComputeOutcome Result Error))
  | waiting (key : Key) (existing : Call)
  | received (key : Key) (existing : Call) (outcome : Option (ComputeOutcome Result Error))
  deriving DecidableEq

/-- The counters. -/
structure CoalescingStats where
  submissions : Nat := 0
  computations : Nat := 0
  joins : Nat := 0
  failures : Nat := 0

/-- The keys in flight, each with the call that computes. -/
structure InProcessCoalescer (Key : Type u) (Call : Type v) where
  inflight : Key → Option Call := fun _ => none
  stats : CoalescingStats := {}

/-- The coalescer, the futures it has created and the calls on it. -/
structure EventLoop (Key : Type u) (Call : Type v) (Result : Type w) (Error : Type x) extends
    InProcessCoalescer Key Call where
  futures : Call → Option (ComputeOutcome Result Error) := fun _ => none
  calls : Call → CallState Key Call Result Error := fun _ => .idle

/-- What the event loop does next. -/
inductive LoopAction (Key : Type u) (Call : Type v) (Result : Type w) (Error : Type x)
  | enter (call : Call) (key : Key)
  | finish (call : Call) (outcome : Option (ComputeOutcome Result Error))
  | resume (call : Call)
  | cancelWait (call : Call)

namespace EventLoop

variable {Key : Type u} {Call : Type v} {Result : Type w} {Error : Type x} [DecidableEq Key]
  [DecidableEq Call]

/-! ## The segments of `do` -/

/-- A call moves on. -/
def setCall (s : EventLoop Key Call Result Error) (call : Call)
    (state : CallState Key Call Result Error) : EventLoop Key Call Result Error :=
  { s with calls := Function.update s.calls call state }

/-- From the call of `do` to its first `await`. -/
def enter (s : EventLoop Key Call Result Error) (call : Call) (key : Key) :
    EventLoop Key Call Result Error :=
  let submissions := s.stats.submissions + 1
  match s.inflight key with
  | some existing =>
      { s with
        stats := { s.stats with
          submissions := submissions
          joins := s.stats.joins + 1 } }.setCall call (.waiting key existing)
  | none =>
      { s with
        futures := Function.update s.futures call none
        inflight := Function.update s.inflight key (some call)
        stats := { s.stats with
          submissions := submissions
          computations := s.stats.computations + 1 } }.setCall call (.computing key)

/-- The `except` and `else` branches. -/
def resolve (s : EventLoop Key Call Result Error) (call : Call) :
    Option (ComputeOutcome Result Error) → EventLoop Key Call Result Error
  | some (.exception error) =>
      { s with
        stats := { s.stats with failures := s.stats.failures + 1 }
        futures := Function.update s.futures call (some (.exception error)) }
  | some (.result result) =>
      { s with futures := Function.update s.futures call (some (.result result)) }
  -- `except Exception` lets a `CancelledError` pass
  | none => s

/-- From the end of the computation to the end of `do`; `finally` pops the key. -/
def finish (s : EventLoop Key Call Result Error) (call : Call) (key : Key)
    (outcome : Option (ComputeOutcome Result Error)) : EventLoop Key Call Result Error :=
  let s := s.resolve call outcome
  { s with inflight := Function.update s.inflight key none }.setCall call (.computed key outcome)

/-- One segment of a call; none where the call stands elsewhere. -/
def step (s : EventLoop Key Call Result Error) :
    LoopAction Key Call Result Error → Option (EventLoop Key Call Result Error)
  | .enter call key =>
      match s.calls call with
      | .idle => some (s.enter call key)
      | _ => none
  | .finish call outcome =>
      match s.calls call with
      | .computing key => some (s.finish call key outcome)
      | _ => none
  | .resume call =>
      match s.calls call with
      | .waiting key existing =>
          (s.futures existing).map (fun outcome =>
            s.setCall call (.received key existing (some outcome)))
      | _ => none
  -- `shield` keeps the cancellation of a caller from the future
  | .cancelWait call =>
      match s.calls call with
      | .waiting key existing => some (s.setCall call (.received key existing none))
      | _ => none

/-- Any calls, in any order, on a new coalescer. -/
def system : System (EventLoop Key Call Result Error) (LoopAction Key Call Result Error) where
  start s := s = {}
  step := step

/-- What a step does to the calls, the table and the futures. -/
inductive Turns (s : EventLoop Key Call Result Error) :
    LoopAction Key Call Result Error → EventLoop Key Call Result Error → Prop
  | join {call : Call} {key : Key} {existing : Call} {t : EventLoop Key Call Result Error}
      (idle : s.calls call = .idle) (found : s.inflight key = some existing)
      (calls : t.calls = Function.update s.calls call (.waiting key existing))
      (inflight : t.inflight = s.inflight) (futures : t.futures = s.futures) :
      Turns s (.enter call key) t
  | lead {call : Call} {key : Key} {t : EventLoop Key Call Result Error}
      (idle : s.calls call = .idle) (found : s.inflight key = none)
      (calls : t.calls = Function.update s.calls call (.computing key))
      (inflight : t.inflight = Function.update s.inflight key (some call))
      (futures : t.futures = Function.update s.futures call none) :
      Turns s (.enter call key) t
  | finish {call : Call} {key : Key} {outcome : Option (ComputeOutcome Result Error)}
      {t : EventLoop Key Call Result Error} (running : s.calls call = .computing key)
      (calls : t.calls = Function.update s.calls call (.computed key outcome))
      (inflight : t.inflight = Function.update s.inflight key none)
      (futures : t.futures = outcome.elim s.futures
        (fun set => Function.update s.futures call (some set))) :
      Turns s (.finish call outcome) t
  | resume {call : Call} {key : Key} {existing : Call} {outcome : ComputeOutcome Result Error}
      {t : EventLoop Key Call Result Error} (waits : s.calls call = .waiting key existing)
      (resolved : s.futures existing = some outcome)
      (calls : t.calls = Function.update s.calls call (.received key existing (some outcome)))
      (inflight : t.inflight = s.inflight) (futures : t.futures = s.futures) :
      Turns s (.resume call) t
  | cancelWait {call : Call} {key : Key} {existing : Call} {t : EventLoop Key Call Result Error}
      (waits : s.calls call = .waiting key existing)
      (calls : t.calls = Function.update s.calls call (.received key existing none))
      (inflight : t.inflight = s.inflight) (futures : t.futures = s.futures) :
      Turns s (.cancelWait call) t

variable {s t : EventLoop Key Call Result Error} {a : LoopAction Key Call Result Error}

/-- Every step is one of these turns. -/
theorem turns_of_step (h : s.step a = some t) : Turns s a t := by
  cases a with
  | enter call key =>
      simp only [step] at h
      split at h
      · rename_i hidle
        cases h
        cases hfound : s.inflight key with
        | some existing => apply Turns.join hidle hfound <;> simp [enter, hfound, setCall]
        | none => apply Turns.lead hidle hfound <;> simp [enter, hfound, setCall]
      · cases h
  | finish call outcome =>
      simp only [step] at h
      split at h
      · rename_i key hrunning
        cases h
        apply Turns.finish hrunning <;> rcases outcome with _ | _ | _ <;> rfl
      · cases h
  | resume call =>
      simp only [step] at h
      split at h
      · rename_i key existing hwaits
        obtain ⟨outcome, hresolved, rfl⟩ := Option.map_eq_some_iff.mp h
        exact Turns.resume hwaits hresolved rfl rfl rfl
      · cases h
  | cancelWait call =>
      simp only [step] at h
      split at h
      · rename_i key existing hwaits
        cases h
        exact Turns.cancelWait hwaits rfl rfl rfl
      · cases h

/-! ## What every run keeps -/

/-- Every run keeps the table, the futures and the calls in step. -/
structure Coalesced (s : EventLoop Key Call Result Error) : Prop where
  table : ∀ key call, s.inflight key = some call ↔ s.calls call = .computing key
  idle : ∀ call, s.calls call = .idle → s.futures call = none
  pending : ∀ call key, s.calls call = .computing key → s.futures call = none
  resolved : ∀ call key outcome, s.calls call = .computed key outcome →
    s.futures call = outcome
  waiting : ∀ call key existing, s.calls call = .waiting key existing →
    s.calls existing = .computing key ∨
      ∃ outcome, s.calls existing = .computed key outcome
  received : ∀ call key existing outcome,
    s.calls call = .received key existing (some outcome) →
      s.calls existing = .computed key (some outcome)

omit [DecidableEq Key] [DecidableEq Call] in
/-- Nothing is in flight at the start. -/
theorem Coalesced.start : Coalesced ({} : EventLoop Key Call Result Error) where
  table _ _ := by simp
  idle _ _ := rfl
  pending _ _ h := by cases h
  resolved _ _ _ h := by cases h
  waiting _ _ _ h := by cases h
  received _ _ _ _ h := by cases h

/-- A turn keeps the table and the calls in step. -/
theorem Coalesced.next (h : s.Coalesced) (hturn : Turns s a t) : t.Coalesced := by
  obtain ⟨htable, hidle, hpending, hresolved, hwaiting, hreceived⟩ := h
  cases hturn with
  | join idle found calls inflight futures =>
      constructor <;> simp only [calls, inflight, futures, Function.update_apply] <;> grind
  | lead idle found calls inflight futures =>
      constructor <;> simp only [calls, inflight, futures, Function.update_apply] <;> grind
  | @finish call key outcome _ running calls inflight futures =>
      have hheld : s.inflight key = some call := (htable key call).mpr running
      cases outcome with
      | none =>
          constructor <;>
            simp only [calls, inflight, futures, Option.elim_none, Function.update_apply] <;> grind
      | some outcome =>
          constructor <;>
            simp only [calls, inflight, futures, Option.elim_some, Function.update_apply] <;> grind
  | resume waits resolved calls inflight futures =>
      constructor <;> simp only [calls, inflight, futures, Function.update_apply] <;> grind
  | cancelWait waits calls inflight futures =>
      constructor <;> simp only [calls, inflight, futures, Function.update_apply] <;> grind

/-- They are in step in every state that is reached. -/
theorem Coalesced.of_reach {ok : Condition (EventLoop Key Call Result Error) _}
    (h : system.Reach ok s) : s.Coalesced := by
  refine h.invariant ?_ ?_
  · intro s hstart
    subst hstart
    exact Coalesced.start
  · intro s a t hs _ hstep
    exact hs.next (turns_of_step hstep)

/-! ## Callers left behind -/

/-- At most one computation of a key is running, every caller waits on a future
that is set or whose computation is running, and gets what it came to. -/
structure Answered (s : EventLoop Key Call Result Error) : Prop where
  once : ∀ call other key, s.calls call = .computing key → s.calls other = .computing key →
    call = other
  awaited : ∀ call key existing, s.calls call = .waiting key existing →
    s.futures existing ≠ none ∨ s.calls existing = .computing key
  ready : ∀ call key existing ended, s.calls call = .waiting key existing →
    s.calls existing = .computed key ended →
      ∃ outcome t, ended = some outcome ∧ s.step (.resume call) = some t ∧
        t.calls call = .received key existing (some outcome)
  received : ∀ call key existing outcome,
    s.calls call = .received key existing (some outcome) →
      s.calls existing = .computed key (some outcome)

/-- No caller waits on a computation that was cancelled. -/
def NoneStranded (s : EventLoop Key Call Result Error) : Prop :=
  ∀ call key existing, s.calls call = .waiting key existing →
    s.calls existing ≠ .computed key none

/-- A computation is cancelled, or left by an exception that `except Exception` does not
catch, only while no caller waits on it. -/
def Unshared : Condition (EventLoop Key Call Result Error) (LoopAction Key Call Result Error)
  | s, .finish call none => ∀ other key, s.calls other ≠ .waiting key call
  | _, _ => True

/-- A caller whose future is set gets what it is set to. -/
theorem resume_of_set {call existing : Call} {key : Key} {outcome : ComputeOutcome Result Error}
    (hwaits : s.calls call = .waiting key existing) (hset : s.futures existing = some outcome) :
    ∃ t, s.step (.resume call) = some t ∧
      t.calls call = .received key existing (some outcome) := by
  refine ⟨s.setCall call (.received key existing (some outcome)), ?_, ?_⟩
  · simp [step, hwaits, hset]
  · simp [setCall]

/-- Every caller is answered when none is stranded. -/
theorem Coalesced.answered_iff (h : s.Coalesced) : s.Answered ↔ s.NoneStranded := by
  constructor
  · intro hanswered call key existing hwaits hcancelled
    obtain ⟨outcome, _, hended, -⟩ := hanswered.ready call key existing none hwaits hcancelled
    cases hended
  · intro hnone
    refine ⟨?_, ?_, ?_, h.received⟩
    · intro call other key hcall hother
      have hheld := (h.table key call).mpr hcall
      rw [(h.table key other).mpr hother] at hheld
      exact (Option.some.inj hheld).symm
    · intro call key existing hwaits
      rcases h.waiting call key existing hwaits with hrunning | ⟨ended, hended⟩
      · exact .inr hrunning
      · left
        rw [h.resolved existing key ended hended]
        rintro rfl
        exact hnone call key existing hwaits hended
    · intro call key existing ended hwaits hended
      cases ended with
      | none => exact absurd hended (hnone call key existing hwaits)
      | some outcome =>
          obtain ⟨t, hstep, hgot⟩ := resume_of_set hwaits (h.resolved existing key _ hended)
          exact ⟨outcome, t, rfl, hstep, hgot⟩

/-- A step leaves a caller behind exactly if it does not meet the condition. -/
theorem NoneStranded.next_iff (h : s.Coalesced) (hnone : s.NoneStranded)
    (hturn : Turns s a t) : t.NoneStranded ↔ Unshared s a := by
  unfold NoneStranded at hnone ⊢
  cases hturn with
  | join idle found calls inflight futures =>
      have hrunning := (h.table _ _).mp found
      simp only [calls, Function.update_apply, Unshared]
      grind
  | lead idle found calls inflight futures =>
      simp only [calls, Function.update_apply, Unshared]
      grind
  | @finish call key outcome _ running calls inflight futures =>
      cases outcome with
      | none =>
          -- the callers of this computation, and no others, are left behind
          simp only [calls, Function.update_apply, Unshared]
          constructor
          · intro hafter other asked hwaits
            have hne : other ≠ call := by
              rintro rfl
              cases running.symm.trans hwaits
            have hasked : asked = key := by
              rcases h.waiting other asked call hwaits with hrunning | ⟨ended, hended⟩
              · exact CallState.computing.inj (hrunning.symm.trans running)
              · cases running.symm.trans hended
            subst hasked
            exact hafter other asked call (by rwa [if_neg hne]) (if_pos rfl)
          · intro hunshared other asked existing hwaits
            grind
      | some outcome =>
          simp only [calls, Function.update_apply, Unshared]
          grind
  | resume waits resolved calls inflight futures =>
      simp only [calls, Function.update_apply, Unshared]
      grind
  | cancelWait waits calls inflight futures =>
      simp only [calls, Function.update_apply, Unshared]
      grind

/-- None is stranded as long as the steps meet the condition. -/
theorem NoneStranded.of_reach (h : system.Reach Unshared s) : s.NoneStranded := by
  refine h.induct ?_ ?_
  · intro s hstart
    subst hstart
    intro call key existing hwaits
    cases hwaits
  · intro s a t hreach hs hok hstep
    exact (hs.next_iff (Coalesced.of_reach hreach) (turns_of_step hstep)).mpr hok

/-- **Coalescing.**  As long as no exception that `except Exception` lets pass leaves a
computation while a caller waits on it, every caller is answered; the first step that
does so leaves one behind. -/
theorem run_answered_iff (h : system.Reach Unshared s) :
    s.Answered ∧ ∀ a t, s.step a = some t → (t.Answered ↔ Unshared s a) := by
  have hs : s.Coalesced := Coalesced.of_reach h
  have hnone : s.NoneStranded := NoneStranded.of_reach h
  refine ⟨hs.answered_iff.mpr hnone, ?_⟩
  intro a t hstep
  have hturn := turns_of_step hstep
  rw [(hs.next hturn).answered_iff]
  exact hnone.next_iff hs hturn

/-- A call computes, its caller and one that joined it get the result. -/
theorem run_answered_iff_join :
    ∃ s : EventLoop String Nat Nat String,
      s.calls 1 = .received "same" 0 (some (.result 42)) ∧ s.Answered := by
  have hstart : (system : System (EventLoop String Nat Nat String) _).Reach Unshared {} :=
    System.Reach.of_start rfl
  have hlead := hstart.snoc (a := LoopAction.enter 0 "same") trivial rfl
  have hjoin := hlead.snoc (a := LoopAction.enter 1 "same") trivial rfl
  have hfinish := hjoin.snoc (a := LoopAction.finish 0 (some (.result 42))) trivial rfl
  have hresume := hfinish.snoc (a := LoopAction.resume 1) trivial rfl
  exact ⟨_, rfl, (run_answered_iff hresume).1⟩

/-- The computation of the first of two callers is cancelled. -/
theorem cancelled_leader_strands :
    ∃ s : EventLoop String Nat Nat String, system.Reach always s ∧
      s.calls 1 = .waiting "same" 0 ∧ s.futures 0 = none ∧ s.calls 0 = .computed "same" none ∧
      ¬ s.Answered := by
  have hstart : (system : System (EventLoop String Nat Nat String) _).Reach always {} :=
    System.Reach.of_start rfl
  have hlead := hstart.snoc (a := LoopAction.enter 0 "same") trivial rfl
  have hjoin := hlead.snoc (a := LoopAction.enter 1 "same") trivial rfl
  have hcancel := hjoin.snoc (a := LoopAction.finish 0 none) trivial rfl
  refine ⟨_, hcancel, rfl, rfl, rfl, ?_⟩
  intro hanswered
  obtain ⟨outcome, _, hended, -⟩ := hanswered.ready 1 "same" 0 none rfl rfl
  cases hended

/-- How one call can move. -/
theorem Turns.calls_apply (hturn : Turns s a t) (call : Call) :
    t.calls call = s.calls call ∨ s.calls call = .idle ∨
      (∃ key, s.calls call = .computing key) ∨
      ∃ key existing, s.calls call = .waiting key existing ∧
        (t.calls call = .received key existing none ∨
          ∃ outcome, s.futures existing = some outcome ∧
            t.calls call = .received key existing (some outcome)) := by
  cases hturn with
  | join idle found calls inflight futures =>
      rw [calls, Function.update_apply]
      grind
  | lead idle found calls inflight futures =>
      rw [calls, Function.update_apply]
      grind
  | finish running calls inflight futures =>
      rw [calls, Function.update_apply]
      grind
  | resume waits resolved calls inflight futures =>
      rw [calls, Function.update_apply]
      grind
  | cancelWait waits calls inflight futures =>
      rw [calls, Function.update_apply]
      grind

/-- A future is touched only by the call that creates it. -/
theorem Turns.futures_apply (hturn : Turns s a t) (call : Call) :
    t.futures call = s.futures call ∨ s.calls call = .idle ∨
      ∃ key, s.calls call = .computing key := by
  cases hturn with
  | join idle found calls inflight futures => exact .inl (by rw [futures])
  | lead idle found calls inflight futures =>
      rw [futures, Function.update_apply]
      grind
  | @finish actor key outcome _ running calls inflight futures =>
      cases outcome with
      | none => exact .inl (by rw [futures, Option.elim_none])
      | some outcome =>
          rw [futures, Option.elim_some, Function.update_apply]
          grind
  | resume waits resolved calls inflight futures => exact .inl (by rw [futures])
  | cancelWait waits calls inflight futures => exact .inl (by rw [futures])

/-- A computation that has ended stays as it is, and so does its future. -/
theorem Turns.ended {call : Call} {key : Key}
    {outcome : Option (ComputeOutcome Result Error)} (hturn : Turns s a t)
    (hended : s.calls call = .computed key outcome) :
    t.calls call = .computed key outcome ∧ t.futures call = s.futures call := by
  have hcall := hturn.calls_apply call
  have hfuture := hturn.futures_apply call
  grind

/-- While its future is not set, a caller leaves its wait only cancelled. -/
theorem Turns.waiting {call existing : Call} {key : Key} (hturn : Turns s a t)
    (hwaits : s.calls call = .waiting key existing) (hunset : s.futures existing = none) :
    t.calls call = .waiting key existing ∨ t.calls call = .received key existing none := by
  have hcall := hturn.calls_apply call
  grind

/-- What a call has received it keeps. -/
theorem Turns.received {call existing : Call} {key : Key}
    {outcome : Option (ComputeOutcome Result Error)} (hturn : Turns s a t)
    (hgot : s.calls call = .received key existing outcome) :
    t.calls call = .received key existing outcome := by
  have hcall := hturn.calls_apply call
  grind

/-- **Left behind.**  A caller whose computation was cancelled never gets an
outcome: it waits until it is cancelled itself. -/
theorem stranded_forever {call existing : Call} {key : Key}
    (hwaits : s.calls call = .waiting key existing)
    (hcancelled : s.calls existing = .computed key none) (hset : s.futures existing = none)
    (hpath : system.Path always s t) :
    t.calls call = .waiting key existing ∨ t.calls call = .received key existing none := by
  have hkept : t.calls existing = .computed key none ∧ t.futures existing = none ∧
      (t.calls call = .waiting key existing ∨ t.calls call = .received key existing none) := by
    apply System.Path.preserves ?_ hpath
    · exact ⟨hcancelled, hset, .inl hwaits⟩
    intro s a t hs _ hstep
    obtain ⟨hended, hunset, hcall⟩ := hs
    have hturn : Turns s a t := turns_of_step hstep
    obtain ⟨hended', hfuture⟩ := hturn.ended hended
    refine ⟨hended', hfuture.trans hunset, ?_⟩
    rcases hcall with hwaits | hgot
    · exact hturn.waiting hwaits hunset
    · exact .inr (hturn.received hgot)
  exact hkept.2.2

/-! ## The counters -/

/-- Each submission is counted as a computation or as a join. -/
def Counted (stats : CoalescingStats) : Prop :=
  stats.submissions = stats.computations + stats.joins

/-- Entering counts a computation or a join. -/
theorem Counted.enter (h : Counted s.stats) (call : Call) (key : Key) :
    Counted (s.enter call key).stats := by
  unfold Counted at h ⊢
  cases hfound : s.inflight key with
  | some existing =>
      simp only [EventLoop.enter, hfound, setCall]
      omega
  | none =>
      simp only [EventLoop.enter, hfound, setCall]
      omega

/-- Finishing counts a failure or nothing. -/
theorem Counted.finish (h : Counted s.stats) (call : Call) (key : Key)
    (outcome : Option (ComputeOutcome Result Error)) :
    Counted (s.finish call key outcome).stats := by
  rcases outcome with _ | _ | _ <;> exact h

/-- The counters add up in every run. -/
theorem run_counted {ok : Condition (EventLoop Key Call Result Error) _}
    (h : system.Reach ok s) : Counted s.stats := by
  refine System.Reach.invariant (I := fun s => Counted s.stats) ?_ ?_ h
  · intro s hstart
    subst hstart
    rfl
  · intro s a t hs _ hstep
    cases a with
    | enter call key =>
        simp only [system, step] at hstep
        split at hstep <;> cases hstep
        exact hs.enter call key
    | finish call outcome =>
        simp only [system, step] at hstep
        split at hstep <;> cases hstep
        exact hs.finish call _ outcome
    | resume call =>
        simp only [system, step] at hstep
        split at hstep
        · obtain ⟨outcome, -, rfl⟩ := Option.map_eq_some_iff.mp hstep
          exact hs
        · cases hstep
    | cancelWait call =>
        simp only [system, step] at hstep
        split at hstep <;> cases hstep
        exact hs

end EventLoop

end ChallengeForge
