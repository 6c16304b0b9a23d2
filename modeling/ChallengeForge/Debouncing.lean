import Mathlib.Algebra.Order.Group.Unbundled.Basic
import Mathlib.Algebra.Order.Monoid.Unbundled.Basic
import Mathlib.Algebra.Order.Monoid.Defs
import Mathlib.Data.List.Induction

/-!
# Debounced levels

A debouncer turns a stream of timed inputs into a level that moves slowly.  In
each level an input asks for some level, or for nothing.  A level other than
the present one must be asked for over a *sustain* span before it is taken,
and after a change further requests are ignored during a *cooldown* span.

The gate remembers one pending request only: the level and the time it was
first asked for.  Times are elements of any linearly ordered group.

* `run_pending` — what a pending request says about the history behind it;
* `change_requested` — a change was asked for a sustain span earlier, and
  nothing else was asked for in between;
* `changes_apart` — consecutive changes are a cooldown and a sustain span apart;
* `run_leaves_iff` — exactly when a stream that always asks to leave a level
  makes the gate leave it: some one level has to be asked for long enough.
-/

namespace Debounce

universe u v w

/-- What an input asks for in each level, when it comes, and the two spans. -/
structure Debouncer (Level : Type u) (Input : Type v) (Time : Type w) where
  asks : Level → Input → Option Level
  time : Input → Time
  sustain : Time
  cooldown : Time

/-- The state of a debouncer: its level, the pending request with the time it
was first made, and the time of the last change. -/
structure Gate (Level : Type u) (Time : Type w) where
  level : Level
  pending : Option (Level × Time)
  changedAt : Option Time

variable {Level : Type u} {Input : Type v} {Time : Type w}
variable [AddCommGroup Time] [LinearOrder Time]

namespace Debouncer

/-- The cooldown of the last change has elapsed. -/
def Rested (d : Debouncer Level Input Time) (g : Gate Level Time) (now : Time) : Prop :=
  ∀ t ∈ g.changedAt, d.cooldown ≤ now - t

instance (d : Debouncer Level Input Time) (g : Gate Level Time) (now : Time) :
    Decidable (d.Rested g now) :=
  inferInstanceAs (Decidable (∀ t ∈ g.changedAt, d.cooldown ≤ now - t))

variable [DecidableEq Level]

/-- What one input does: it is dropped, starts or renews the pending request, or takes the
level that was asked for long enough. -/
def step (d : Debouncer Level Input Time) (g : Gate Level Time) (e : Input) :
    Gate Level Time :=
  match d.asks g.level e with
  | none => g
  | some wanted =>
    if wanted = g.level then { g with pending := none }
    else if ¬ d.Rested g (d.time e) then g
    else
      match g.pending with
      | none => { g with pending := some (wanted, d.time e) }
      | some (candidate, since) =>
        if candidate ≠ wanted then { g with pending := some (wanted, d.time e) }
        else if d.time e - since < d.sustain then g
        else { level := wanted, pending := none, changedAt := some (d.time e) }

/-- The inputs of a list, one after the other. -/
def run (d : Debouncer Level Input Time) (g : Gate Level Time)
    (events : List Input) : Gate Level Time :=
  events.foldl d.step g

/-- No input changes nothing. -/
@[simp]
theorem run_nil (d : Debouncer Level Input Time) (g : Gate Level Time) :
    d.run g [] = g := rfl

/-- A run starts with the step of its first input. -/
@[simp]
theorem run_cons (d : Debouncer Level Input Time) (g : Gate Level Time)
    (e : Input) (events : List Input) :
    d.run g (e :: events) = d.run (d.step g e) events := rfl

/-- A run goes on where another ended. -/
theorem run_append (d : Debouncer Level Input Time) (g : Gate Level Time)
    (before after : List Input) :
    d.run g (before ++ after) = d.run (d.run g before) after :=
  List.foldl_append

/-- A run ends with the step of its last input. -/
theorem run_snoc (d : Debouncer Level Input Time) (g : Gate Level Time)
    (before : List Input) (e : Input) :
    d.run g (before ++ [e]) = d.step (d.run g before) e := by
  rw [run_append, run_cons, run_nil]

/-! ## One step -/

/-- Everything one event can do to a gate. -/
inductive Steps (d : Debouncer Level Input Time) (g : Gate Level Time)
    (e : Input) : Gate Level Time → Prop
  | silent (hasks : d.asks g.level e = none) : Steps d g e g
  | agreed (hasks : d.asks g.level e = some g.level) :
      Steps d g e { g with pending := none }
  | cooling (wanted : Level) (hasks : d.asks g.level e = some wanted)
      (hother : wanted ≠ g.level) (hcooling : ¬ d.Rested g (d.time e)) : Steps d g e g
  | started (wanted : Level) (hasks : d.asks g.level e = some wanted)
      (hother : wanted ≠ g.level) (hrested : d.Rested g (d.time e))
      (hnew : ∀ since, g.pending ≠ some (wanted, since)) :
      Steps d g e { g with pending := some (wanted, d.time e) }
  | sustaining (wanted : Level) (since : Time)
      (hasks : d.asks g.level e = some wanted)
      (hother : wanted ≠ g.level) (hrested : d.Rested g (d.time e))
      (hpending : g.pending = some (wanted, since)) (hshort : d.time e - since < d.sustain) :
      Steps d g e g
  | changed (wanted : Level) (since : Time)
      (hasks : d.asks g.level e = some wanted)
      (hother : wanted ≠ g.level) (hrested : d.Rested g (d.time e))
      (hpending : g.pending = some (wanted, since)) (hlong : d.sustain ≤ d.time e - since) :
      Steps d g e { level := wanted, pending := none, changedAt := some (d.time e) }

/-- A step is one of those. -/
theorem step_spec (d : Debouncer Level Input Time) (g : Gate Level Time)
    (e : Input) : Steps d g e (d.step g e) := by
  unfold step
  cases hasks : d.asks g.level e with
  | none => exact .silent hasks
  | some wanted =>
      dsimp only
      by_cases hsame : wanted = g.level
      · rw [if_pos hsame]
        exact .agreed (hsame ▸ hasks)
      rw [if_neg hsame]
      by_cases hrested : d.Rested g (d.time e)
      · rw [if_neg (not_not_intro hrested)]
        cases hpending : g.pending with
        | none =>
            refine .started wanted hasks hsame hrested ?_
            simp [hpending]
        | some request =>
            obtain ⟨candidate, since⟩ := request
            dsimp only
            by_cases hnew : candidate = wanted
            · subst hnew
              rw [if_neg (not_not_intro rfl)]
              by_cases hshort : d.time e - since < d.sustain
              · rw [if_pos hshort]
                exact .sustaining candidate since hasks hsame hrested hpending hshort
              · rw [if_neg hshort]
                exact .changed candidate since hasks hsame hrested hpending
                  (le_of_not_gt hshort)
            · rw [if_pos hnew]
              refine .started wanted hasks hsame hrested ?_
              intro t
              simp [hpending, hnew]
      · rw [if_pos hrested]
        exact .cooling wanted hasks hsame hrested

/-- A step that keeps the level keeps the time of its last change. -/
theorem step_changedAt {d : Debouncer Level Input Time} {g : Gate Level Time}
    {e : Input} (hlevel : (d.step g e).level = g.level) :
    (d.step g e).changedAt = g.changedAt := by
  generalize hnext : d.step g e = next at hlevel
  cases hnext ▸ d.step_spec g e with
  | silent => rfl
  | agreed => rfl
  | cooling => rfl
  | started => rfl
  | sustaining => rfl
  | changed wanted since hasks hother => exact absurd hlevel hother

/-! ## What a pending request says about the history -/

/-- After `earlier`, the event `first` made a request for `wanted` that was
pending all through `later`: whatever asked for another level came during a
cooldown, and nothing asked for the present one. -/
structure Standing (d : Debouncer Level Input Time) (g : Gate Level Time)
    (earlier : List Input) (first : Input)
    (later : List Input) (wanted : Level) : Prop where
  asked : d.asks (d.run g earlier).level first = some wanted
  other : wanted ≠ (d.run g earlier).level
  rested : d.Rested (d.run g earlier) (d.time first)
  fresh : ∀ since, (d.run g earlier).pending ≠ some (wanted, since)
  holds : ∀ mid, mid <+: later → d.run g (earlier ++ first :: mid) =
    { d.run g earlier with pending := some (wanted, d.time first) }
  calm : ∀ e ∈ later, d.asks (d.run g earlier).level e = none ∨
    d.asks (d.run g earlier).level e = some wanted ∨
    d.asks (d.run g earlier).level e ≠ some (d.run g earlier).level ∧
      ¬ d.Rested (d.run g earlier) (d.time e)

variable {d : Debouncer Level Input Time} {g : Gate Level Time}

/-- The gate that a standing request has led to. -/
theorem Standing.state {earlier later : List Input} {first : Input}
    {wanted : Level} (h : Standing d g earlier first later wanted) :
    d.run g (earlier ++ first :: later) =
      { d.run g earlier with pending := some (wanted, d.time first) } :=
  h.holds later (List.prefix_refl later)

/-- A request goes on standing through an event that leaves the gate alone. -/
theorem Standing.snoc {earlier later : List Input} {first e : Input}
    {wanted : Level} (h : Standing d g earlier first later wanted)
    (hstays : d.step (d.run g (earlier ++ first :: later)) e =
      d.run g (earlier ++ first :: later))
    (hcalm : d.asks (d.run g earlier).level e = none ∨
      d.asks (d.run g earlier).level e = some wanted ∨
      d.asks (d.run g earlier).level e ≠ some (d.run g earlier).level ∧
        ¬ d.Rested (d.run g earlier) (d.time e)) :
    Standing d g earlier first (later ++ [e]) wanted := by
  refine ⟨h.asked, h.other, h.rested, h.fresh, ?_, ?_⟩
  · intro mid hmid
    rcases List.prefix_concat_iff.mp hmid with heq | hbefore
    · have hsplit : earlier ++ first :: mid = (earlier ++ first :: later) ++ [e] := by
        simp [heq]
      rw [hsplit, run_snoc, hstays]
      exact h.state
    · exact h.holds mid hbefore
  · intro x hx
    rcases List.mem_append.mp hx with hold | hnew
    · exact h.calm x hold
    · exact List.mem_singleton.mp hnew ▸ hcalm

/-- A pending request was made by some event and has been standing since. -/
theorem run_pending (hstart : g.pending = none) {events : List Input}
    {wanted : Level} {since : Time} (hpending : (d.run g events).pending = some (wanted, since)) :
    ∃ earlier first later, events = earlier ++ first :: later ∧ d.time first = since ∧
      Standing d g earlier first later wanted := by
  induction events using List.reverseRecOn generalizing wanted since with
  | nil => simp [hstart] at hpending
  | append_singleton events e ih =>
      rw [run_snoc] at hpending
      have hextend : d.step (d.run g events) e = d.run g events →
          (∀ earlier first later, events = earlier ++ first :: later →
            Standing d g earlier first later wanted →
            d.asks (d.run g earlier).level e = none ∨
            d.asks (d.run g earlier).level e = some wanted ∨
            d.asks (d.run g earlier).level e ≠ some (d.run g earlier).level ∧
              ¬ d.Rested (d.run g earlier) (d.time e)) →
          ∃ earlier first later, events ++ [e] = earlier ++ first :: later ∧
            d.time first = since ∧ Standing d g earlier first later wanted := by
        intro hstays hcalm
        rw [hstays] at hpending
        obtain ⟨earlier, first, later, hsplit, htime, hstanding⟩ := ih hpending
        refine ⟨earlier, first, later ++ [e], by simp [hsplit], htime, ?_⟩
        exact hstanding.snoc (hsplit ▸ hstays) (hcalm earlier first later hsplit hstanding)
      generalize hnext : d.step (d.run g events) e = next at hpending hextend
      cases hnext ▸ d.step_spec (d.run g events) e with
      | silent hasks =>
          refine hextend rfl (fun earlier first later hsplit hstanding => .inl ?_)
          rw [hsplit, hstanding.state] at hasks
          exact hasks
      | agreed => simp at hpending
      | cooling other hasks hother hcooling =>
          refine hextend rfl (fun earlier first later hsplit hstanding => .inr (.inr ?_))
          rw [hsplit, hstanding.state] at hasks hother hcooling
          have hasked : d.asks (d.run g earlier).level e = some other := hasks
          refine ⟨?_, hcooling⟩
          rw [hasked]
          exact fun hsame => hother (Option.some.inj hsame)
      | started other hasks hother hrested hnew =>
          obtain ⟨rfl, rfl⟩ : other = wanted ∧ d.time e = since := by simpa using hpending
          exact ⟨events, e, [], rfl, rfl, hasks, hother, hrested, hnew,
            fun mid hmid => by
              rw [List.prefix_nil.mp hmid, run_snoc, hnext], by simp⟩
      | sustaining other t hasks hother hrested hheld =>
          obtain ⟨rfl, rfl⟩ : other = wanted ∧ t = since := by simpa [hheld] using hpending
          refine hextend rfl (fun earlier first later hsplit hstanding => .inr (.inl ?_))
          rw [hsplit, hstanding.state] at hasks
          exact hasks
      | changed => simp at hpending

/-- A change at `last` comes after the cooldown; it was requested a sustain span
before, and the request was standing ever since. -/
theorem change_requested (hstart : g.pending = none) {before : List Input}
    {last : Input}
    (hchange : (d.run g (before ++ [last])).level ≠ (d.run g before).level) :
    ∃ earlier first later, before = earlier ++ first :: later ∧
      d.sustain ≤ d.time last - d.time first ∧
      d.asks (d.run g before).level last = some (d.run g (before ++ [last])).level ∧
      d.Rested (d.run g before) (d.time last) ∧
      Standing d g earlier first later (d.run g (before ++ [last])).level := by
  rw [run_snoc] at hchange ⊢
  generalize hnext : d.step (d.run g before) last = next at hchange ⊢
  cases hnext ▸ d.step_spec (d.run g before) last with
  | silent => exact absurd rfl hchange
  | agreed => exact absurd rfl hchange
  | cooling => exact absurd rfl hchange
  | started => exact absurd rfl hchange
  | sustaining => exact absurd rfl hchange
  | changed wanted since hasks hother hrested hpending hlong =>
      obtain ⟨earlier, first, later, hsplit, htime, hstanding⟩ := run_pending hstart hpending
      exact ⟨earlier, first, later, hsplit, htime ▸ hlong, hasks, hrested, hstanding⟩

/-- Without a change of level the time of the last change stands. -/
theorem run_changedAt {events : List Input}
    (hquiet : ∀ part e rest, events = part ++ e :: rest →
      (d.run g (part ++ [e])).level = (d.run g part).level) :
    (d.run g events).changedAt = g.changedAt := by
  induction events using List.reverseRecOn with
  | nil => rfl
  | append_singleton events e ih =>
      have hlast : (d.run g (events ++ [e])).level = (d.run g events).level :=
        hquiet events e [] rfl
      rw [run_snoc] at hlast ⊢
      rw [step_changedAt hlast]
      refine ih (fun part x rest hsplit => hquiet part x (rest ++ [e]) ?_)
      simp [hsplit]

/-- A step that changes the level notes the time. -/
theorem step_changedAt_of_change {e : Input}
    (hchange : (d.step g e).level ≠ g.level) : (d.step g e).changedAt = some (d.time e) := by
  generalize hnext : d.step g e = next at hchange ⊢
  cases hnext ▸ d.step_spec g e with
  | silent => exact absurd rfl hchange
  | agreed => exact absurd rfl hchange
  | cooling => exact absurd rfl hchange
  | started => exact absurd rfl hchange
  | sustaining => exact absurd rfl hchange
  | changed => rfl

/-! ## Ordered streams -/

variable [IsOrderedAddMonoid Time]

omit [DecidableEq Level] in
/-- A cooldown that has elapsed stays so. -/
theorem Rested.mono {now later : Time} (h : d.Rested g now) (hle : now ≤ later) :
    d.Rested g later := by
  intro t ht
  have hspan := h t ht
  exact hspan.trans (sub_le_sub_right hle t)

/-- The times of a stream do not decrease. -/
def Ordered (d : Debouncer Level Input Time) (events : List Input) : Prop :=
  events.Pairwise (fun a b => d.time a ≤ d.time b)

/-- In an ordered stream nothing comes during a cooldown while a request is
standing, so that nothing asks for another level at all. -/
theorem Standing.undisputed {earlier later : List Input}
    {first : Input} {wanted : Level} (h : Standing d g earlier first later wanted)
    (hordered : d.Ordered (first :: later)) :
    ∀ e ∈ later, d.asks (d.run g earlier).level e = none ∨
      d.asks (d.run g earlier).level e = some wanted := by
  intro e he
  have htime : d.time first ≤ d.time e := (List.pairwise_cons.mp hordered).1 e he
  rcases h.calm e he with hsilent | hsame | hcooling
  · exact .inl hsilent
  · exact .inr hsame
  · exact absurd (h.rested.mono htime) hcooling.2

omit [IsOrderedAddMonoid Time] in
/-- The times of a pending request are those of earlier events. -/
theorem pending_le (hstart : g.pending = none) {before events : List Input}
    (hordered : d.Ordered (before ++ events)) :
    ∀ request ∈ (d.run g before).pending, ∀ e ∈ events, request.2 ≤ d.time e := by
  intro request hrequest e he
  obtain ⟨earlier, first, later, hsplit, htime, -⟩ :=
    run_pending hstart hrequest
  have hmem : first ∈ before := by simp [hsplit]
  exact htime ▸ (List.pairwise_append.mp hordered).2.2 first hmem e he

/-- **Spacing.**  Between two consecutive changes lie a cooldown and then a
sustain span. -/
theorem changes_apart (hstart : g.pending = none) {before mid : List Input}
    {a b : Input}
    (ha : (d.run g (before ++ [a])).level ≠ (d.run g before).level)
    (hquiet : ∀ part e rest, mid = part ++ e :: rest →
      (d.run g (before ++ a :: part ++ [e])).level = (d.run g (before ++ a :: part)).level)
    (hb : (d.run g (before ++ a :: mid ++ [b])).level ≠ (d.run g (before ++ a :: mid)).level) :
    d.cooldown + d.sustain ≤ d.time b - d.time a := by
  have hchanged : (d.run g (before ++ a :: mid)).changedAt = some (d.time a) := by
    have hsplit : before ++ a :: mid = (before ++ [a]) ++ mid := by simp
    rw [hsplit, run_append, run_changedAt, run_snoc]
    · rw [run_snoc] at ha
      exact step_changedAt_of_change ha
    · intro part e rest hpart
      have hlevel := hquiet part e rest hpart
      rw [← run_append, ← run_append]
      simpa using hlevel
  obtain ⟨earlier, first, later, hsplit, hlong, -, -, hstanding⟩ := change_requested hstart hb
  have hcooled : d.cooldown ≤ d.time first - d.time a := by
    rw [hsplit, hstanding.state] at hchanged
    exact hstanding.rested (d.time a) hchanged
  calc d.cooldown + d.sustain
      ≤ (d.time first - d.time a) + (d.time b - d.time first) := add_le_add hcooled hlong
    _ = d.time b - d.time a := by rw [add_comm, sub_add_sub_cancel]

/-! ## Leaving a level -/

omit [IsOrderedAddMonoid Time] in
/-- A step stays where it is or goes where it was asked to. -/
theorem step_level (d : Debouncer Level Input Time) (g : Gate Level Time)
    (e : Input) :
    (d.step g e).level = g.level ∨ d.asks g.level e = some (d.step g e).level := by
  generalize hnext : d.step g e = next
  cases hnext ▸ d.step_spec g e with
  | silent => exact .inl rfl
  | agreed => exact .inl rfl
  | cooling => exact .inl rfl
  | started => exact .inl rfl
  | sustaining => exact .inl rfl
  | changed wanted since hasks => exact .inr hasks

omit [IsOrderedAddMonoid Time] in
/-- A level that no event asks for from elsewhere is not entered again. -/
theorem run_stays_away {home : Level} {events : List Input}
    (haway : ∀ e ∈ events, ∀ level, level ≠ home → d.asks level e ≠ some home)
    (hlevel : g.level ≠ home) : (d.run g events).level ≠ home := by
  induction events generalizing g with
  | nil => exact hlevel
  | cons e rest ih =>
      apply ih (fun x hx => haway x (List.mem_cons_of_mem e hx))
      rcases d.step_level g e with hstays | hasked
      · exact hstays ▸ hlevel
      · intro hhome
        exact haway e List.mem_cons_self g.level hlevel (hhome ▸ hasked)

/-- Some level is asked for, seen from `home`, over a sustain span: by two
events and all between them, or, when it is pending since `since` already, by
all events up to one. -/
inductive Held (d : Debouncer Level Input Time) (home : Level)
    (pending : Option (Level × Time)) (events : List Input) : Prop
  | afresh (wanted : Level) (earlier mid later : List Input)
      (first last : Input)
      (hsplit : events = earlier ++ first :: (mid ++ last :: later))
      (hasks : ∀ e ∈ first :: (mid ++ [last]), d.asks home e = some wanted)
      (hlong : d.sustain ≤ d.time last - d.time first)
  | standing (wanted : Level) (since : Time) (mid later : List Input)
      (last : Input) (hpending : pending = some (wanted, since))
      (hsplit : events = mid ++ last :: later)
      (hasks : ∀ e ∈ mid ++ [last], d.asks home e = some wanted)
      (hlong : d.sustain ≤ d.time last - since)

omit [DecidableEq Level] [IsOrderedAddMonoid Time] in
/-- A first event that makes the request anew stands at the head of every
later span. -/
theorem held_cons_of_started {home wanted : Level} {pending : Option (Level × Time)}
    {e : Input} {rest : List Input}
    (hasked : d.asks home e = some wanted)
    (hnew : ∀ since, pending ≠ some (wanted, since)) :
    Held d home pending (e :: rest) ↔ Held d home (some (wanted, d.time e)) rest := by
  constructor
  · intro hheld
    cases hheld with
    | afresh other earlier mid later first last hsplit hasks hlong =>
        cases earlier with
        | nil =>
            obtain ⟨rfl, rfl⟩ := List.cons.inj hsplit
            have hsame : wanted = other :=
              Option.some.inj (hasked.symm.trans (hasks e List.mem_cons_self))
            subst hsame
            exact .standing wanted (d.time e) mid later last rfl rfl
              (fun x hx => hasks x (List.mem_cons_of_mem e hx)) hlong
        | cons x earlier =>
            obtain ⟨-, hrest⟩ := List.cons.inj hsplit
            exact .afresh other earlier mid later first last hrest hasks hlong
    | standing other since mid later last hpending hsplit hasks hlong =>
        have hother : d.asks home e = some other := by
          cases mid with
          | nil =>
              obtain ⟨rfl, -⟩ := List.cons.inj hsplit
              exact hasks e List.mem_cons_self
          | cons x mid =>
              obtain ⟨rfl, -⟩ := List.cons.inj hsplit
              exact hasks e List.mem_cons_self
        have hsame : wanted = other := Option.some.inj (hasked.symm.trans hother)
        exact absurd (hsame ▸ hpending) (hnew since)
  · intro hheld
    cases hheld with
    | afresh other earlier mid later first last hsplit hasks hlong =>
        exact .afresh other (e :: earlier) mid later first last (by simp [hsplit]) hasks hlong
    | standing other since mid later last hpending hsplit hasks hlong =>
        obtain ⟨rfl, rfl⟩ : wanted = other ∧ d.time e = since := by simpa using hpending
        refine .afresh wanted [] mid later e last (by simp [hsplit]) ?_ hlong
        intro x hx
        rcases List.mem_cons.mp hx with rfl | hlater
        · exact hasked
        · exact hasks x hlater

omit [DecidableEq Level] in
/-- A first event that only continues the pending request, too early to be
granted, adds nothing to a span. -/
theorem held_cons_of_sustaining {home wanted : Level} {since : Time}
    {e : Input} {rest : List Input}
    (hasked : d.asks home e = some wanted) (hpast : since ≤ d.time e)
    (hshort : d.time e - since < d.sustain) :
    Held d home (some (wanted, since)) (e :: rest) ↔
      Held d home (some (wanted, since)) rest := by
  constructor
  · intro hheld
    cases hheld with
    | afresh other earlier mid later first last hsplit hasks hlong =>
        cases earlier with
        | nil =>
            obtain ⟨rfl, rfl⟩ := List.cons.inj hsplit
            have hsame : wanted = other :=
              Option.some.inj (hasked.symm.trans (hasks e List.mem_cons_self))
            subst hsame
            exact .standing wanted since mid later last rfl rfl
              (fun x hx => hasks x (List.mem_cons_of_mem e hx))
              (hlong.trans (sub_le_sub_left hpast (d.time last)))
        | cons x earlier =>
            obtain ⟨-, hrest⟩ := List.cons.inj hsplit
            exact .afresh other earlier mid later first last hrest hasks hlong
    | standing other t mid later last hpending hsplit hasks hlong =>
        obtain ⟨rfl, rfl⟩ : wanted = other ∧ since = t := by simpa using hpending
        cases mid with
        | nil =>
            obtain ⟨rfl, -⟩ := List.cons.inj hsplit
            exact absurd hlong (not_le_of_gt hshort)
        | cons x mid =>
            obtain ⟨-, hrest⟩ := List.cons.inj hsplit
            exact .standing wanted since mid later last rfl hrest
              (fun y hy => hasks y (List.mem_cons_of_mem x hy)) hlong
  · intro hheld
    cases hheld with
    | afresh other earlier mid later first last hsplit hasks hlong =>
        exact .afresh other (e :: earlier) mid later first last (by simp [hsplit]) hasks hlong
    | standing other t mid later last hpending hsplit hasks hlong =>
        obtain ⟨rfl, rfl⟩ : wanted = other ∧ since = t := by simpa using hpending
        refine .standing wanted since (e :: mid) later last rfl (by simp [hsplit]) ?_ hlong
        intro x hx
        rcases List.mem_cons.mp hx with rfl | hlater
        · exact hasked
        · exact hasks x hlater

/-- **Leaving a level.**  A rested gate at `home`, fed events that all ask to
leave and never ask to come back, leaves exactly when some one level is held
over a sustain span. -/
theorem run_leaves_iff {home : Level} {events : List Input}
    (hlevel : g.level = home)
    (hleave : ∀ e ∈ events, ∃ wanted, wanted ≠ home ∧ d.asks home e = some wanted)
    (haway : ∀ e ∈ events, ∀ level, level ≠ home → d.asks level e ≠ some home)
    (hrested : ∀ e ∈ events, d.Rested g (d.time e))
    (hpast : ∀ request ∈ g.pending, ∀ e ∈ events, request.2 ≤ d.time e)
    (hordered : d.Ordered events) :
    (d.run g events).level ≠ home ↔ Held d home g.pending events := by
  induction events generalizing g with
  | nil =>
      refine iff_of_false (not_not_intro hlevel) (fun hheld => ?_)
      cases hheld with
      | afresh wanted earlier mid later first last hsplit => simp at hsplit
      | standing wanted since mid later last hpending hsplit => simp at hsplit
  | cons e rest ih =>
      obtain ⟨wanted, hother, hasked⟩ := hleave e List.mem_cons_self
      have hleave' := fun x hx => hleave x (List.mem_cons_of_mem e hx)
      have haway' := fun x hx => haway x (List.mem_cons_of_mem e hx)
      have hrested' := fun x hx => hrested x (List.mem_cons_of_mem e hx)
      obtain ⟨hfirst, hordered'⟩ := List.pairwise_cons.mp hordered
      rw [run_cons]
      generalize hnext : d.step g e = next
      cases hnext ▸ d.step_spec g e with
      | silent hasks =>
          rw [hlevel, hasked] at hasks
          cases hasks
      | agreed hasks =>
          rw [hlevel, hasked] at hasks
          exact absurd (Option.some.inj hasks) hother
      | cooling other hasks hne hcooling =>
          exact absurd (hrested e List.mem_cons_self) hcooling
      | started other hasks hne hrest hnew =>
          have hsame : wanted = other := by
            rw [hlevel, hasked] at hasks
            exact Option.some.inj hasks
          subst hsame
          rw [held_cons_of_started hasked hnew]
          refine ih hlevel hleave' haway' hrested' ?_ hordered'
          intro request hrequest x hx
          have htime : request.2 = d.time e := by
            cases Option.mem_some.mp hrequest
            rfl
          exact htime ▸ hfirst x hx
      | sustaining other since hasks hne hrest hpending hshort =>
          have hsame : wanted = other := by
            rw [hlevel, hasked] at hasks
            exact Option.some.inj hasks
          subst hsame
          have hsince : since ≤ d.time e :=
            hpast (wanted, since) hpending e List.mem_cons_self
          rw [hpending, held_cons_of_sustaining hasked hsince hshort, ← hpending]
          exact ih hlevel hleave' haway' hrested'
            (fun request hrequest x hx => hpast request hrequest x (List.mem_cons_of_mem e hx))
            hordered'
      | changed other since hasks hne hrest hpending hlong =>
          have hsame : wanted = other := by
            rw [hlevel, hasked] at hasks
            exact Option.some.inj hasks
          subst hsame
          refine iff_of_true (run_stays_away haway' hother) ?_
          refine .standing wanted since [] rest e hpending rfl ?_ hlong
          intro x hx
          exact List.mem_singleton.mp hx ▸ hasked

end Debouncer

end Debounce
