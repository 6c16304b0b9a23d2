import Mathlib.Data.List.Basic

/-!
# Covering a list by spans

A span is a start and a stop, the stop exclusive.  A cover of a range is a list of
nonempty spans in increasing order, between which only blank elements stand.

* `Cover.append`, `Cover.flatMap`, `Cover.groups` — covers are put together, refined,
  and coarsened to the hulls of groups;
* `Cover.pairwise`, `Cover.covered` — the spans are disjoint, and every element that
  is not blank lies in one of them.
-/

namespace Spans

universe u v w

variable {α : Type u} {ι : Type v} {κ : Type w}

/-- A start and a stop. -/
abbrev Span := Nat × Nat

/-- Nothing but blanks stands in the range. -/
def Blank (blank : α → Bool) (text : List α) (a b : Nat) : Prop :=
  ∀ i, a ≤ i → i < b → ∀ c, text[i]? = some c → blank c = true

/-- A cover of the range from `a` to `b`: what lies before, between and after the spans is
blank. -/
inductive Cover (blank : α → Bool) (text : List α) : Nat → Nat → List Span → Prop
  | nil {a b} (hle : a ≤ b) (hblank : Blank blank text a b) : Cover blank text a b []
  | cons {a b span rest} (hle : a ≤ span.1) (hgap : Blank blank text a span.1)
      (hlt : span.1 < span.2) (hrest : Cover blank text span.2 b rest) :
      Cover blank text a b (span :: rest)

section Blank

variable {blank : α → Bool} {text : List α} {a b c : Nat}

/-- An empty range is blank. -/
theorem Blank.empty : Blank blank text a a := by
  intro i hlow hhigh
  omega

/-- Two blank ranges that meet make a blank one. -/
theorem Blank.trans (h : Blank blank text a b) (h' : Blank blank text b c) :
    Blank blank text a c := by
  intro i hlow hhigh x hx
  by_cases hi : i < b
  · exact h i hlow hi x hx
  · exact h' i (by omega) hhigh x hx

/-- A part of a blank range is blank. -/
theorem Blank.mono {a' b' : Nat} (h : Blank blank text a b) (hlow : a ≤ a') (hhigh : b' ≤ b) :
    Blank blank text a' b' := by
  intro i hi hi' x hx
  exact h i (by omega) (by omega) x hx

/-- Past the end there is nothing. -/
theorem Blank.past (h : text.length ≤ a) : Blank blank text a b := by
  intro i hlow hhigh x hx
  rw [List.getElem?_eq_none (by omega)] at hx
  cases hx

end Blank

namespace Cover

variable {blank : α → Bool} {text : List α} {a b c : Nat} {spans spans' : List Span}

/-- A cover has a range. -/
theorem le (h : Cover blank text a b spans) : a ≤ b := by
  induction h with
  | nil hle _ => exact hle
  | cons hle _ hlt _ ih => omega

/-- A cover may begin earlier, over blanks. -/
theorem extend {a' : Nat} (h : Cover blank text a b spans) (hle : a' ≤ a)
    (hblank : Blank blank text a' a) : Cover blank text a' b spans := by
  cases h with
  | nil hab hgap => exact .nil (by omega) (hblank.trans hgap)
  | cons hlow hgap hlt hrest => exact .cons (by omega) (hblank.trans hgap) hlt hrest

/-- Covers of two ranges that meet make a cover of both. -/
theorem append (h : Cover blank text a b spans) (h' : Cover blank text b c spans') :
    Cover blank text a c (spans ++ spans') := by
  induction h with
  | nil hle hblank => exact h'.extend hle hblank
  | cons hle hgap hlt _ ih => exact .cons hle hgap hlt (ih h')

/-- The spans of a cover lie in its range. -/
theorem bounds (h : Cover blank text a b spans) :
    ∀ span ∈ spans, a ≤ span.1 ∧ span.1 < span.2 ∧ span.2 ≤ b := by
  induction h with
  | nil _ _ => simp
  | cons hle _ hlt hrest ih =>
      refine List.forall_mem_cons.mpr ⟨⟨hle, hlt, hrest.le⟩, ?_⟩
      intro span hspan
      obtain ⟨hlow, hmid, hhigh⟩ := ih span hspan
      exact ⟨by omega, hmid, hhigh⟩

/-- The spans are disjoint, in increasing order. -/
theorem pairwise (h : Cover blank text a b spans) :
    spans.Pairwise (fun first second => first.2 ≤ second.1) := by
  induction h with
  | nil _ _ => exact List.Pairwise.nil
  | cons _ _ _ hrest ih =>
      exact List.pairwise_cons.mpr ⟨fun span hspan => (hrest.bounds span hspan).1, ih⟩

/-- An element that is not blank lies in a span. -/
theorem covered (h : Cover blank text a b spans) {i : Nat} (hlow : a ≤ i) (hhigh : i < b)
    {x : α} (hx : text[i]? = some x) (hink : blank x = false) :
    ∃ span ∈ spans, span.1 ≤ i ∧ i < span.2 := by
  induction h with
  | nil _ hblank =>
      rw [hblank i hlow hhigh x hx] at hink
      cases hink
  | @cons a b span rest hle hgap hlt _ ih =>
      by_cases hbefore : i < span.1
      · rw [hgap i hlow hbefore x hx] at hink
        cases hink
      · by_cases hin : i < span.2
        · exact ⟨span, List.mem_cons_self, Nat.le_of_not_lt hbefore, hin⟩
        · obtain ⟨span, hspan, hbounds⟩ := ih (Nat.le_of_not_lt hin) hhigh
          exact ⟨span, List.mem_cons_of_mem _ hspan, hbounds⟩

/-- Every span is covered in its turn. -/
theorem flatMap {span : ι → Span} {span' : κ → Span} {items : List ι} {f : ι → List κ}
    (h : Cover blank text a b (items.map span))
    (hf : ∀ item ∈ items, Cover blank text (span item).1 (span item).2 ((f item).map span')) :
    Cover blank text a b ((items.flatMap f).map span') := by
  induction items generalizing a with
  | nil => exact h
  | cons item rest ih =>
      rw [List.map_cons] at h
      cases h with
      | cons hle hgap _ hrest =>
          rw [List.flatMap_cons, List.map_append]
          have hfirst := hf item List.mem_cons_self
          exact (hfirst.append (ih hrest
            (fun other hother => hf other (List.mem_cons_of_mem _ hother)))).extend hle hgap

/-- A cover may end earlier, behind its last span. -/
theorem restrict {b' : Nat} (h : Cover blank text a b spans) (hab : a ≤ b') (hle : b' ≤ b)
    (hstops : ∀ span ∈ spans, span.2 ≤ b') : Cover blank text a b' spans := by
  induction h with
  | nil _ hblank => exact .nil hab (hblank.mono (Nat.le_refl _) hle)
  | cons hlow hgap hlt _ ih =>
      obtain ⟨hfirst, hmore⟩ := List.forall_mem_cons.mp hstops
      exact .cons hlow hgap hlt (ih hfirst hle hmore)

end Cover

/-- Of disjoint spans at most one holds an index. -/
theorem eq_of_pairwise {span : ι → Span} {items : List ι}
    (h : items.Pairwise (fun first second => (span first).2 ≤ (span second).1)) {i : Nat}
    {first second : ι} (hfirst : first ∈ items) (hsecond : second ∈ items)
    (hi : (span first).1 ≤ i ∧ i < (span first).2)
    (hi' : (span second).1 ≤ i ∧ i < (span second).2) : first = second := by
  induction items with
  | nil => cases hfirst
  | cons item rest ih =>
      obtain ⟨hlater, hrest⟩ := List.pairwise_cons.mp h
      rcases List.mem_cons.mp hfirst with rfl | hold
      · rcases List.mem_cons.mp hsecond with rfl | hold'
        · rfl
        · have hafter := hlater second hold'
          omega
      · rcases List.mem_cons.mp hsecond with rfl | hold'
        · have hafter := hlater first hold
          omega
        · exact ih hrest hold hold'

/-! ## Groups -/

/-- From the start of the first to the stop of the last. -/
def hull (span : ι → Span) (first : ι) (rest : List ι) : Span :=
  ((span first).1, (span ((first :: rest).getLast (List.cons_ne_nil first rest))).2)

/-- The hulls of groups, none of which is empty. -/
def hulls (span : ι → Span) (groups : List (List ι)) : List Span :=
  groups.filterMap fun
    | [] => none
    | first :: rest => some (hull span first rest)

namespace Cover

variable {blank : α → Bool} {text : List α} {a b : Nat} {span : ι → Span}

/-- The spans of one group become its hull. -/
theorem group {first : ι} {rest more : List ι}
    (h : Cover blank text a b ((first :: (rest ++ more)).map span)) :
    a ≤ (span first).1 ∧ Blank blank text a (span first).1 ∧
      (hull span first rest).1 < (hull span first rest).2 ∧
      Cover blank text (hull span first rest).2 b (more.map span) := by
  induction rest generalizing a first with
  | nil =>
      rw [List.nil_append, List.map_cons] at h
      cases h with
      | cons hle hgap hlt hrest => exact ⟨hle, hgap, hlt, hrest⟩
  | cons second rest ih =>
      rw [List.cons_append, List.map_cons] at h
      cases h with
      | cons hle hgap hlt hrest =>
          obtain ⟨hnext, _, hhull, hcover⟩ := ih hrest
          have hsame : (hull span first (second :: rest)).2 = (hull span second rest).2 := by
            simp only [hull, List.getLast_cons_cons]
          rw [hsame]
          refine ⟨hle, hgap, ?_, hcover⟩
          have hstart : (hull span second rest).1 = (span second).1 := rfl
          have hfirst : (hull span first (second :: rest)).1 = (span first).1 := rfl
          omega

/-- The hulls of consecutive groups of a cover make a cover. -/
theorem groups {groups : List (List ι)} (h : Cover blank text a b (groups.flatten.map span)) :
    Cover blank text a b (hulls span groups) := by
  induction groups generalizing a with
  | nil => exact h
  | cons group rest ih =>
      cases group with
      | nil => exact ih h
      | cons first others =>
          rw [List.flatten_cons] at h
          obtain ⟨hle, hgap, hlt, hrest⟩ := Cover.group h
          exact .cons hle hgap hlt (ih hrest)

end Cover

end Spans
