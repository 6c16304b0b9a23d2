import Mathlib.Data.List.DropRight
import Mathlib.Data.List.Infix
import Mathlib.Order.Lattice

/-!
# Outlines

A document's headings come in a row, each with a level; a heading closes the
sections opened by earlier headings of its level or a greater one.  `chain` is
what is still open after a row of headings, said of the row as a whole;
`enter` is what a scanner does that keeps the open sections on a stack.

* `pairwise_chain` — the levels of a chain increase;
* `enter_chain` — entering a heading takes the chain of a row to the chain of
  the row that the heading extends.

A row of section paths is followed down by `deepest`, which goes on to a path
that extends the one it holds and stays where it is otherwise.

* `deepest_eq_iff` — it ends at a path exactly when no path it would have gone
  on to is outside that one.
-/

namespace Outline

universe u v

variable {Level : Type u} {Title : Type v} [LinearOrder Level]

/-- The headings that no later heading of a smaller or equal level follows. -/
def chain : List (Level × Title) → List (Level × Title)
  | [] => []
  | heading :: rest =>
      if ∀ later ∈ rest, heading.1 < later.1 then heading :: chain rest else chain rest

/-- Close the sections of the heading's level and below, and open its own. -/
def enter (stack : List (Level × Title)) (heading : Level × Title) : List (Level × Title) :=
  stack.rdropWhile (fun opened => decide (heading.1 ≤ opened.1)) ++ [heading]

/-- A heading stays open while no later one is as high. -/
theorem chain_cons (heading : Level × Title) (rest : List (Level × Title)) :
    chain (heading :: rest) =
      if ∀ later ∈ rest, heading.1 < later.1 then heading :: chain rest else chain rest := rfl

/-- The open headings are some of the headings, in their order. -/
theorem chain_sublist (headings : List (Level × Title)) : (chain headings).Sublist headings := by
  induction headings with
  | nil => exact .slnil
  | cons heading rest ih =>
      rw [chain_cons]
      split
      · exact ih.cons_cons heading
      · exact ih.cons heading

/-- The levels of a chain increase. -/
theorem pairwise_chain (headings : List (Level × Title)) :
    (chain headings).Pairwise (fun outer inner => outer.1 < inner.1) := by
  induction headings with
  | nil => exact .nil
  | cons heading rest ih =>
      rw [chain_cons]
      split
      · rename_i hopen
        exact .cons (fun later hlater => hopen later ((chain_sublist rest).subset hlater)) ih
      · exact ih

/-- A new heading closes those that are not above it. -/
theorem chain_append_singleton (headings : List (Level × Title)) (heading : Level × Title) :
    chain (headings ++ [heading]) =
      (chain headings).filter (fun opened => opened.1 < heading.1) ++ [heading] := by
  induction headings with
  | nil => simp [chain]
  | cons first rest ih =>
      rw [List.cons_append, chain_cons, ih, chain_cons]
      by_cases hopen : ∀ later ∈ rest, first.1 < later.1
      · rw [if_pos hopen]
        by_cases hbelow : first.1 < heading.1
        · have hall : ∀ later ∈ rest ++ [heading], first.1 < later.1 :=
            List.forall_mem_append.mpr ⟨hopen, by simpa using hbelow⟩
          rw [if_pos hall, List.filter_cons_of_pos (by simpa using hbelow), List.cons_append]
        · have hnot : ¬ ∀ later ∈ rest ++ [heading], first.1 < later.1 :=
            fun hall => hbelow (hall heading (by simp))
          rw [if_neg hnot, List.filter_cons_of_neg (by simpa using hbelow)]
      · have hnot : ¬ ∀ later ∈ rest ++ [heading], first.1 < later.1 :=
          fun hall => hopen (fun later hlater => hall later (List.mem_append_left _ hlater))
        rw [if_neg hopen, if_neg hnot]

/-- On increasing levels, dropping from the end is filtering. -/
theorem rdropWhile_of_pairwise {stack : List (Level × Title)}
    (hstack : stack.Pairwise (fun outer inner => outer.1 < inner.1)) (level : Level) :
    stack.rdropWhile (fun opened => decide (level ≤ opened.1)) =
      stack.filter (fun opened => opened.1 < level) := by
  induction stack using List.reverseRecOn with
  | nil => rfl
  | append_singleton stack top ih =>
      rw [List.pairwise_append] at hstack
      obtain ⟨hbefore, -, htop⟩ := hstack
      by_cases hdrop : level ≤ top.1
      · rw [List.rdropWhile_concat_pos _ _ _ (by simpa using hdrop), ih hbefore,
          List.filter_append]
        simp [not_lt_of_ge hdrop]
      · have hall : ∀ opened ∈ stack ++ [top], opened.1 < level := by
          intro opened hopened
          rcases List.mem_append.mp hopened with hold | hlast
          · exact (htop opened hold top (by simp)).trans (lt_of_not_ge hdrop)
          · rw [List.mem_singleton.mp hlast]
            exact lt_of_not_ge hdrop
        rw [List.rdropWhile_concat_neg _ _ _ (by simpa using hdrop), eq_comm,
          List.filter_eq_self]
        intro opened hopened
        simpa using hall opened hopened

/-- Entering a heading extends the row by it. -/
theorem enter_chain (headings : List (Level × Title)) (heading : Level × Title) :
    enter (chain headings) heading = chain (headings ++ [heading]) := by
  rw [enter, rdropWhile_of_pairwise (pairwise_chain headings), chain_append_singleton]

/-! ## Following a row of paths down -/

variable {α : Type u} [DecidableEq α]

/-- Go on to a path that extends the present one. -/
def deepen (path next : List α) : List α := if path <+: next then next else path

/-- The deepest path that is met on the way, never left once a sibling follows. -/
def deepest (paths : List (List α)) : List α := paths.foldl deepen []

/-- A longer path replaces its prefix. -/
theorem deepen_of_prefix {path next : List α} (h : path <+: next) : deepen path next = next :=
  if_pos h

/-- What is kept only grows. -/
theorem prefix_deepen (path next : List α) : path <+: deepen path next := by
  unfold deepen
  split
  · assumption
  · exact List.prefix_rfl

/-- One more path. -/
theorem deepest_snoc (paths : List (List α)) (next : List α) :
    deepest (paths ++ [next]) = deepen (deepest paths) next := by
  simp [deepest]

/-- More paths make it grow. -/
theorem deepest_prefix_append (before after : List (List α)) :
    deepest before <+: deepest (before ++ after) := by
  induction after using List.reverseRecOn with
  | nil => rw [List.append_nil]
  | append_singleton after next ih =>
      rw [← List.append_assoc, deepest_snoc]
      exact ih.trans (prefix_deepen _ next)

/-- It is one of the paths. -/
theorem deepest_mem {paths : List (List α)} (h : paths ≠ []) : deepest paths ∈ paths := by
  induction paths using List.reverseRecOn with
  | nil => exact absurd rfl h
  | append_singleton paths next ih =>
      rw [deepest_snoc, deepen]
      split
      · simp
      · rename_i hstays
        have hne : paths ≠ [] := by
          rintro rfl
          exact hstays List.nil_prefix
        exact List.mem_append_left _ (ih hne)

/-- As long as it stays on the way to `goal`, it has gone as far down that way
as any path of the row. -/
theorem prefix_deepest {paths : List (List α)} {goal path : List α}
    (hgoal : deepest paths <+: goal) (hpath : path ∈ paths) (hway : path <+: goal) :
    path <+: deepest paths := by
  induction paths using List.reverseRecOn with
  | nil => cases hpath
  | append_singleton paths next ih =>
      rw [deepest_snoc] at hgoal ⊢
      have hbefore : deepest paths <+: goal := (prefix_deepen _ next).trans hgoal
      rcases List.mem_append.mp hpath with hold | hnew
      · exact (ih hbefore hold).trans (prefix_deepen _ next)
      · rw [List.mem_singleton.mp hnew] at hway ⊢
        unfold deepen
        split
        · exact List.prefix_rfl
        · rename_i hstays
          exact (List.prefix_or_prefix_of_prefix hway hbefore).resolve_right hstays

/-- No path of the row that properly extends all earlier paths on the way to
`goal` leads off that way. -/
def KeepsTo (goal : List α) (paths : List (List α)) : Prop :=
  ∀ before path after, paths = before ++ path :: after →
    (∀ earlier ∈ before, earlier <+: goal → earlier <+: path ∧ earlier ≠ path) → path <+: goal

/-- When it leads to a given path. -/
theorem deepest_prefix_iff {goal : List α} {paths : List (List α)} :
    deepest paths <+: goal ↔ KeepsTo goal paths := by
  constructor
  · intro hgoal before path after hsplit hextends
    have hbefore : deepest before <+: goal := by
      rw [hsplit] at hgoal
      exact (deepest_prefix_append before (path :: after)).trans hgoal
    have hdown : deepest before <+: path := by
      by_cases hne : before = []
      · rw [hne]
        exact List.nil_prefix
      · exact (hextends _ (deepest_mem hne) hbefore).1
    have htaken : deepest (before ++ [path]) = path := by
      rw [deepest_snoc, deepen_of_prefix hdown]
    have hstep := deepest_prefix_append (before ++ [path]) after
    rw [htaken, List.append_assoc, List.singleton_append, ← hsplit] at hstep
    exact hstep.trans hgoal
  · intro hkeeps
    have hall : ∀ before, before <+: paths → deepest before <+: goal := by
      intro before
      induction before using List.reverseRecOn with
      | nil => exact fun _ => List.nil_prefix
      | append_singleton before path ih =>
          intro hprefix
          have hbefore := ih ((List.prefix_append before [path]).trans hprefix)
          rw [deepest_snoc]
          unfold deepen
          split
          · rename_i hdown
            by_cases hsame : deepest before = path
            · exact hsame ▸ hbefore
            · obtain ⟨after, hsplit⟩ := hprefix
              rw [List.append_assoc, List.singleton_append] at hsplit
              refine hkeeps before path after hsplit.symm (fun earlier hearlier hway => ?_)
              have hshort := prefix_deepest hbefore hearlier hway
              refine ⟨hshort.trans hdown, fun heq => hsame ?_⟩
              exact hdown.eq_of_length_le (heq ▸ hshort).length_le
          · exact hbefore
    exact hall paths List.prefix_rfl

/-- **Where the descent ends.** -/
theorem deepest_eq_iff (paths : List (List α)) (goal : List α) :
    deepest (paths ++ [goal]) = goal ↔ KeepsTo goal (paths ++ [goal]) := by
  rw [← deepest_prefix_iff, deepest_snoc]
  constructor
  · intro heq
    rw [heq]
  · intro hgoal
    have hbefore := (prefix_deepen (deepest paths) goal).trans hgoal
    exact deepen_of_prefix hbefore

end Outline
