import Mathlib.Algebra.Order.Group.Basic
import Mathlib.Data.List.Basic
import Mathlib.Algebra.Order.Module.Defs
import Mathlib.Tactic.Abel

/-!
# Watching a quantity by samples

A loop observes a quantity at times of its choosing, and reads it only where the last
reading is an interval old.  It stops at the first reading that is too high.  What it
has not noticed while it runs is a stretch shorter than the interval, however often the
quantity was too high in between.

Times are those of any ordered group.
-/

namespace ChallengeForge.SampledWatch

/-- A time, and what a reading at that time gives, if it gives anything. -/
abbrev Observation (Time Reading : Type) := Time × Option Reading

variable {Time Reading : Type} [AddCommGroup Time] [LinearOrder Time]

section Run

variable (interval : Time) (tooHigh : Reading → Prop) [DecidablePred tooHigh]

/-- The time of the last reading after one more observation, unless that is too high. -/
def next (last : Time) (seen : Observation Time Reading) : Option Time :=
  if interval ≤ seen.1 - last then
    if seen.2.any (fun reading => decide (tooHigh reading)) then none else some seen.1
  else some last

/-- The time of the last reading, unless one was too high. -/
def run : Time → List (Observation Time Reading) → Option Time
  | last, [] => some last
  | last, seen :: rest => (next interval tooHigh last seen).bind (fun last => run last rest)

end Run

variable {interval last last' : Time} {tooHigh : Reading → Prop} [DecidablePred tooHigh]
  {seen : Observation Time Reading} {observed early stretch later : List (Observation Time Reading)}

theorem run_append (last : Time) (early later : List (Observation Time Reading)) :
    run interval tooHigh last (early ++ later) =
      (run interval tooHigh last early).bind (fun last => run interval tooHigh last later) := by
  induction early generalizing last with
  | nil => rfl
  | cons seen rest ih =>
      rw [List.cons_append, run, run, Option.bind_assoc]
      exact Option.bind_congr (fun mid _ => ih mid)

/-- A reading is taken at the time of its observation, or not at all. -/
theorem next_cases (h : next interval tooHigh last seen = some last') :
    last' = seen.1 ∨ last' = last ∧ seen.1 - last < interval := by
  grind [next]

/-- The last reading is not in the future. -/
theorem last_le_of_run {t : Time} (h : run interval tooHigh last observed = some last')
    (hlast : last ≤ t) (hobserved : ∀ seen ∈ observed, seen.1 ≤ t) : last' ≤ t := by
  induction observed generalizing last with
  | nil =>
      rw [← Option.some.inj h]
      exact hlast
  | cons seen rest ih =>
      obtain ⟨mid, hmid, hrest⟩ := Option.bind_eq_some_iff.mp h
      obtain ⟨hseen, hothers⟩ := List.forall_mem_cons.mp hobserved
      refine ih hrest ?_ hothers
      rcases next_cases hmid with rfl | ⟨rfl, -⟩
      · exact hseen
      · exact hlast

/-- Where every reading would be too high, none is taken. -/
theorem unread_of_run (h : run interval tooHigh last stretch = some last')
    (hover : ∀ seen ∈ stretch, ∃ reading ∈ seen.2, tooHigh reading) :
    ∀ seen ∈ stretch, seen.1 - last < interval := by
  induction stretch generalizing last with
  | nil => simp
  | cons seen rest ih =>
      obtain ⟨mid, hmid, hrest⟩ := Option.bind_eq_some_iff.mp h
      obtain ⟨⟨reading, hreading, hhigh⟩, hothers⟩ := List.forall_mem_cons.mp hover
      have hsome : seen.2 = some reading := hreading
      have hskipped : seen.1 - last < interval ∧ mid = last := by
        grind [next]
      obtain ⟨hsoon, rfl⟩ := hskipped
      exact List.forall_mem_cons.mpr ⟨hsoon, ih hrest hothers⟩

variable [IsOrderedAddMonoid Time]

/-- **What goes unnoticed** is too high for less than the interval. -/
theorem unnoticed_lt (hordered : (early ++ stretch ++ later).Pairwise (fun a b => a.1 ≤ b.1))
    (hlast : ∀ seen ∈ stretch, last ≤ seen.1)
    (h : run interval tooHigh last (early ++ stretch ++ later) = some last')
    (hover : ∀ seen ∈ stretch, ∃ reading ∈ seen.2, tooHigh reading) :
    ∀ a ∈ stretch, ∀ b ∈ stretch, b.1 < a.1 + interval := by
  intro a ha b hb
  rw [run_append, run_append] at h
  obtain ⟨after, hrun, -⟩ := Option.bind_eq_some_iff.mp h
  obtain ⟨before, hearly, hstretch⟩ := Option.bind_eq_some_iff.mp hrun
  have hbefore : before ≤ a.1 := by
    refine last_le_of_run hearly (hlast a ha) (fun seen hseen => ?_)
    exact (List.pairwise_append.mp (List.pairwise_append.mp hordered).1).2.2 seen hseen a ha
  have hsoon := unread_of_run hstretch hover b hb
  calc b.1 < interval + before := sub_lt_iff_lt_add.mp hsoon
    _ ≤ interval + a.1 := by gcongr
    _ = a.1 + interval := add_comm _ _

/-- The same of a loop that sees more than the quantity. -/
theorem unnoticed_view_lt {Seen : Type} {seen : List Seen} {view : Seen → Observation Time Reading}
    (hordered : seen.Pairwise (fun a b => (view a).1 ≤ (view b).1))
    (hlast : ∀ a ∈ seen, last ≤ (view a).1)
    (h : run interval tooHigh last (seen.map view) = some last') {early stretch later : List Seen}
    (hsplit : seen = early ++ stretch ++ later)
    (hover : ∀ a ∈ stretch, ∃ reading ∈ (view a).2, tooHigh reading) :
    ∀ a ∈ stretch, ∀ b ∈ stretch, (view b).1 < (view a).1 + interval := by
  intro a ha b hb
  have hmap : seen.map view = early.map view ++ stretch.map view ++ later.map view := by
    rw [hsplit, List.map_append, List.map_append]
  rw [hmap] at h
  refine unnoticed_lt ?_ ?_ h ?_ (view a) (List.mem_map_of_mem ha) (view b) (List.mem_map_of_mem hb)
  · rw [← hmap, List.pairwise_map]
    exact hordered
  · rintro _ hview
    obtain ⟨c, hc, rfl⟩ := List.mem_map.mp hview
    exact hlast c (by simp [hsplit, hc])
  · rintro _ hview
    obtain ⟨c, hc, rfl⟩ := List.mem_map.mp hview
    exact hover c hc

/-- Times that lie a gap apart fill the span between the first and the last. -/
theorem length_nsmul_le {gap : Time} {times : List Time} {start finish : Time}
    (hspaced : (start :: times).Pairwise (fun a b => a + gap ≤ b))
    (hfinish : ∀ time ∈ start :: times, time ≤ finish) : times.length • gap ≤ finish - start := by
  induction times generalizing start with
  | nil =>
      rw [List.length_nil, zero_nsmul, sub_nonneg]
      exact hfinish start (List.mem_singleton.mpr rfl)
  | cons time rest ih =>
      obtain ⟨hstart, hrest⟩ := List.pairwise_cons.mp hspaced
      have hfill := ih hrest (fun other hother => hfinish other (List.mem_cons_of_mem _ hother))
      have hgap := hstart time (List.mem_cons_self ..)
      rw [List.length_cons, succ_nsmul]
      calc rest.length • gap + gap ≤ (finish - time) + (time - start) := by
            refine add_le_add hfill ?_
            rw [le_sub_iff_add_le, add_comm]
            exact hgap
        _ = finish - start := by abel

end ChallengeForge.SampledWatch
