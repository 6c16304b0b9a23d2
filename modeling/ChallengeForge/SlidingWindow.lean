import Mathlib.Data.List.DropRight
import Mathlib.Order.Lattice

/-!
# Sliding windows

A queue whose entries are in the order of a key, and an eviction that drops from its
left what is below a cutoff, then what there is no room for.  On such a queue an
eviction drops a number of entries, and a later eviction drops as many whether or not
the earlier ones have been made.

* `evict_eq_recent` — what an eviction leaves, without the loops;
* `evict_evict_append` — an eviction, and entries that follow it, under a later one;
* `evict_foldl` — any number of them.
-/

namespace SlidingWindow

variable {α κ : Type} [LinearOrder κ]

/-- Drop what is below the cutoff from the left, then keep the last `room` entries. -/
def evict (key : α → κ) (cutoff : κ) (room : Nat) (xs : List α) : List α :=
  (xs.dropWhile (fun x => decide (key x < cutoff))).rtake room

/-- The last `room` of the entries that are not below the cutoff. -/
def recent (key : α → κ) (cutoff : κ) (room : Nat) (xs : List α) : List α :=
  (xs.filter (fun x => decide (cutoff ≤ key x))).rtake room

/-- How many entries are below the cutoff. -/
def stale (key : α → κ) (cutoff : κ) (xs : List α) : Nat :=
  xs.countP (fun x => decide (key x < cutoff))

/-- The entries are in the order of their keys. -/
def Ordered (key : α → κ) (xs : List α) : Prop := xs.Pairwise (fun a b => key a ≤ key b)

variable {key : α → κ} {cutoff cutoff' : κ} {room n : Nat} {x : α} {xs ys : List α}

/-- What follows the first entry is ordered. -/
theorem Ordered.of_cons (h : Ordered key (x :: xs)) : Ordered key xs := (List.pairwise_cons.1 h).2

/-- So is every selection of the entries. -/
theorem Ordered.sublist (h : Ordered key xs) (hsub : ys.Sublist xs) : Ordered key ys :=
  List.Pairwise.sublist hsub h

/-- A stale first entry counts. -/
theorem stale_cons_of_lt (h : key x < cutoff) :
    stale key cutoff (x :: xs) = stale key cutoff xs + 1 := by
  simp [stale, h]

/-- Behind an entry that is not below the cutoff, none is. -/
theorem Ordered.stale_eq_zero (hordered : Ordered key (x :: xs)) (h : ¬ key x < cutoff) :
    stale key cutoff (x :: xs) = 0 := by
  unfold stale
  rw [List.countP_eq_zero]
  intro y hy
  have hle : key x ≤ key y := by
    rcases List.mem_cons.1 hy with rfl | hmem
    · exact le_refl _
    · exact (List.pairwise_cons.1 hordered).1 y hmem
  simpa using (not_lt.1 h).trans hle

/-- Behind an entry that is not stale none is. -/
theorem Ordered.stale_tail_eq_zero (hordered : Ordered key (x :: xs)) (h : ¬ key x < cutoff) :
    stale key cutoff xs = 0 := by
  have hzero := hordered.stale_eq_zero h
  simpa [stale, h] using hzero

/-- In an ordered list the stale entries are the first ones. -/
theorem Ordered.dropWhile_eq (hordered : Ordered key xs) (cutoff : κ) :
    xs.dropWhile (fun x => decide (key x < cutoff)) = xs.drop (stale key cutoff xs) := by
  induction xs with
  | nil => rfl
  | cons x xs ih =>
    by_cases h : key x < cutoff
    · rw [stale_cons_of_lt h, List.drop_succ_cons, ← ih hordered.of_cons]
      simp [h]
    · rw [hordered.stale_eq_zero h, List.drop_zero]
      simp [h]

/-- Those that are left are the rest. -/
theorem Ordered.filter_eq (hordered : Ordered key xs) (cutoff : κ) :
    xs.filter (fun x => decide (cutoff ≤ key x)) = xs.drop (stale key cutoff xs) := by
  induction xs with
  | nil => rfl
  | cons x xs ih =>
    by_cases h : key x < cutoff
    · rw [stale_cons_of_lt h, List.drop_succ_cons, ← ih hordered.of_cons]
      simp [h]
    · have hrest := ih hordered.of_cons
      rw [hordered.stale_tail_eq_zero h, List.drop_zero] at hrest
      rw [hordered.stale_eq_zero h, List.drop_zero, List.filter_cons_of_pos, hrest]
      simpa using h

/-- **What an eviction leaves.** -/
theorem evict_eq_recent (hordered : Ordered key xs) (cutoff : κ) (room : Nat) :
    evict key cutoff room xs = recent key cutoff room xs := by
  rw [evict, recent, hordered.dropWhile_eq, hordered.filter_eq]

/-! ## Evictions one after the other -/

/-- Dropping entries from the front drops stale ones first. -/
theorem Ordered.stale_drop (hordered : Ordered key xs) (cutoff : κ) (n : Nat) :
    stale key cutoff (xs.drop n) = stale key cutoff xs - n := by
  induction xs generalizing n with
  | nil => simp [stale]
  | cons x xs ih =>
    cases n with
    | zero => rfl
    | succ n =>
      rw [List.drop_succ_cons, ih hordered.of_cons]
      by_cases h : key x < cutoff
      · rw [stale_cons_of_lt h]
        omega
      · rw [hordered.stale_eq_zero h, hordered.stale_tail_eq_zero h]
        omega

/-- A later cutoff makes more entries stale, and so do more entries. -/
theorem stale_mono (h : cutoff ≤ cutoff') (xs ys : List α) :
    stale key cutoff xs ≤ stale key cutoff' (xs ++ ys) := by
  have hle : stale key cutoff xs ≤ stale key cutoff' xs := by
    apply List.countP_mono_left
    intro x _ hx
    simp only [decide_eq_true_eq] at hx ⊢
    exact lt_of_lt_of_le hx h
  unfold stale at hle ⊢
  rw [List.countP_append]
  omega

/-- How many entries an eviction drops. -/
def evicted (key : α → κ) (cutoff : κ) (room : Nat) (xs : List α) : Nat :=
  max (stale key cutoff xs) (xs.length - room)

/-- No more entries are stale than there are. -/
theorem stale_le_length (xs : List α) : stale key cutoff xs ≤ xs.length := List.countP_le_length

/-- Later evictions reach further. -/
theorem evicted_mono (h : cutoff ≤ cutoff') (xs ys : List α) :
    evicted key cutoff room xs ≤ evicted key cutoff' room (xs ++ ys) := by
  have hstale := @stale_mono α κ _ key cutoff cutoff' h xs ys
  unfold evicted
  rw [List.length_append]
  omega

/-- An eviction drops a number of entries from the front. -/
theorem evict_eq_drop (hordered : Ordered key xs) (cutoff : κ) (room : Nat) :
    evict key cutoff room xs = xs.drop (evicted key cutoff room xs) := by
  have hle := @stale_le_length α κ _ key cutoff xs
  rw [evict, hordered.dropWhile_eq, List.rtake, List.drop_drop, List.length_drop, evicted]
  congr 1
  omega

/-- An eviction makes up for entries that it would have dropped and are missing. -/
theorem evict_drop (hordered : Ordered key xs) (h : n ≤ evicted key cutoff room xs) :
    evict key cutoff room (xs.drop n) = evict key cutoff room xs := by
  have hdropped : Ordered key (xs.drop n) := hordered.sublist (List.drop_sublist n xs)
  rw [evict_eq_drop hdropped, evict_eq_drop hordered, List.drop_drop]
  congr 1
  unfold evicted at h ⊢
  rw [hordered.stale_drop, List.length_drop]
  omega

/-- Evicting early, and again after more entries came, is evicting once at the end. -/
theorem evict_evict_append (hordered : Ordered key (xs ++ ys)) (h : cutoff ≤ cutoff') :
    evict key cutoff' room (evict key cutoff room xs ++ ys) =
      evict key cutoff' room (xs ++ ys) := by
  have hxs : Ordered key xs := hordered.sublist (List.sublist_append_left xs ys)
  have hle : evicted key cutoff room xs ≤ xs.length := by
    have := @stale_le_length α κ _ key cutoff xs
    unfold evicted
    omega
  rw [evict_eq_drop hxs, ← List.drop_append_of_le_length hle]
  exact evict_drop hordered (evicted_mono h xs ys)

/-- **Evictions can be put off.**  Entries arrive in turns, each of which ends with an
eviction; under a later eviction the queue is as if there had been none before. -/
theorem evict_foldl {turns : List (κ × List α)} {kept : List α}
    (hordered : Ordered key (kept ++ turns.flatMap Prod.snd ++ ys))
    (hcutoffs : ∀ turn ∈ turns, turn.1 ≤ cutoff) :
    evict key cutoff room
        (turns.foldl (fun kept turn => evict key turn.1 room (kept ++ turn.2)) kept ++ ys) =
      evict key cutoff room (kept ++ turns.flatMap Prod.snd ++ ys) := by
  induction turns generalizing kept with
  | nil => simp
  | cons turn turns ih =>
    have hall : kept ++ (turn :: turns).flatMap Prod.snd ++ ys =
        (kept ++ turn.2) ++ (turns.flatMap Prod.snd ++ ys) := by
      simp
    rw [hall] at hordered ⊢
    have hfirst : Ordered key (kept ++ turn.2) :=
      hordered.sublist (List.sublist_append_left _ _)
    have hkept : Ordered key
        (evict key turn.1 room (kept ++ turn.2) ++ turns.flatMap Prod.snd ++ ys) := by
      rw [evict_eq_drop hfirst, List.append_assoc]
      apply hordered.sublist
      exact (List.drop_sublist _ _).append_right _
    have hlater : ∀ later ∈ turns, later.1 ≤ cutoff := by
      intro later hmem
      exact hcutoffs later (List.mem_cons_of_mem _ hmem)
    rw [List.foldl_cons, ih hkept hlater, List.append_assoc]
    exact evict_evict_append hordered (hcutoffs turn List.mem_cons_self)

end SlidingWindow
