import Mathlib.Data.List.GetD
import Mathlib.Data.List.Sort
import Mathlib.Order.Lattice

/-!
# Order statistics

What it is for an element of a list to have rank `k`, without sorting, and that the
sorted list has it in its place.
-/

namespace OrderStatistics

variable {α : Type} [LinearOrder α]

/-- `v` is a `k`th smallest element: at least `k` are at most `v`, and fewer are less. -/
structure IsRanked (xs : List α) (k : Nat) (v : α) : Prop where
  mem : v ∈ xs
  upTo : k ≤ xs.countP (fun x => decide (x ≤ v))
  below : xs.countP (fun x => decide (x < v)) < k

variable {xs ys : List α} {k i : Nat} {v w : α}

/-- Ranks do not depend on the order of the list. -/
theorem IsRanked.perm (h : IsRanked xs k v) (hperm : xs.Perm ys) : IsRanked ys k v := by
  refine ⟨hperm.mem_iff.1 h.mem, ?_, ?_⟩
  · rw [← hperm.countP_eq]
    exact h.upTo
  · rw [← hperm.countP_eq]
    exact h.below

/-- Of two values of one rank neither is the greater. -/
theorem IsRanked.le (hv : IsRanked xs k v) (hw : IsRanked xs k w) : w ≤ v := by
  by_contra hnot
  have hlt : v < w := not_le.1 hnot
  have hle : xs.countP (fun x => decide (x ≤ v)) ≤ xs.countP (fun x => decide (x < w)) := by
    apply List.countP_mono_left
    intro x _ hx
    simp only [decide_eq_true_eq] at hx ⊢
    exact lt_of_le_of_lt hx hlt
  have hup := hv.upTo
  have hbelow := hw.below
  omega

/-- There is one value of each rank. -/
theorem IsRanked.unique (hv : IsRanked xs k v) (hw : IsRanked xs k w) : v = w :=
  le_antisymm (hw.le hv) (hv.le hw)

/-- The element at place `i` of a sorted list is the one of rank `i + 1`: the first
`i + 1` are at most that element, and none from there on is less. -/
theorem isRanked_getElem (hsorted : ys.Pairwise (· ≤ ·)) (hi : i < ys.length) :
    IsRanked ys (i + 1) ys[i] := by
  refine ⟨List.getElem_mem hi, ?_, ?_⟩
  · have htake : ∀ x ∈ ys.take (i + 1), decide (x ≤ ys[i]) = true := by
      intro x hx
      obtain ⟨j, hj, rfl⟩ := List.mem_take_iff_getElem.1 hx
      rw [decide_eq_true_eq]
      rcases Nat.lt_or_eq_of_le (show j ≤ i by omega) with hlt | rfl
      · exact List.pairwise_iff_getElem.1 hsorted j i (by omega) hi hlt
      · exact le_refl _
    have hcount := (List.take_sublist (i + 1) ys).countP_le (p := fun x => decide (x ≤ ys[i]))
    rw [List.countP_eq_length.2 htake, List.length_take] at hcount
    omega
  · have hdrop : (ys.drop i).countP (fun x => decide (x < ys[i])) = 0 := by
      rw [List.countP_eq_zero]
      intro x hx
      obtain ⟨j, hj, rfl⟩ := List.mem_drop_iff_getElem.1 hx
      rw [decide_eq_true_eq]
      apply not_lt_of_ge
      rcases Nat.eq_zero_or_pos j with rfl | hpos
      · simp
      · exact List.pairwise_iff_getElem.1 hsorted i (i + j) hi (by omega) (by omega)
    have hsplit : ys.countP (fun x => decide (x < ys[i])) =
        (ys.take i).countP (fun x => decide (x < ys[i])) +
          (ys.drop i).countP (fun x => decide (x < ys[i])) := by
      rw [← List.countP_append, List.take_append_drop]
    have htake := List.countP_le_length (p := fun x => decide (x < ys[i])) (l := ys.take i)
    rw [List.length_take] at htake
    omega

/-- **Sorting puts every rank in its place.** -/
theorem isRanked_insertionSort (hi : i < xs.length) (d : α) :
    IsRanked xs (i + 1) ((xs.insertionSort (· ≤ ·)).getD i d) := by
  have hperm : (xs.insertionSort (· ≤ ·)).Perm xs := List.perm_insertionSort _ xs
  have hi' : i < (xs.insertionSort (· ≤ ·)).length := by
    rw [hperm.length_eq]
    exact hi
  rw [List.getD_eq_getElem _ _ hi']
  exact (isRanked_getElem (List.pairwise_insertionSort _ xs) hi').perm hperm

end OrderStatistics
