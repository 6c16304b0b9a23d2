import Mathlib.Algebra.Ring.Nat
import Mathlib.Data.Finset.Order
import ChallengeForge.KeyedTable

/-!
# Counting the rows of a table exactly

`KeyedTable` bounds what a write does to a count; here the counts are exact.

* `count_update` — a count after an `UPDATE` is a count before it, of another test;
* `map_update` — an `UPDATE` leaves the columns alone that it does not assign;
* `count_eq_add` — a test that splits into two splits its count;
* `count_key` — the test for one present key counts one;
* `count_classes` — the counts of the classes of a partition add up;
* `exists_le` — every column is bounded;
* `Replaces` — a write that exchanges one row for another of its key, with what it does
  to membership (`Replaces.mem_iff`) and to a sum over the rows (`Replaces.sum`);
* `rank_of_getElem?` — in an ordered read, the row at place `n` has exactly `n`
  selected rows before it, however the rows lie in the table;
* `filter_orderBy` — a selection may be made before an ordered read or after it.
-/

namespace Keyed

universe u v

/-- In a list ordered by an asymmetric relation, the entry at place `n` has
exactly `n` entries before it. -/
theorem countP_before_getElem? {α : Type u} {lt : α → α → Prop} [DecidableRel lt]
    (hasymm : ∀ a b, lt a b → ¬ lt b a) {l : List α} (hsorted : l.Pairwise lt)
    {n : Nat} {x : α} (hx : l[n]? = some x) : l.countP (fun y => lt y x) = n := by
  have hirrefl : ∀ a, ¬ lt a a := fun a h => hasymm a a h h
  induction l generalizing n with
  | nil => simp at hx
  | cons a rest ih =>
      obtain ⟨hfirst, hrest⟩ := List.pairwise_cons.mp hsorted
      cases n with
      | zero =>
          obtain rfl : a = x := by simpa using hx
          apply List.countP_eq_zero.mpr
          intro y hy hbefore
          have hbefore : lt y a := by simpa using hbefore
          rcases List.mem_cons.mp hy with rfl | hy
          · exact hirrefl y hbefore
          · exact hasymm a y (hfirst y hy) hbefore
      | succ m =>
          have hx : rest[m]? = some x := by simpa using hx
          have hax : lt a x := hfirst x (List.mem_of_getElem? hx)
          simp only [List.countP_cons, hax, decide_true, if_true]
          rw [ih hrest hx]

namespace Table

variable {Row : Type u} {Key : Type v} {key : Row → Key}

theorem count_congr {t : Table Row key} {p q : Row → Bool} (h : ∀ r ∈ t, p r = q r) :
    t.count p = t.count q := by
  apply List.countP_congr
  intro r hr
  rw [h r hr]

theorem count_pos_iff {t : Table Row key} {p : Row → Bool} :
    0 < t.count p ↔ ∃ r ∈ t, p r = true := by
  simp [count, List.countP_pos_iff, mem_iff]

/-- What a count reads after an update, told of the rows before it. -/
theorem count_update {t : Table Row key} {p q : Row → Bool} {f : Row → Row}
    (hkey : ∀ r, key (f r) = key r) :
    (t.update p f hkey).count q = t.count (fun r => if p r then q (f r) else q r) := by
  simp only [count, update, List.countP_map]
  apply List.countP_congr
  intro r _
  by_cases hp : p r = true <;> simp [hp]

/-- An update that leaves a column alone leaves its listing alone. -/
theorem map_update {t : Table Row key} {p : Row → Bool} {f : Row → Row} {Column : Type*}
    (hkey : ∀ r, key (f r) = key r) {g : Row → Column} (hg : ∀ r, g (f r) = g r) :
    (t.update p f hkey).rows.map g = t.rows.map g := by
  simp only [update, List.map_map]
  apply List.map_congr_left
  intro r _
  by_cases hp : p r = true <;> simp [hp, hg]

/-- A test that is one of two tests, never both, counts as their sum. -/
theorem count_eq_add {t : Table Row key} {p a b : Row → Bool}
    (hsplit : ∀ r ∈ t, p r = (a r || b r)) (hapart : ∀ r ∈ t, ¬ (a r = true ∧ b r = true)) :
    t.count p = t.count a + t.count b := by
  have hrows : ∀ rows : List Row, (∀ r ∈ rows, r ∈ t) →
      rows.countP p = rows.countP a + rows.countP b := by
    intro rows
    induction rows with
    | nil => simp
    | cons r rest ih =>
        intro hmem
        have hr := hmem r List.mem_cons_self
        have hone := hsplit r hr
        have hnot := hapart r hr
        have hrest := ih (fun s hs => hmem s (List.mem_cons_of_mem r hs))
        simp only [List.countP_cons]
        cases ha : a r <;> cases hb : b r <;> grind
  exact hrows t.rows (fun r hr => hr)

/-- The test for the key of a row that is there counts one. -/
theorem count_key [DecidableEq Key] {t : Table Row key} {x : Row} (hx : x ∈ t) :
    t.count (fun r => decide (key r = key x)) = 1 := by
  have hle : t.count (fun r => decide (key r = key x)) ≤ 1 := by
    apply count_le_one
    intro r hr s hs hrk hsk
    exact eq_of_key_eq hr hs ((of_decide_eq_true hrk).trans (of_decide_eq_true hsk).symm)
  have hpos : 0 < t.count (fun r => decide (key r = key x)) :=
    count_pos_iff.mpr ⟨x, hx, by simp⟩
  omega

/-- One row leaves the rows that pass a test. -/
theorem count_eq_without [DecidableEq Key] {t : Table Row key} {p : Row → Bool} {x : Row}
    (hx : x ∈ t) (hp : p x = true) :
    t.count p = t.count (fun r => p r && !decide (key r = key x)) + 1 := by
  have hone : t.count (fun r => p r && decide (key r = key x)) = 1 := by
    rw [← count_key hx]
    apply count_congr
    intro r hr
    by_cases hk : key r = key x
    · obtain rfl : r = x := eq_of_key_eq hr hx hk
      simp [hp]
    · simp [hk]
  rw [← hone]
  apply count_eq_add
  · intro r _
    cases p r <;> cases decide (key r = key x) <;> rfl
  · grind

/-- The classes of a partition have counts that add up to the whole. -/
theorem count_classes {ι : Type*} [DecidableEq ι] (t : Table Row key) (p : Row → Bool)
    (cls : Row → ι) (classes : List ι) (hnodup : classes.Nodup)
    (hall : ∀ r ∈ t, p r = true → cls r ∈ classes) :
    (classes.map (fun c => t.count (fun r => p r && decide (cls r = c)))).sum = t.count p := by
  induction classes generalizing p with
  | nil =>
      have hnone : t.count p = 0 := by
        rw [count_eq_zero_iff]
        intro r hr
        by_contra hp
        cases hall r hr (by simpa using hp)
      simp [hnone]
  | cons c rest ih =>
      obtain ⟨hc, hrest⟩ := List.nodup_cons.mp hnodup
      have hothers := ih (fun r => p r && !decide (cls r = c)) hrest (by
        intro r hr hp
        simp only [Bool.and_eq_true, Bool.not_eq_true', decide_eq_false_iff_not] at hp
        exact (List.mem_cons.mp (hall r hr hp.1)).resolve_left hp.2)
      have hsame : ∀ d ∈ rest,
          t.count (fun r => p r && decide (cls r = d)) =
          t.count (fun r => (p r && !decide (cls r = c)) && decide (cls r = d)) := by
        intro d hd
        have hne : d ≠ c := fun heq => hc (heq ▸ hd)
        apply count_congr
        intro r _
        by_cases hcls : cls r = d
        · simp [hcls, hne]
        · simp [hcls]
      rw [List.map_cons, List.sum_cons, List.map_congr_left hsame, hothers]
      symm
      apply count_eq_add
      · intro r _
        cases p r <;> cases decide (cls r = c) <;> rfl
      · grind

/-- A column of a table is bounded. -/
theorem exists_le {α : Type*} [Nonempty α] [Preorder α] [IsDirectedOrder α]
    (t : Table Row key) (column : Row → α) : ∃ bound, ∀ r ∈ t, column r ≤ bound := by
  classical
  obtain ⟨bound, hbound⟩ := (t.rows.map column).toFinset.exists_le
  refine ⟨bound, ?_⟩
  intro r hr
  exact hbound _ (List.mem_toFinset.mpr (List.mem_map_of_mem hr))

/-! ## Exchanging one row -/

/-- The table after `x` is exchanged for a row of its key. -/
structure Replaces [DecidableEq Key] (t t' : Table Row key) (x x' : Row) : Prop where
  mem : x ∈ t
  key_eq : key x' = key x
  rows : t'.rows = t.rows.map (fun r => if key r = key x then x' else r)

section Replaces

variable [DecidableEq Key] {t t' t'' : Table Row key} {x x' x'' : Row}

/-- An update that hits one row exchanges it. -/
theorem Replaces.of_update {p : Row → Bool} {f : Row → Row} (hkey : ∀ r, key (f r) = key r)
    (hx : x ∈ t) (hp : p x = true) (honly : ∀ r ∈ t, p r = true → key r = key x) :
    Replaces t (t.update p f hkey) x (f x) where
  mem := hx
  key_eq := hkey x
  rows := by
    apply List.map_congr_left
    intro r hr
    by_cases hk : key r = key x
    · obtain rfl : r = x := eq_of_key_eq hr hx hk
      simp [hp]
    · have hmiss : p r = false := by
        by_contra hhit
        exact hk (honly r hr (by simpa using hhit))
      simp [hmiss, hk]

theorem Replaces.mem_iff (h : Replaces t t' x x') {r : Row} :
    r ∈ t' ↔ r = x' ∨ r ∈ t ∧ key r ≠ key x := by
  rw [Table.mem_iff, h.rows, List.mem_map]
  constructor
  · intro hr
    obtain ⟨s, hs, rfl⟩ := hr
    by_cases hk : key s = key x
    · simp [hk]
    · rw [if_neg hk]
      exact Or.inr ⟨hs, hk⟩
  · rintro (rfl | ⟨hr, hk⟩)
    · exact ⟨x, h.mem, by simp⟩
    · exact ⟨r, hr, by simp [hk]⟩

theorem Replaces.keys (h : Replaces t t' x x') : t'.rows.map key = t.rows.map key := by
  rw [h.rows, List.map_map]
  apply List.map_congr_left
  intro r _
  by_cases hk : key r = key x <;> simp [hk, h.key_eq]

/-- The row that came is there. -/
theorem Replaces.mem' (h : Replaces t t' x x') : x' ∈ t' := h.mem_iff.mpr (Or.inl rfl)

theorem Replaces.trans (h : Replaces t t' x x') (h' : Replaces t' t'' x' x'') :
    Replaces t t'' x x'' where
  mem := h.mem
  key_eq := h'.key_eq.trans h.key_eq
  rows := by
    rw [h'.rows, h.rows, List.map_map]
    apply List.map_congr_left
    intro r _
    by_cases hk : key r = key x <;> simp [hk, h.key_eq]

/-- A sum over the rows changes by what the exchanged row changes. -/
theorem Replaces.sum (h : Replaces t t' x x') (weight : Row → Nat) :
    (t'.rows.map weight).sum + weight x = (t.rows.map weight).sum + weight x' := by
  have hlist : ∀ rows : List Row, (rows.map key).Nodup → x ∈ rows →
      ((rows.map (fun r => if key r = key x then x' else r)).map weight).sum + weight x =
        (rows.map weight).sum + weight x' := by
    intro rows
    induction rows with
    | nil =>
        intro _ hx
        cases hx
    | cons r rest ih =>
        intro hnodup hx
        obtain ⟨hr, hrest⟩ := List.nodup_cons.mp hnodup
        simp only [List.map_cons, List.sum_cons]
        by_cases hk : key r = key x
        · -- the rows behind have other keys
          obtain rfl : r = x := List.inj_on_of_nodup_map hnodup List.mem_cons_self hx hk
          have hsame : rest.map (fun s => if key s = key r then x' else s) = rest := by
            apply (List.map_congr_left _).trans (List.map_id rest)
            intro s hs
            have hne : key s ≠ key r := fun heq => hr (heq ▸ List.mem_map_of_mem hs)
            simp [hne]
          rw [hsame]
          simp only [if_true]
          omega
        · have hxrest : x ∈ rest :=
            (List.mem_cons.mp hx).resolve_left (fun heq => hk (by rw [heq]))
          have hsum := ih hrest hxrest
          simp only [hk, if_false]
          omega
  rw [h.rows]
  exact hlist t.rows t.nodup h.mem

end Replaces

/-! ## Places in an ordered read -/

section OrderBy

variable {le : Row → Row → Prop} [DecidableRel le] {t : Table Row key} {p : Row → Bool}

theorem length_orderBy : (t.orderBy le p).length = t.count p := by
  rw [orderBy, List.length_insertionSort, count, List.countP_eq_length_filter]
  rfl

theorem countP_orderBy (q : Row → Bool) :
    (t.orderBy le p).countP q = t.count (fun r => p r && q r) := by
  rw [orderBy, (List.perm_insertionSort le _).countP_eq, select, List.countP_filter, count]
  apply List.countP_congr
  intro r _
  simp [and_comm]

/-- An ordered read lists no row twice. -/
theorem nodup_orderBy : (t.orderBy le p).Nodup :=
  (List.perm_insertionSort le _).nodup_iff.mpr (t.nodup_select p)

variable [Std.Total le] [IsTrans Row le]

/-- An ordered read is ordered strictly, for the strict order of its rows. -/
theorem pairwise_lt_orderBy {lt : Row → Row → Prop}
    (hstrict : ∀ r s, le r s → key r ≠ key s → lt r s) :
    (t.orderBy le p).Pairwise lt := by
  have hsorted : (t.orderBy le p).Pairwise le := pairwise_orderBy
  have hnodup : (t.orderBy le p).Nodup := nodup_orderBy
  have hboth := hsorted.and hnodup
  refine hboth.imp_of_mem (fun {r s} hr hs hrs => hstrict r s hrs.1 (fun hk => ?_))
  exact hrs.2 (eq_of_key_eq (mem_orderBy.mp hr).1 (mem_orderBy.mp hs).1 hk)

/-- **Places are ranks.**  The row at place `n` of an ordered read has exactly
`n` of the selected rows before it. -/
theorem rank_of_getElem? (lt : Row → Row → Prop) [DecidableRel lt]
    (hasymm : ∀ a b, lt a b → ¬ lt b a) (hstrict : ∀ r s, le r s → key r ≠ key s → lt r s)
    {n : Nat} {x : Row} (hx : (t.orderBy le p)[n]? = some x) :
    t.count (fun r => p r && decide (lt r x)) = n := by
  have hcount : (t.orderBy le p).countP (fun r => decide (lt r x)) = n :=
    countP_before_getElem? hasymm (pairwise_lt_orderBy hstrict) hx
  rw [← hcount, countP_orderBy]

omit [Std.Total le] in
/-- A selection of a sorted list with one more entry. -/
theorem filter_orderedInsert {l : List Row} (hsorted : l.Pairwise le) (q : Row → Bool) (x : Row) :
    (l.orderedInsert le x).filter q =
      if q x then (l.filter q).orderedInsert le x else l.filter q := by
  induction l with
  | nil => by_cases hx : q x = true <;> simp [hx]
  | cons a rest ih =>
      obtain ⟨hfirst, hrest⟩ := List.pairwise_cons.mp hsorted
      by_cases hxa : le x a
      · rw [List.orderedInsert_cons_of_le le rest hxa]
        by_cases hx : q x = true
        · -- what is left stands behind `x` as well
          have hbehind : ∀ b ∈ (a :: rest).filter q, le x b := by
            intro b hb
            rcases List.mem_cons.mp (List.mem_of_mem_filter hb) with rfl | hb
            · exact hxa
            · exact IsTrans.trans x a b hxa (hfirst b hb)
          rw [List.filter_cons_of_pos hx, if_pos hx]
          cases hleft : (a :: rest).filter q with
          | nil => rfl
          | cons b left =>
              rw [hleft] at hbehind
              exact (List.orderedInsert_cons_of_le le left
                (hbehind b List.mem_cons_self)).symm
        · rw [List.filter_cons_of_neg hx, if_neg hx]
      · rw [List.orderedInsert_of_not_le le rest hxa]
        by_cases ha : q a = true
        · rw [List.filter_cons_of_pos ha, List.filter_cons_of_pos ha, ih hrest]
          split
          · rw [List.orderedInsert_of_not_le le _ hxa]
          · rfl
        · rw [List.filter_cons_of_neg ha, List.filter_cons_of_neg ha, ih hrest]

/-- Selecting before sorting and after it are the same. -/
theorem filter_insertionSort (l : List Row) (q : Row → Bool) :
    (l.insertionSort le).filter q = (l.filter q).insertionSort le := by
  induction l with
  | nil => rfl
  | cons x rest ih =>
      rw [List.insertionSort_cons, filter_orderedInsert (List.pairwise_insertionSort le rest), ih]
      by_cases hx : q x = true <;> simp [hx]

/-- **Selections commute with `ORDER BY`.** -/
theorem filter_orderBy (q : Row → Bool) :
    (t.orderBy le p).filter q = t.orderBy le (fun r => p r && q r) := by
  rw [orderBy, orderBy, filter_insertionSort, select, select, List.filter_filter]
  congr 2
  funext r
  exact Bool.and_comm _ _

end OrderBy

end Table

end Keyed
