import Mathlib.Data.Finset.Card
import Mathlib.Data.List.Nodup
import Mathlib.Data.List.Sort
import Mathlib.Data.List.Count

/-!
# Tables with a primary key

A table is a list of rows no two of which share their key.  The uniqueness is
a field of the structure, so no statement about a table has to carry it.

Reads are `find?`, `select` and `count`; writes are `insert`, which refuses a
key that is taken, `delete`, and `update p f`, which rewrites the rows passing
`p` and leaves their keys alone (an `UPDATE … WHERE p`).  The lemmas say what each
write does to each read, so that proofs about a store never open a table.

`orderBy` is `ORDER BY` under a total order; `orderBy_first` and
`orderBy_second` say what the first and second row of the result are.
-/

namespace Keyed

universe u v

/-- Rows told apart by their key. -/
structure Table (Row : Type u) {Key : Type v} (key : Row → Key) where
  rows : List Row
  nodup : (rows.map key).Nodup

namespace Table

variable {Row : Type u} {Key : Type v} {key : Row → Key}

/-- The table without rows. -/
def empty : Table Row key := ⟨[], by simp⟩

/-- A row is in the table. -/
instance : Membership Row (Table Row key) := ⟨fun t r => r ∈ t.rows⟩

/-- A row is in the table when it is listed. -/
theorem mem_iff {t : Table Row key} {r : Row} : r ∈ t ↔ r ∈ t.rows := Iff.rfl

instance (t : Table Row key) (p : Row → Prop) [DecidablePred p] :
    Decidable (∀ r ∈ t, p r) := inferInstanceAs (Decidable (∀ r ∈ t.rows, p r))

instance (t : Table Row key) (p : Row → Prop) [DecidablePred p] :
    Decidable (∃ r ∈ t, p r) := inferInstanceAs (Decidable (∃ r ∈ t.rows, p r))

/-- Tables with the same rows are equal. -/
theorem ext {t t' : Table Row key} (h : t.rows = t'.rows) : t = t' := by
  cases t; cases t'; cases h; rfl

/-- The empty table has no row. -/
@[simp] theorem not_mem_empty (r : Row) : ¬ r ∈ (empty : Table Row key) := by
  simp [mem_iff, empty]

/-- A key names at most one row. -/
theorem eq_of_key_eq {t : Table Row key} {r s : Row} (hr : r ∈ t) (hs : s ∈ t)
    (h : key r = key s) : r = s :=
  List.inj_on_of_nodup_map t.nodup hr hs h

/-- The rows passing a test, in table order. -/
def select (t : Table Row key) (p : Row → Bool) : List Row := t.rows.filter p

/-- The number of rows passing a test. -/
def count (t : Table Row key) (p : Row → Bool) : Nat := t.rows.countP p

/-- A selection holds the rows that pass. -/
@[simp] theorem mem_select {t : Table Row key} {p : Row → Bool} {r : Row} :
    r ∈ t.select p ↔ r ∈ t ∧ p r = true := by
  simp [select, mem_iff]

/-- No row is selected twice. -/
theorem nodup_select (t : Table Row key) (p : Row → Bool) : (t.select p).Nodup :=
  (List.Nodup.of_map _ t.nodup).filter _

/-- Nothing is counted in an empty table. -/
@[simp] theorem count_empty (p : Row → Bool) : (empty : Table Row key).count p = 0 := rfl

/-- Nothing is counted when no row passes. -/
theorem count_eq_zero_iff {t : Table Row key} {p : Row → Bool} :
    t.count p = 0 ↔ ∀ r ∈ t, p r = false := by
  simp [count, List.countP_eq_zero, mem_iff]

/-- A weaker test counts at least as many. -/
theorem count_mono {t : Table Row key} {p q : Row → Bool}
    (h : ∀ r ∈ t, p r = true → q r = true) : t.count p ≤ t.count q :=
  List.countP_mono_left h

/-- Things that have rows of their own are no more than there are rows. -/
theorem card_le_count {ι : Type*} {t : Table Row key} {p : Row → Bool} (things : Finset ι)
    (f : ι → Row) (hf : ∀ i ∈ things, f i ∈ t ∧ p (f i) = true)
    (hinj : ∀ i ∈ things, ∀ j ∈ things, f i = f j → i = j) : things.card ≤ t.count p := by
  classical
  have hmaps : ∀ i ∈ things, f i ∈ (t.select p).toFinset := by
    intro i hi
    exact List.mem_toFinset.mpr (mem_select.mpr (hf i hi))
  calc things.card ≤ (t.select p).toFinset.card :=
        Finset.card_le_card_of_injOn f hmaps (fun i hi j hj => hinj i hi j hj)
    _ = (t.select p).length := List.toFinset_card_of_nodup (t.nodup_select p)
    _ = t.count p := List.countP_eq_length_filter.symm

/-- At most one row passes a test when any two that pass are equal. -/
theorem count_le_one {t : Table Row key} {p : Row → Bool}
    (h : ∀ r ∈ t, ∀ s ∈ t, p r = true → p s = true → r = s) : t.count p ≤ 1 := by
  rw [count, List.countP_eq_length_filter]
  have hnodup : (t.rows.filter p).Nodup := t.nodup_select p
  have hall : ∀ r ∈ t.rows.filter p, ∀ s ∈ t.rows.filter p, r = s := by
    intro r hr s hs
    obtain ⟨hr, hpr⟩ := List.mem_filter.mp hr
    obtain ⟨hs, hps⟩ := List.mem_filter.mp hs
    exact h r hr s hs hpr hps
  cases hrows : t.rows.filter p with
  | nil => simp
  | cons r rest =>
      cases rest with
      | nil => simp
      | cons s rest =>
          rw [hrows] at hnodup hall
          have hrs : r = s := hall r (by simp) s (by simp)
          simp [hrs] at hnodup

section Lookup

variable [DecidableEq Key]

/-- The row with a given key. -/
def find? (t : Table Row key) (k : Key) : Option Row :=
  t.rows.find? (fun r => decide (key r = k))

/-- Nothing is found in an empty table. -/
@[simp] theorem find?_empty (k : Key) : (empty : Table Row key).find? k = none := rfl

/-- The row of a key is found where there is one. -/
theorem find?_eq_some_iff {t : Table Row key} {k : Key} {r : Row} :
    t.find? k = some r ↔ r ∈ t ∧ key r = k := by
  constructor
  · intro h
    exact ⟨List.mem_of_find?_eq_some h, by simpa using List.find?_some h⟩
  · intro h
    obtain ⟨hr, rfl⟩ := h
    cases hfound : t.find? (key r) with
    | none =>
        have := List.find?_eq_none.mp hfound r hr
        simp at this
    | some s =>
        have hkey : key s = key r := by simpa using List.find?_some hfound
        rw [eq_of_key_eq (List.mem_of_find?_eq_some hfound) hr hkey]

/-- What is found is in the table. -/
theorem mem_of_find? {t : Table Row key} {k : Key} {r : Row}
    (h : t.find? k = some r) : r ∈ t := (find?_eq_some_iff.mp h).1

/-- What is found has the key. -/
theorem key_of_find? {t : Table Row key} {k : Key} {r : Row}
    (h : t.find? k = some r) : key r = k := (find?_eq_some_iff.mp h).2

/-- A row is found under its own key. -/
theorem find?_of_mem {t : Table Row key} {r : Row} (h : r ∈ t) :
    t.find? (key r) = some r := find?_eq_some_iff.mpr ⟨h, rfl⟩

/-- Nothing is found when no row has the key. -/
theorem find?_eq_none_iff {t : Table Row key} {k : Key} :
    t.find? k = none ↔ ∀ r ∈ t, key r ≠ k := by
  simp [find?, mem_iff]

end Lookup

/-! ## Rewriting rows -/

/-- Rewrite the rows passing `p`, keeping every key. -/
def update (t : Table Row key) (p : Row → Bool) (f : Row → Row)
    (hkey : ∀ r, key (f r) = key r) : Table Row key where
  rows := t.rows.map (fun r => if p r then f r else r)
  nodup := by
    have hsame : (t.rows.map (fun r => if p r then f r else r)).map key =
        t.rows.map key := by
      rw [List.map_map]
      apply List.map_congr_left
      intro r _
      by_cases hp : p r = true <;> simp [hp, hkey]
    rw [hsame]
    exact t.nodup

section Update

variable {t : Table Row key} {p : Row → Bool} {f : Row → Row}
  {hkey : ∀ r, key (f r) = key r}

/-- An update writes the rows that pass, and keeps the others. -/
theorem mem_update (hkey : ∀ r, key (f r) = key r) {r : Row} :
    r ∈ t.update p f hkey ↔ ∃ s ∈ t, (if p s then f s else s) = r := by
  simp [mem_iff, update]

/-- An update that no row passes changes nothing. -/
theorem update_eq_self (h : ∀ r ∈ t, p r = false) : t.update p f hkey = t := by
  apply ext
  simp only [update]
  conv_rhs => rw [← List.map_id t.rows]
  apply List.map_congr_left
  intro r hr
  simp [h r hr]

/-- The row of a key after an update is that row, written if it passes. -/
theorem find?_update [DecidableEq Key] (k : Key) :
    (t.update p f hkey).find? k =
      (t.find? k).map (fun r => if p r then f r else r) := by
  cases hfound : t.find? k with
  | none =>
      rw [find?_eq_none_iff] at hfound
      rw [Option.map_none, find?_eq_none_iff]
      intro r hr
      obtain ⟨s, hs, rfl⟩ := (mem_update hkey).mp hr
      by_cases hp : p s = true <;> simp [hp, hkey, hfound s hs]
  | some s =>
      obtain ⟨hs, rfl⟩ := find?_eq_some_iff.mp hfound
      rw [Option.map_some, find?_eq_some_iff]
      refine ⟨(mem_update hkey).mpr ⟨s, hs, rfl⟩, ?_⟩
      by_cases hp : p s = true <;> simp [hp, hkey]

/-- An update that makes no new row pass `q` does not raise the count of `q`. -/
theorem count_update_le {q : Row → Bool} (hkey : ∀ r, key (f r) = key r)
    (h : ∀ r ∈ t, p r = true → q (f r) = true → q r = true) :
    (t.update p f hkey).count q ≤ t.count q := by
  simp only [count, update, List.countP_map]
  apply List.countP_mono_left
  intro r hr hq
  by_cases hp : p r = true
  · exact h r hr hp (by simpa [hp] using hq)
  · simpa [hp] using hq

/-- Rewriting the one row of a given key raises a count by at most one. -/
theorem count_update_key_le [DecidableEq Key] {k : Key} {q : Row → Bool}
    (hkey : ∀ r, key (f r) = key r) :
    (t.update (fun r => decide (key r = k)) f hkey).count q ≤ t.count q + 1 := by
  have hone : t.rows.countP (fun r => decide (key r = k)) ≤ 1 := by
    have hcount := List.nodup_iff_count_le_one.mp t.nodup k
    rw [List.count, List.countP_map] at hcount
    exact le_trans (List.countP_mono_left (fun r _ h => by simpa using h)) hcount
  simp only [count, update, List.countP_map]
  calc t.rows.countP _
      ≤ t.rows.countP (fun r => q r || decide (key r = k)) := by
        apply List.countP_mono_left
        intro r _ hq
        by_cases hk : key r = k
        · simp [hk]
        · simpa [hk] using hq
    _ ≤ t.rows.countP q + t.rows.countP (fun r => decide (key r = k)) := by
        induction t.rows with
        | nil => simp
        | cons r rest ih =>
            simp only [List.countP_cons]
            cases q r <;> cases decide (key r = k) <;> simp <;> omega
    _ ≤ t.rows.countP q + 1 := by omega

end Update

/-! ## Inserting a row -/

section Insert

variable [DecidableEq Key]

/-- Add a row, unless its key is taken. -/
def insert (t : Table Row key) (r : Row) : Option (Table Row key) :=
  if h : key r ∈ t.rows.map key then none
  else some ⟨t.rows ++ [r], by
    rw [List.map_append, List.map_cons, List.map_nil]
    exact t.nodup.append (by simp) (by simpa using h)⟩

/-- An insert succeeds on a key that is not in use, and adds its row at the end. -/
theorem insert_eq_some_iff {t t' : Table Row key} {r : Row} :
    t.insert r = some t' ↔ t.find? (key r) = none ∧ t'.rows = t.rows ++ [r] := by
  unfold insert
  split
  · rename_i h
    obtain ⟨s, hs, hk⟩ := List.mem_map.mp h
    constructor
    · intro hno; cases hno
    · intro hadded
      exact absurd hk (find?_eq_none_iff.mp hadded.1 s hs)
  · rename_i h
    have hnone : t.find? (key r) = none := by
      rw [find?_eq_none_iff]
      intro s hs hk
      exact h (List.mem_map.mpr ⟨s, hs, hk⟩)
    constructor
    · intro hsome
      cases hsome
      exact ⟨hnone, rfl⟩
    · intro hadded
      exact congrArg some (ext hadded.2.symm)

/-- An insert adds one row. -/
theorem mem_of_insert {t t' : Table Row key} {r s : Row}
    (h : t.insert r = some t') : s ∈ t' ↔ s ∈ t ∨ s = r := by
  simp [mem_iff, (insert_eq_some_iff.mp h).2]

/-- A row with a new key can be inserted. -/
theorem insert_ne_none {t : Table Row key} {r : Row} (h : ∀ s ∈ t, key s ≠ key r) :
    t.insert r ≠ none := by
  have hnew : key r ∉ t.rows.map key := by
    intro hmem
    obtain ⟨s, hs, hk⟩ := List.mem_map.mp hmem
    exact h s hs hk
  simp [insert, hnew]

/-- Only the new key reads differently. -/
theorem find?_of_insert {t t' : Table Row key} {r : Row}
    (h : t.insert r = some t') (k : Key) :
    t'.find? k = if key r = k then some r else t.find? k := by
  obtain ⟨hnone, hrows⟩ := insert_eq_some_iff.mp h
  unfold find? at hnone ⊢
  rw [hrows, List.find?_append]
  by_cases hk : key r = k
  · subst hk
    simp [hnone]
  · simp [hk]

/-- A count grows by the new row, if it passes. -/
theorem count_of_insert {t t' : Table Row key} {r : Row} {q : Row → Bool}
    (h : t.insert r = some t') :
    t'.count q = t.count q + if q r then 1 else 0 := by
  simp [count, (insert_eq_some_iff.mp h).2, List.countP_cons]

/-- Add rows one by one, unless a key is taken. -/
def insertAll (t : Table Row key) (rows : List Row) : Option (Table Row key) :=
  rows.foldlM insert t

/-- Inserted rows come last, in their order. -/
theorem rows_of_insertAll {t t' : Table Row key} {rows : List Row}
    (h : t.insertAll rows = some t') : t'.rows = t.rows ++ rows := by
  unfold insertAll at h
  induction rows generalizing t with
  | nil =>
      obtain rfl : t = t' := by simpa using h
      simp
  | cons r rest ih =>
      simp only [List.foldlM_cons, Option.bind_eq_bind, Option.bind_eq_some_iff] at h
      obtain ⟨u, hinsert, hrest⟩ := h
      rw [ih hrest, (insert_eq_some_iff.mp hinsert).2]
      simp

/-- Rows with different keys, all of them new, can be inserted. -/
theorem insertAll_ne_none {t : Table Row key} {rows : List Row} (hnodup : (rows.map key).Nodup)
    (hnew : ∀ r ∈ rows, ∀ s ∈ t, key s ≠ key r) : t.insertAll rows ≠ none := by
  unfold insertAll
  induction rows generalizing t with
  | nil => simp
  | cons r rest ih =>
      obtain ⟨hfirst, hrest⟩ := List.nodup_cons.mp hnodup
      obtain ⟨u, hinsert⟩ := Option.ne_none_iff_exists'.mp
        (insert_ne_none (hnew r List.mem_cons_self))
      rw [List.foldlM_cons, hinsert]
      refine ih hrest (fun r' hr' s hs => ?_)
      rcases (mem_of_insert hinsert).mp hs with hold | rfl
      · exact hnew r' (List.mem_cons_of_mem r hr') s hold
      · intro hsame
        exact hfirst (hsame ▸ List.mem_map_of_mem hr')

end Insert

/-! ## Deleting rows -/

/-- Remove the rows passing a test. -/
def delete (t : Table Row key) (p : Row → Bool) : Table Row key where
  rows := t.rows.filter (fun r => !p r)
  nodup := t.nodup.sublist (List.filter_sublist.map key)

/-- A delete leaves the rows that do not pass. -/
@[simp] theorem mem_delete {t : Table Row key} {p : Row → Bool} {r : Row} :
    r ∈ t.delete p ↔ r ∈ t ∧ p r = false := by
  simp [mem_iff, delete]

/-- A delete that changes nothing finds no row. -/
theorem delete_eq_self_iff {t : Table Row key} {p : Row → Bool} :
    t.delete p = t ↔ ∀ r ∈ t, p r = false := by
  constructor
  · intro hsame r hr
    rw [← hsame] at hr
    exact (mem_delete.mp hr).2
  · intro hnone
    refine ext (List.filter_eq_self.mpr (fun r hr => ?_))
    rw [hnone r hr]
    rfl

/-! ## Ordered reads -/

section OrderBy

variable (le : Row → Row → Prop) [DecidableRel le]

/-- The rows passing a test, sorted by `le`. -/
def orderBy (t : Table Row key) (p : Row → Bool) : List Row :=
  (t.select p).insertionSort le

variable {le} {t : Table Row key} {p : Row → Bool}

/-- An ordered read returns the rows that pass. -/
theorem mem_orderBy {r : Row} : r ∈ t.orderBy le p ↔ r ∈ t ∧ p r = true := by
  simp [orderBy]

/-- An ordered read is empty when no row passes. -/
theorem orderBy_eq_nil_iff : t.orderBy le p = [] ↔ ∀ r ∈ t, p r = false := by
  rw [List.eq_nil_iff_forall_not_mem]
  simp [mem_orderBy]

variable [Std.Total le] [IsTrans Row le]

/-- An ordered read is ordered. -/
theorem pairwise_orderBy : (t.orderBy le p).Pairwise le :=
  List.pairwise_insertionSort le _

/-- The first row of an ordered read stands before every row of it. -/
theorem orderBy_first {x : Row} {rest : List Row} (h : t.orderBy le p = x :: rest)
    {r : Row} (hr : r ∈ t) (hp : p r = true) (hne : r ≠ x) : le x r := by
  have hmem : r ∈ x :: rest := h ▸ mem_orderBy.mpr ⟨hr, hp⟩
  have hsorted : (x :: rest).Pairwise le := h ▸ pairwise_orderBy
  exact List.rel_of_pairwise_cons hsorted ((List.mem_cons.mp hmem).resolve_left hne)

/-- The second row of an ordered read stands before every row but the first. -/
theorem orderBy_second {x y : Row} {rest : List Row}
    (h : t.orderBy le p = x :: y :: rest)
    {r : Row} (hr : r ∈ t) (hp : p r = true) (hx : r ≠ x) (hy : r ≠ y) : le y r := by
  have hmem : r ∈ x :: y :: rest := h ▸ mem_orderBy.mpr ⟨hr, hp⟩
  have hsorted : (x :: y :: rest).Pairwise le := h ▸ pairwise_orderBy
  have htail : r ∈ rest :=
    (List.mem_cons.mp ((List.mem_cons.mp hmem).resolve_left hx)).resolve_left hy
  exact List.rel_of_pairwise_cons hsorted.of_cons htail

end OrderBy

end Table

end Keyed
