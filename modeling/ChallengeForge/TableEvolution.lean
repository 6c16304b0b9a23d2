import ChallengeForge.KeyedTable

/-!
# How the rows of a table evolve

What one transaction does to a table, row by row: every row stays under its key
and changes, if at all, by a relation between its old and its new value; other
rows are new.  An invariant of the rows then needs one proof about that relation
and one about new rows (`Evolves.all`), whatever the transaction was.

`Keeps` is the part that composes along a run.
-/

namespace Keyed

universe u v

namespace Table

variable {Row : Type u} {Key : Type v} {key : Row → Key}

/-- The rows of `t` change by `R` on the way to `t'`, and the others are `New`. -/
structure Evolves (R : Row → Row → Prop) (New : Row → Prop) (t t' : Table Row key) : Prop where
  kept : ∀ r ∈ t, ∃ r' ∈ t', key r' = key r ∧ (r' = r ∨ R r r')
  source : ∀ r' ∈ t', (∃ r ∈ t, key r' = key r ∧ (r' = r ∨ R r r')) ∨ New r'

/-- Every row of `t` has its value in `t'`, related by `Q`. -/
def Keeps (Q : Row → Row → Prop) (t t' : Table Row key) : Prop :=
  ∀ r ∈ t, ∃ r' ∈ t', key r' = key r ∧ Q r r'

section Evolutions

variable {R Q : Row → Row → Prop} {New : Row → Prop} {t t' t'' : Table Row key}

/-- A table evolves into itself. -/
theorem Evolves.refl (t : Table Row key) : Evolves R New t t where
  kept r hr := ⟨r, hr, rfl, Or.inl rfl⟩
  source r hr := Or.inl ⟨r, hr, rfl, Or.inl rfl⟩

/-- An update evolves the rows that pass its test. -/
theorem Evolves.update {p : Row → Bool} {f : Row → Row} (hkey : ∀ r, key (f r) = key r)
    (h : ∀ r ∈ t, p r = true → R r (f r)) : Evolves R New t (t.update p f hkey) := by
  have hrow : ∀ r ∈ t, key (if p r = true then f r else r) = key r ∧
      ((if p r = true then f r else r) = r ∨ R r (if p r = true then f r else r)) := by
    intro r hr
    by_cases hp : p r = true
    · simpa [hp, hkey] using Or.inr (h r hr hp)
    · simp [hp]
  constructor
  · intro r hr
    exact ⟨_, (mem_update hkey).mpr ⟨r, hr, rfl⟩, (hrow r hr).1, (hrow r hr).2⟩
  · intro r' hr'
    obtain ⟨r, hr, rfl⟩ := (mem_update hkey).mp hr'
    exact Or.inl ⟨r, hr, (hrow r hr).1, (hrow r hr).2⟩

/-- An insert adds a new row. -/
theorem Evolves.insert [DecidableEq Key] {r : Row} (h : t.insert r = some t') (hnew : New r) :
    Evolves R New t t' := by
  constructor
  · intro s hs
    exact ⟨s, (mem_of_insert h).mpr (Or.inl hs), rfl, Or.inl rfl⟩
  · intro s hs
    rcases (mem_of_insert h).mp hs with hold | rfl
    · exact Or.inl ⟨s, hold, rfl, Or.inl rfl⟩
    · exact Or.inr hnew

/-- A weaker account of the rows. -/
theorem Evolves.imp {R' : Row → Row → Prop} (h : Evolves R New t t')
    (hR : ∀ r r', R r r' → R' r r') : Evolves R' New t t' := by
  constructor
  · intro r hr
    obtain ⟨r', hr', hkey, hsame | hstep⟩ := h.kept r hr
    · exact ⟨r', hr', hkey, Or.inl hsame⟩
    · exact ⟨r', hr', hkey, Or.inr (hR r r' hstep)⟩
  · intro r' hr'
    rcases h.source r' hr' with ⟨r, hr, hkey, hsame | hstep⟩ | hnew
    · exact Or.inl ⟨r, hr, hkey, Or.inl hsame⟩
    · exact Or.inl ⟨r, hr, hkey, Or.inr (hR r r' hstep)⟩
    · exact Or.inr hnew

/-- **Row invariants.**  What new rows satisfy and `R` preserves holds of all rows
afterwards if it held of all rows before. -/
theorem Evolves.all {P : Row → Prop} (h : Evolves R New t t')
    (hstep : ∀ r r', P r → R r r' → P r') (hnew : ∀ r, New r → P r) (hall : ∀ r ∈ t, P r) :
    ∀ r ∈ t', P r := by
  intro r' hr'
  rcases h.source r' hr' with ⟨r, hr, -, rfl | hR⟩ | hfresh
  · exact hall r' hr
  · exact hstep r r' (hall r hr) hR
  · exact hnew r' hfresh

/-- What every step of a row keeps, the table keeps. -/
theorem Evolves.keeps (h : Evolves R New t t') (hrefl : ∀ r, Q r r)
    (hstep : ∀ r r', R r r' → Q r r') : Keeps Q t t' := by
  intro r hr
  obtain ⟨r', hr', hkey, rfl | hR⟩ := h.kept r hr
  · exact ⟨r', hr', hkey, hrefl r'⟩
  · exact ⟨r', hr', hkey, hstep r r' hR⟩

/-- A table keeps its rows. -/
theorem Keeps.refl (hrefl : ∀ r, Q r r) (t : Table Row key) : Keeps Q t t :=
  fun r hr => ⟨r, hr, rfl, hrefl r⟩

/-- What is kept twice is kept. -/
theorem Keeps.trans (htrans : ∀ {r s u}, Q r s → Q s u → Q r u) (h : Keeps Q t t')
    (h' : Keeps Q t' t'') : Keeps Q t t'' := by
  intro r hr
  obtain ⟨r', hr', hkey, hQ⟩ := h r hr
  obtain ⟨r'', hr'', hkey', hQ'⟩ := h' r' hr'
  exact ⟨r'', hr'', hkey'.trans hkey, htrans hQ hQ'⟩

end Evolutions

end Table

end Keyed
