import ChallengeForge.JsonText

/-!
# Keys in order

What sorting the keys of every object does to the text.

* `write_sorted_eq_iff` — two values have one text if they are the same value with the
  members of its objects, at any depth, in another order; and only then;
* `all_write` — a text holds no characters but those of its strings and of JSON.
-/

namespace JsonText

open PrefixCodes

/-! ## The order of the members -/

/-- The same value but for the order of members with different keys, at any depth. -/
inductive Reordered : Value → Value → Prop
  | refl (v : Value) : Reordered v v
  | trans {u v w : Value} (h : Reordered u v) (h' : Reordered v w) : Reordered u w
  | swap {k l : PyStr} (hne : k ≠ l) (u v : Value) (before after : List (PyStr × Value)) :
      Reordered (.obj (before ++ (k, u) :: (l, v) :: after))
        (.obj (before ++ (l, v) :: (k, u) :: after))
  | item {u v : Value} (h : Reordered u v) (before after : List Value) :
      Reordered (.arr (before ++ u :: after)) (.arr (before ++ v :: after))
  | member {u v : Value} (h : Reordered u v) (k : PyStr) (before after : List (PyStr × Value)) :
      Reordered (.obj (before ++ (k, u) :: after)) (.obj (before ++ (k, v) :: after))

/-- Reordering can be undone. -/
theorem Reordered.symm {u v : Value} (h : Reordered u v) : Reordered v u := by
  induction h with
  | refl v => exact .refl v
  | trans _ _ ih ih' => exact .trans ih' ih
  | swap hne u v before after => exact .swap hne.symm v u before after
  | item _ before after ih => exact .item ih before after
  | member _ k before after ih => exact .member ih k before after

/-- Members of one object, before others that stay. -/
def SameMembers (members members' : List (PyStr × Value)) : Prop :=
  ∀ before, Reordered (.obj (before ++ members)) (.obj (before ++ members'))

/-- One member after another may be reordered within. -/
theorem SameMembers.cons {k : PyStr} {u v : Value} {rest rest' : List (PyStr × Value)}
    (h : Reordered u v) (hrest : SameMembers rest rest') :
    SameMembers ((k, u) :: rest) ((k, v) :: rest') := by
  intro before
  have hbehind := hrest (before ++ [(k, v)])
  rw [List.append_assoc, List.append_assoc] at hbehind
  exact .trans (.member h k before rest) hbehind

/-- Members may be rearranged step by step. -/
theorem SameMembers.trans {as bs cs : List (PyStr × Value)} (h : SameMembers as bs)
    (h' : SameMembers bs cs) : SameMembers as cs :=
  fun before => .trans (h before) (h' before)

/-- An insertion passes members with smaller keys only. -/
theorem sameMembers_orderedInsert (m : PyStr × Value) (members : List (PyStr × Value)) :
    SameMembers (m :: members) (members.orderedInsert (fun a b => a.1 ≤ b.1) m) := by
  induction members with
  | nil => exact fun before => .refl _
  | cons n rest ih =>
      rw [List.orderedInsert_cons]
      split
      · exact fun before => .refl _
      · rename_i hlt
        have hne : m.1 ≠ n.1 := fun heq => hlt heq.le
        have hswap : SameMembers (m :: n :: rest) (n :: m :: rest) :=
          fun before => .swap hne m.2 n.2 before rest
        exact hswap.trans (.cons (.refl _) ih)

/-- Sorting rearranges members. -/
theorem sameMembers_insertionSort (members : List (PyStr × Value)) :
    SameMembers members (members.insertionSort (fun a b => a.1 ≤ b.1)) := by
  induction members with
  | nil => exact fun before => .refl _
  | cons m rest ih =>
      rw [List.insertionSort_cons]
      exact (SameMembers.cons (.refl m.2) ih).trans (sameMembers_orderedInsert m _)

/-- Items of one list, behind others that stay. -/
theorem reordered_items {items items' : List Value} (h : List.Forall₂ Reordered items items') :
    ∀ before, Reordered (.arr (before ++ items)) (.arr (before ++ items')) := by
  induction h with
  | nil => exact fun before => .refl _
  | @cons u v rest rest' hfirst _ ih =>
      intro before
      have hbehind := ih (before ++ [v])
      rw [List.append_assoc, List.append_assoc] at hbehind
      exact .trans (.item hfirst before rest) hbehind

mutual

/-- Sorting reorders. -/
theorem reordered_sorted : ∀ v : Value, Reordered v (sorted v)
  | .null => .refl _
  | .bool _ => .refl _
  | .int _ => .refl _
  | .float _ => .refl _
  | .str _ => .refl _
  | .arr items => by
      rw [sorted]
      exact reordered_items (reordered_sortedItems items) []
  | .obj members => by
      rw [sorted]
      exact ((sameMembers_sortedMembers members).trans (sameMembers_insertionSort _)) []

/-- Every item is reordered within. -/
theorem reordered_sortedItems : ∀ items : List Value,
    List.Forall₂ Reordered items (sortedItems items)
  | [] => .nil
  | v :: rest => .cons (reordered_sorted v) (reordered_sortedItems rest)

/-- Every member is reordered within. -/
theorem sameMembers_sortedMembers : ∀ members : List (PyStr × Value),
    SameMembers members (sortedMembers members)
  | [] => fun _ => .refl _
  | (_, v) :: rest => .cons (reordered_sorted v) (sameMembers_sortedMembers rest)

end

/-- Insertions of members with different keys commute. -/
theorem orderedInsert_comm {m n : PyStr × Value} (hne : m.1 ≠ n.1)
    (members : List (PyStr × Value)) :
    (members.orderedInsert (fun a b => a.1 ≤ b.1) n).orderedInsert (fun a b => a.1 ≤ b.1) m =
      (members.orderedInsert (fun a b => a.1 ≤ b.1) m).orderedInsert
        (fun a b => a.1 ≤ b.1) n := by
  induction members with
  | nil =>
      simp only [List.orderedInsert_nil, List.orderedInsert_cons]
      rcases lt_or_gt_of_ne hne with hlt | hgt
      · rw [if_pos hlt.le, if_neg (not_le.mpr hlt)]
      · rw [if_neg (not_le.mpr hgt), if_pos (le_of_lt hgt)]
  | cons p rest ih =>
      simp only [List.orderedInsert_cons]
      by_cases hm : m.1 ≤ p.1
      · by_cases hn : n.1 ≤ p.1
        · rcases lt_or_gt_of_ne hne with hlt | hgt
          · simp [hm, hn, hlt.le, not_le.mpr hlt]
          · simp [hm, hn, le_of_lt hgt, not_le.mpr hgt]
        · have hmn : m.1 ≤ n.1 := hm.trans (le_of_not_ge hn)
          have hlt : ¬n.1 ≤ m.1 := fun h => hn (h.trans hm)
          simp [hm, hn, hlt]
      · by_cases hn : n.1 ≤ p.1
        · have hlt : ¬m.1 ≤ n.1 := fun h => hm (h.trans hn)
          simp [hm, hn, hlt]
        · simp [hm, hn, ih]

/-- The members of a sorted object, sorted within and then by their keys. -/
theorem sorted_obj (members : List (PyStr × Value)) : sorted (.obj members) =
    .obj ((members.map (fun m => (m.1, sorted m.2))).insertionSort (fun a b => a.1 ≤ b.1)) := by
  rw [sorted, sortedMembers_eq]

/-- What is sorted behind the same members stays the same. -/
theorem insertionSort_append_congr {as bs : List (PyStr × Value)}
    (h : as.insertionSort (fun a b => a.1 ≤ b.1) = bs.insertionSort (fun a b => a.1 ≤ b.1))
    (before : List (PyStr × Value)) :
    (before ++ as).insertionSort (fun a b => a.1 ≤ b.1) =
      (before ++ bs).insertionSort (fun a b => a.1 ≤ b.1) := by
  induction before with
  | nil => exact h
  | cons m before ih =>
      rw [List.cons_append, List.cons_append, List.insertionSort_cons, List.insertionSort_cons, ih]

/-- The order of members with different keys does not matter to sorting. -/
theorem sorted_of_reordered {u v : Value} (h : Reordered u v) : sorted u = sorted v := by
  induction h with
  | refl v => rfl
  | trans _ _ ih ih' => exact ih.trans ih'
  | @swap k l hne u v before after =>
      rw [sorted_obj, sorted_obj, List.map_append, List.map_append]
      refine congrArg Value.obj (insertionSort_append_congr ?_ _)
      simp only [List.map_cons, List.insertionSort_cons]
      exact orderedInsert_comm hne _
  | item _ before after ih => simp only [sorted, sortedItems_eq, List.map_append, List.map_cons, ih]
  | member _ k before after ih => simp only [sorted_obj, List.map_append, List.map_cons, ih]

/-- **Canonical.**  Two values have one text, their keys sorted, exactly if they are one
value with the members of its objects in any order. -/
theorem write_sorted_eq_iff {u v : Value} :
    write (sorted u) = write (sorted v) ↔ Reordered u v := by
  constructor
  · intro h
    have hsorted : sorted u = sorted v := write_injective h
    have hback : Reordered (sorted u) v := hsorted ▸ (reordered_sorted v).symm
    exact (reordered_sorted u).trans hback
  · intro h
    rw [sorted_of_reordered h]

example : write (sorted (.obj [(lit "b", .arr [.null, .bool true]), (lit "a", .int (-1))])) =
    lit "\x7b\"a\":-1,\"b\":[null,true]\x7d" := by decide +kernel

/-- In an object with distinct keys any order of the members will do. -/
theorem Reordered.of_perm {as bs : List (PyStr × Value)} (h : as.Perm bs)
    (hdistinct : (as.map Prod.fst).Nodup) : Reordered (.obj as) (.obj bs) := by
  have hsame : SameMembers as bs := by
    induction h with
    | nil => exact fun before => .refl _
    | cons m _ ih => exact .cons (.refl m.2) (ih (List.nodup_cons.mp hdistinct).2)
    | swap m n rest =>
        have hne : n.1 ≠ m.1 := by
          intro heq
          exact (List.nodup_cons.mp hdistinct).1 (heq ▸ List.mem_cons_self)
        exact fun before => .swap hne n.2 m.2 before rest
    | trans hab _ ih ih' =>
        exact (ih hdistinct).trans (ih' ((hab.map Prod.fst).nodup_iff.mp hdistinct))
  exact hsame []

/-- Reordered values hold the same strings and floats. -/
theorem Reordered.all_eq {u v : Value} (h : Reordered u v) (onStr : PyStr → Bool)
    (onFloat : FloatLiteral → Bool) : u.all onStr onFloat = v.all onStr onFloat := by
  induction h with
  | refl v => rfl
  | trans _ _ ih ih' => exact ih.trans ih'
  | swap _ u v before after =>
      simp only [Value.all, allMembers_eq, List.all_append, List.all_cons]
      ac_rfl
  | item _ before after ih =>
      simp only [Value.all, allItems_eq, List.all_append, List.all_cons, ih]
  | member _ k before after ih =>
      simp only [Value.all, allMembers_eq, List.all_append, List.all_cons, ih]

mutual

/-- The two tests are made apart. -/
theorem Value.all_and (onStr : PyStr → Bool) (onFloat : FloatLiteral → Bool) : ∀ v : Value,
    v.all onStr onFloat = (v.all (fun _ => true) onFloat && v.all onStr (fun _ => true))
  | .null => rfl
  | .bool _ => rfl
  | .int _ => rfl
  | .float _ => (Bool.and_true _).symm
  | .str _ => (Bool.true_and _).symm
  | .arr items => allItems_and onStr onFloat items
  | .obj members => allMembers_and onStr onFloat members

/-- `Value.all_and` for items. -/
theorem allItems_and (onStr : PyStr → Bool) (onFloat : FloatLiteral → Bool) : ∀ items : List Value,
    allItems onStr onFloat items =
      (allItems (fun _ => true) onFloat items && allItems onStr (fun _ => true) items)
  | [] => rfl
  | v :: rest => by
      rw [allItems, allItems, allItems, Value.all_and onStr onFloat v,
        allItems_and onStr onFloat rest]
      ac_rfl

/-- `Value.all_and` for members. -/
theorem allMembers_and (onStr : PyStr → Bool) (onFloat : FloatLiteral → Bool) :
    ∀ members : List (PyStr × Value), allMembers onStr onFloat members =
      (allMembers (fun _ => true) onFloat members && allMembers onStr (fun _ => true) members)
  | [] => rfl
  | (k, v) :: rest => by
      rw [allMembers, allMembers, allMembers, Value.all_and onStr onFloat v,
        allMembers_and onStr onFloat rest, Bool.true_and]
      ac_rfl

end

/-! ## The characters of a text -/

section Characters

variable {p : CodePoint → Bool}

/-- An escape passes a test of characters when what it escapes does. -/
theorem all_escape (hp : ∀ c ∈ escaped, p c = true ∧ (escape c).all p = true) (c : CodePoint) :
    (escape c).all p = p c := by
  by_cases hc : c ∈ escaped
  · rw [(hp c hc).1, (hp c hc).2]
  · rw [escape_of_not_mem hc, List.all_cons, List.all_nil, Bool.and_true]

/-- So does a quoted string. -/
theorem all_quoted (hp : ∀ c ∈ escaped, p c = true ∧ (escape c).all p = true) (s : PyStr) :
    (quoted s).all p = s.all p := by
  have hquote : p (point '"') = true := (hp _ List.mem_cons_self).1
  unfold quoted
  rw [List.all_cons, List.all_append, List.all_cons, List.all_nil, hquote, Bool.true_and,
    Bool.and_true, Bool.and_true]
  induction s with
  | nil => rfl
  | cons c s ih => rw [List.flatMap_cons, List.all_append, all_escape hp, ih, List.all_cons]

/-- An enclosed text passes when what it encloses does. -/
theorem all_enclosed {first last : Char} (hfirst : p (point first) = true)
    (hlast : p (point last) = true) (hcomma : p (point ',') = true) (texts : List PyStr) :
    (enclosed first texts last).all p = texts.all (fun text => text.all p) := by
  unfold enclosed
  rw [List.all_cons, List.all_append, List.all_cons, List.all_nil, hfirst, hlast, Bool.true_and,
    Bool.and_true, Bool.and_true]
  cases texts with
  | nil => rfl
  | cons text texts =>
      rw [intercalate_cons, List.all_append, List.all_flatMap, List.all_cons]
      simp only [List.all_cons, hcomma, Bool.true_and]

/-- What json writes around strings: `p` accepts every character of it. -/
structure Accepts (p : CodePoint → Bool) : Prop where
  escapes : ∀ c ∈ escaped, p c = true ∧ (escape c).all p = true
  numerals : ∀ c, isNumeral c = true → p c = true
  marks : ∀ c ∈ lit "nulltruefalse[],:\x7b\x7d", p c = true

/-- The words of the format pass. -/
theorem Accepts.word (hp : Accepts p) (word : String)
    (hword : (lit word).all (fun c => c ∈ lit "nulltruefalse[],:\x7b\x7d") = true) :
    (lit word).all p = true := by
  rw [List.all_eq_true] at hword ⊢
  exact fun c hc => hp.marks c (of_decide_eq_true (hword c hc))

mutual

/-- A text is made of characters that `p` accepts if the strings in it are. -/
theorem all_write (hp : Accepts p) : ∀ v : Value,
    (write v).all p = v.all (fun s => s.all p) (fun _ => true)
  | .null => hp.word "null" (by decide +kernel)
  | .bool true => hp.word "true" (by decide +kernel)
  | .bool false => hp.word "false" (by decide +kernel)
  | .int n => List.all_eq_true.mpr (fun c hc => hp.numerals c (numeral_decimal n c hc))
  | .float x => List.all_eq_true.mpr (fun c hc => hp.numerals c (numeral_float x c hc))
  | .str s => all_quoted hp.escapes s
  | .arr items => by
      rw [write, all_enclosed (hp.marks _ (by decide)) (hp.marks _ (by decide))
        (hp.marks _ (by decide)), all_writeItems hp items, Value.all]
  | .obj members => by
      rw [write, all_enclosed (hp.marks _ (by decide)) (hp.marks _ (by decide))
        (hp.marks _ (by decide)), all_writeMembers hp members, Value.all]

/-- `all_write` for items. -/
theorem all_writeItems (hp : Accepts p) : ∀ items : List Value,
    (writeItems items).all (fun text => text.all p) =
      allItems (fun s => s.all p) (fun _ => true) items
  | [] => rfl
  | v :: rest => by rw [writeItems, List.all_cons, all_write hp v, all_writeItems hp rest, allItems]

/-- `all_write` for members. -/
theorem all_writeMembers (hp : Accepts p) : ∀ members : List (PyStr × Value),
    (writeMembers members).all (fun text => text.all p) =
      allMembers (fun s => s.all p) (fun _ => true) members
  | [] => rfl
  | (k, v) :: rest => by
      rw [writeMembers, List.all_cons, List.all_append, List.all_cons, all_quoted hp.escapes,
        hp.marks (point ':') (by decide), all_write hp v, all_writeMembers hp rest, Bool.true_and,
        allMembers]

end

end Characters

end JsonText
