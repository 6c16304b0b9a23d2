import ChallengeForge.JsonOrder

/-!
# JSON texts in a bounded stack

`json.dumps` calls itself for every list and every dict, and a `RecursionError` leaves it
where the interpreter has no room for another call.  `dump` writes value after value, and
fails where the encoder does: at the first number that is not finite, or the first list or
dict too deep.

* `dump_of_fits` — where there is room, the text is that of `write`;
* `dump_of_deep` — where there is not, there is no text.
-/

namespace JsonText

/-- What leaves `json.dumps(..., allow_nan=False)`. -/
inductive DumpsError
  /-- The `ValueError` for a float that is not finite. -/
  | notFinite
  | recursion
  deriving DecidableEq

mutual

/-- How many lists and dicts lie in one another. -/
def Value.nesting : Value → Nat
  | .arr items => nestingItems items + 1
  | .obj members => nestingMembers members + 1
  | _ => 0

/-- The most of any item. -/
def nestingItems : List Value → Nat
  | [] => 0
  | v :: rest => max v.nesting (nestingItems rest)

/-- The most of any member. -/
def nestingMembers : List (PyStr × Value) → Nat
  | [] => 0
  | (_, v) :: rest => max v.nesting (nestingMembers rest)

end

mutual

/-- `json.dumps(v, separators=(",", ":"), ensure_ascii=False, allow_nan=False)` where the
stack has room for that many calls. -/
def dump : Nat → Value → Except DumpsError PyStr
  | _, .float x => if x.isFinite then .ok x.text else .error .notFinite
  | 0, .arr _ => .error .recursion
  | 0, .obj _ => .error .recursion
  | room + 1, .arr items => (dumpItems room items).map (fun texts => enclosed '[' texts ']')
  | room + 1, .obj members =>
      (dumpMembers room members).map (fun texts => enclosed '\x7b' texts '\x7d')
  | _, v => .ok (write v)

/-- The texts of the items, one after the other. -/
def dumpItems : Nat → List Value → Except DumpsError (List PyStr)
  | _, [] => .ok []
  | room, v :: rest =>
      (dump room v).bind (fun text => (dumpItems room rest).map (fun texts => text :: texts))

/-- The texts of the members, one after the other. -/
def dumpMembers : Nat → List (PyStr × Value) → Except DumpsError (List PyStr)
  | _, [] => .ok []
  | room, (k, v) :: rest =>
      (dump room v).bind (fun text =>
        (dumpMembers room rest).map (fun texts => (quoted k ++ point ':' :: text) :: texts))

end

/-- Every float is finite. -/
abbrev Value.finite (v : Value) : Bool := v.all (fun _ => true) FloatLiteral.isFinite

/-- Every float of the items is finite. -/
abbrev finiteItems (items : List Value) : Bool :=
  allItems (fun _ => true) FloatLiteral.isFinite items

/-- Every float of the members is finite. -/
abbrev finiteMembers (members : List (PyStr × Value)) : Bool :=
  allMembers (fun _ => true) FloatLiteral.isFinite members

/-! ## Where there is room -/

/-- The result, unless a float is not finite. -/
def written {α : Type} (finite : Bool) (result : α) : Except DumpsError α :=
  if finite then .ok result else .error .notFinite

/-- What is made of the result. -/
theorem map_written {α β : Type} (finite : Bool) (result : α) (f : α → β) :
    (written finite result).map f = written finite (f result) := by
  cases finite <;> rfl

/-- One after the other: the first float that is not finite stops them. -/
theorem bind_written {α β : Type} (first rest : Bool) (result : α) (f : α → β) :
    (written first result).bind (fun x => written rest (f x)) =
      written (first && rest) (f result) := by
  cases first <;> rfl

mutual

/-- **Where there is room** the text is written, unless a float is not finite. -/
theorem dump_of_fits : ∀ (v : Value) {room : Nat}, v.nesting ≤ room →
    dump room v = written v.finite (write v)
  | .null, _, _ => by simp [dump, Value.all, written]
  | .bool _, _, _ => by simp [dump, Value.all, written]
  | .int _, _, _ => by simp [dump, Value.all, written]
  | .float _, _, _ => by simp [dump, Value.all, written, write]
  | .str _, _, _ => by simp [dump, Value.all, written]
  | .arr _, 0, h => by simp [Value.nesting] at h
  | .obj _, 0, h => by simp [Value.nesting] at h
  | .arr items, room + 1, h => by
      rw [Value.nesting, Nat.add_le_add_iff_right] at h
      rw [dump, dumpItems_of_fits items h, map_written, Value.finite, Value.all, write]
  | .obj members, room + 1, h => by
      rw [Value.nesting, Nat.add_le_add_iff_right] at h
      rw [dump, dumpMembers_of_fits members h, map_written, Value.finite, Value.all, write]

/-- `dump_of_fits` for items. -/
theorem dumpItems_of_fits : ∀ (items : List Value) {room : Nat}, nestingItems items ≤ room →
    dumpItems room items = written (finiteItems items) (writeItems items)
  | [], _, _ => by simp [dumpItems, allItems, writeItems, written]
  | v :: rest, room, h => by
      obtain ⟨hfirst, hrest⟩ := Nat.max_le.mp h
      rw [dumpItems, dump_of_fits v hfirst, dumpItems_of_fits rest hrest]
      simp only [map_written, bind_written, finiteItems, allItems, writeItems]

/-- `dump_of_fits` for members. -/
theorem dumpMembers_of_fits : ∀ (members : List (PyStr × Value)) {room : Nat},
    nestingMembers members ≤ room →
      dumpMembers room members = written (finiteMembers members) (writeMembers members)
  | [], _, _ => by simp [dumpMembers, allMembers, writeMembers, written]
  | (k, v) :: rest, room, h => by
      obtain ⟨hfirst, hrest⟩ := Nat.max_le.mp h
      rw [dumpMembers, dump_of_fits v hfirst, dumpMembers_of_fits rest hrest]
      simp only [map_written, bind_written, finiteMembers, allMembers, writeMembers,
        Bool.true_and]

end

/-! ## Where there is none -/

/-- There is no text: the stack is too small, or a float stopped the encoder before. -/
def Unwritten {α : Type} (finite : Bool) (result : Except DumpsError α) : Prop :=
  result = .error .recursion ∨ result = .error .notFinite ∧ finite = false

/-- Nothing is made of no text. -/
theorem Unwritten.map {α β : Type} {finite : Bool} {result : Except DumpsError α}
    (h : Unwritten finite result) (f : α → β) : Unwritten finite (result.map f) := by
  rcases h with rfl | ⟨rfl, hfinite⟩
  · exact Or.inl rfl
  · exact Or.inr ⟨rfl, hfinite⟩

/-- What comes first is not written. -/
theorem Unwritten.bind {α β : Type} {first : Bool} {result : Except DumpsError α}
    (h : Unwritten first result) (rest : Bool) (f : α → Except DumpsError β) :
    Unwritten (first && rest) (result.bind f) := by
  rcases h with rfl | ⟨rfl, hfinite⟩
  · exact Or.inl rfl
  · exact Or.inr ⟨rfl, by rw [hfinite, Bool.false_and]⟩

/-- What comes first is written, and what follows is not. -/
theorem Unwritten.behind {α β : Type} {rest : Bool} {f : α → Except DumpsError β} {result : α}
    (h : Unwritten rest (f result)) (first : Bool) :
    Unwritten (first && rest) ((written first result).bind f) := by
  cases first with
  | false => exact Or.inr ⟨rfl, rfl⟩
  | true => exact h

mutual

/-- **Where there is no room** there is no text. -/
theorem dump_of_deep : ∀ (v : Value) {room : Nat}, room < v.nesting →
    Unwritten v.finite (dump room v)
  | .null, _, h => by simp [Value.nesting] at h
  | .bool _, _, h => by simp [Value.nesting] at h
  | .int _, _, h => by simp [Value.nesting] at h
  | .float _, _, h => by simp [Value.nesting] at h
  | .str _, _, h => by simp [Value.nesting] at h
  | .arr _, 0, _ => by
      rw [dump]
      exact Or.inl rfl
  | .obj _, 0, _ => by
      rw [dump]
      exact Or.inl rfl
  | .arr items, room + 1, h => by
      rw [Value.nesting, Nat.add_lt_add_iff_right] at h
      rw [dump, Value.finite, Value.all]
      exact (dumpItems_of_deep items h).map _
  | .obj members, room + 1, h => by
      rw [Value.nesting, Nat.add_lt_add_iff_right] at h
      rw [dump, Value.finite, Value.all]
      exact (dumpMembers_of_deep members h).map _

/-- `dump_of_deep` for items. -/
theorem dumpItems_of_deep : ∀ (items : List Value) {room : Nat}, room < nestingItems items →
    Unwritten (finiteItems items) (dumpItems room items)
  | [], _, h => by simp [nestingItems] at h
  | v :: rest, room, h => by
      rw [dumpItems, finiteItems, allItems]
      by_cases hfits : v.nesting ≤ room
      · -- the first item is written, and a later one is too deep
        have hrest : room < nestingItems rest := by
          rw [nestingItems] at h
          omega
        rw [dump_of_fits v hfits]
        refine Unwritten.behind ?_ _
        exact (dumpItems_of_deep rest hrest).map _
      · exact (dump_of_deep v (not_le.mp hfits)).bind _ _

/-- `dump_of_deep` for members. -/
theorem dumpMembers_of_deep : ∀ (members : List (PyStr × Value)) {room : Nat},
    room < nestingMembers members → Unwritten (finiteMembers members) (dumpMembers room members)
  | [], _, h => by simp [nestingMembers] at h
  | (k, v) :: rest, room, h => by
      rw [dumpMembers, finiteMembers, allMembers, Bool.true_and]
      by_cases hfits : v.nesting ≤ room
      · have hrest : room < nestingMembers rest := by
          rw [nestingMembers] at h
          omega
        rw [dump_of_fits v hfits]
        refine Unwritten.behind ?_ _
        exact (dumpMembers_of_deep rest hrest).map _
      · exact (dump_of_deep v (not_le.mp hfits)).bind _ _

end

/-! ## Sorting keeps the nesting -/

/-- The items of two lists are as deep as the deeper list. -/
theorem nestingItems_append (items items' : List Value) :
    nestingItems (items ++ items') = max (nestingItems items) (nestingItems items') := by
  induction items with
  | nil => simp [nestingItems]
  | cons v rest ih => rw [List.cons_append, nestingItems, nestingItems, ih, Nat.max_assoc]

/-- The members of two lists are as deep as the deeper list. -/
theorem nestingMembers_append (members members' : List (PyStr × Value)) :
    nestingMembers (members ++ members') =
      max (nestingMembers members) (nestingMembers members') := by
  induction members with
  | nil => simp [nestingMembers]
  | cons m rest ih => rw [List.cons_append, nestingMembers, nestingMembers, ih, Nat.max_assoc]

/-- Reordered values are as deep as each other. -/
theorem Reordered.nesting_eq {u v : Value} (h : Reordered u v) : u.nesting = v.nesting := by
  induction h with
  | refl v => rfl
  | trans _ _ ih ih' => exact ih.trans ih'
  | swap _ u v before after =>
      simp only [Value.nesting, nestingMembers_append, nestingMembers]
      rw [Nat.max_left_comm u.nesting]
  | item _ before after ih => simp only [Value.nesting, nestingItems_append, nestingItems, ih]
  | member _ k before after ih =>
      simp only [Value.nesting, nestingMembers_append, nestingMembers, ih]

end JsonText
