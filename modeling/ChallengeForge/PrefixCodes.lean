import Mathlib.Data.List.Basic
import Mathlib.Data.List.Infix

/-!
# Texts that can be told apart, whatever follows them

A writer puts texts one behind the other.  Its values can be read back if each text
ends where it seems to end.

* `run_append_inj` — a run of characters, up to one of another kind;
* `append_inj_of_prefixFree` — a code no text of which starts another;
* `flatMap_close_inj` — a string in such a code, up to the closing character;
* `intercalate_close_inj` — a list of texts, with a separator and a closing character.
-/

namespace PrefixCodes

variable {α β : Type*}

/-- What follows a text is nothing, or starts with a character that may follow it. -/
def Follows (stop : β → Prop) (rest : List β) : Prop := ∀ b ∈ rest.head?, stop b

/-- Nothing may follow any text. -/
theorem follows_nil (stop : β → Prop) : Follows stop [] := by
  intro b hb
  cases hb

/-- A text may be followed by one that starts with a stop. -/
theorem follows_cons {stop : β → Prop} {b : β} (h : stop b) (rest : List β) :
    Follows stop (b :: rest) := by
  intro c hc
  obtain rfl := Option.some.inj hc
  exact h

/-- The text of `a` is told from every other text, whatever follows the two. -/
def Told (stop : β → Prop) (write : α → List β) (a : α) : Prop :=
  ∀ b s t, Follows stop s → Follows stop t → write a ++ s = write b ++ t → a = b ∧ s = t

/-- Two runs, each as long as it can be. -/
theorem run_append_inj {p : β → Prop} {x y s t : List β} (hx : ∀ b ∈ x, p b)
    (hy : ∀ b ∈ y, p b) (hs : Follows (fun b => ¬p b) s) (ht : Follows (fun b => ¬p b) t)
    (h : x ++ s = y ++ t) : x = y ∧ s = t := by
  induction x generalizing y with
  | nil =>
      cases y with
      | nil => exact ⟨rfl, h⟩
      | cons b y =>
          rw [List.nil_append, List.cons_append] at h
          subst h
          exact absurd (hy b List.mem_cons_self) (hs b rfl)
  | cons a x ih =>
      cases y with
      | nil =>
          rw [List.nil_append, List.cons_append] at h
          subst h
          exact absurd (hx a List.mem_cons_self) (ht a rfl)
      | cons b y =>
          obtain ⟨rfl, hrest⟩ := List.cons.inj h
          obtain ⟨rfl, rfl⟩ := ih (fun c hc => hx c (List.mem_cons_of_mem _ hc))
            (fun c hc => hy c (List.mem_cons_of_mem _ hc)) hrest
          exact ⟨rfl, rfl⟩

/-- A code no text of which starts another. -/
def PrefixFree (code : α → List β) : Prop := ∀ a b, code a <+: code b → a = b

/-- A text of such a code is told from every other, whatever follows the two. -/
theorem append_inj_of_prefixFree {code : α → List β} (hcode : PrefixFree code) {a b : α}
    {s t : List β} (h : code a ++ s = code b ++ t) : a = b ∧ s = t := by
  have hfirst : code a <+: code b ++ t := ⟨s, h⟩
  have hsecond : code b <+: code b ++ t := ⟨t, rfl⟩
  have hsame : a = b := by
    rcases List.prefix_or_prefix_of_prefix hfirst hsecond with hab | hba
    · exact hcode a b hab
    · exact (hcode b a hba).symm
  subst hsame
  exact ⟨rfl, List.append_cancel_left h⟩

/-- A string, character by character, up to the closing character. -/
theorem flatMap_close_inj {code : α → List β} {close : β} (hcode : PrefixFree code)
    (hclose : ∀ a s t, code a ++ s ≠ close :: t) {x y : List α} {s t : List β}
    (h : x.flatMap code ++ close :: s = y.flatMap code ++ close :: t) : x = y ∧ s = t := by
  induction x generalizing y with
  | nil =>
      cases y with
      | nil => exact ⟨rfl, (List.cons.inj h).2⟩
      | cons b y =>
          rw [List.flatMap_cons, List.append_assoc] at h
          exact absurd h.symm (hclose b _ _)
  | cons a x ih =>
      cases y with
      | nil =>
          rw [List.flatMap_cons, List.append_assoc] at h
          exact absurd h (hclose a _ _)
      | cons b y =>
          rw [List.flatMap_cons, List.append_assoc, List.flatMap_cons, List.append_assoc] at h
          obtain ⟨rfl, hrest⟩ := append_inj_of_prefixFree hcode h
          obtain ⟨rfl, rfl⟩ := ih hrest
          exact ⟨rfl, rfl⟩

/-- All but the first text of a list have the separator before them. -/
theorem intercalate_cons (sep : β) (x : List β) (xs : List (List β)) :
    [sep].intercalate (x :: xs) = x ++ xs.flatMap (fun y => sep :: y) := by
  induction xs generalizing x with
  | nil => simp
  | cons y xs ih => rw [List.intercalate_cons_cons, ih, List.flatMap_cons, List.append_assoc]; rfl

section Lists

variable {stop : β → Prop} {write : α → List β} {sep close : β}

/-- A list that is separated and closed starts with a separator or a close. -/
theorem follows_separated (hsep : stop sep) (hclose : stop close) (items : List α)
    (rest : List β) : Follows stop (items.flatMap (fun a => sep :: write a) ++ close :: rest) := by
  cases items with
  | nil => exact follows_cons hclose _
  | cons a items => exact follows_cons hsep _

/-- The items behind the first. -/
theorem separated_inj (hsep : stop sep) (hclose : stop close) (hne : sep ≠ close)
    {as bs : List α} (hitems : ∀ a ∈ as, Told stop write a) {s t : List β}
    (h : as.flatMap (fun a => sep :: write a) ++ close :: s =
      bs.flatMap (fun b => sep :: write b) ++ close :: t) : as = bs ∧ s = t := by
  induction as generalizing bs with
  | nil =>
      cases bs with
      | nil => exact ⟨rfl, (List.cons.inj h).2⟩
      | cons b bs => exact absurd (List.cons.inj h).1.symm hne
  | cons a as ih =>
      cases bs with
      | nil => exact absurd (List.cons.inj h).1 hne
      | cons b bs =>
          rw [List.flatMap_cons, List.flatMap_cons, List.cons_append, List.cons_append,
            List.cons_append, List.cons_append, List.append_assoc, List.append_assoc] at h
          obtain ⟨rfl, hrest⟩ := hitems a List.mem_cons_self b _ _
            (follows_separated hsep hclose as s) (follows_separated hsep hclose bs t)
            (List.cons.inj h).2
          obtain ⟨rfl, rfl⟩ := ih (fun c hc => hitems c (List.mem_cons_of_mem _ hc)) hrest
          exact ⟨rfl, rfl⟩

/-- A list is read back if its items are, and if no item starts as the list closes. -/
theorem intercalate_close_inj (hsep : stop sep) (hclose : stop close) (hne : sep ≠ close)
    (hopen : ∀ a s t, write a ++ s ≠ close :: t) {as bs : List α}
    (hitems : ∀ a ∈ as, Told stop write a) {s t : List β}
    (h : [sep].intercalate (as.map write) ++ close :: s =
      [sep].intercalate (bs.map write) ++ close :: t) : as = bs ∧ s = t := by
  have hbehind : ∀ (a : α) (items : List α) (rest : List β),
      [sep].intercalate ((a :: items).map write) ++ close :: rest =
        write a ++ (items.flatMap (fun b => sep :: write b) ++ close :: rest) := by
    intro a items rest
    rw [List.map_cons, intercalate_cons, List.flatMap_map, List.append_assoc]
  cases as with
  | nil =>
      cases bs with
      | nil => exact ⟨rfl, (List.cons.inj h).2⟩
      | cons b bs =>
          rw [hbehind] at h
          exact absurd h.symm (hopen b _ _)
  | cons a as =>
      cases bs with
      | nil =>
          rw [hbehind] at h
          exact absurd h (hopen a _ _)
      | cons b bs =>
          rw [hbehind, hbehind] at h
          obtain ⟨rfl, hrest⟩ := hitems a List.mem_cons_self b _ _
            (follows_separated hsep hclose as s) (follows_separated hsep hclose bs t) h
          obtain ⟨rfl, rfl⟩ := separated_inj hsep hclose hne
            (fun c hc => hitems c (List.mem_cons_of_mem _ hc)) hrest
          exact ⟨rfl, rfl⟩

end Lists

end PrefixCodes
