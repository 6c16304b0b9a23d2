import ChallengeForge.KeyedTable

/-!
# Directory trees

A tree of directories and files under a root, as the table of its entries:
a path is the list of names leading to an entry, the root is the empty path and
has no entry.  That every entry lies in a directory is a field of the structure,
so no operation can leave a file without its parent.

The operations are the system calls, `none` where the call fails: `write`,
`rename`, `unlink`, `mkdir`, `mkdirs` and `rmdir`.  `read` is what a path holds;
`read_write`, `read_rename`, `read_unlink`, `read_mkdirs` and `read_rmdir` say
what each call does to it, and `files` lists the paths that hold something.
-/

namespace Directory

universe u v

/-- What a name stands for. -/
inductive Node (File : Type v)
  | file (contents : File)
  | dir
  deriving DecidableEq

/-- A path and what it leads to. -/
structure Entry (Name : Type u) (File : Type v) where
  path : List Name
  node : Node File

/-- Entries, each in a directory. -/
structure Tree (Name : Type u) (File : Type v) where
  entries : Keyed.Table (Entry Name File) Entry.path
  placed : ∀ e ∈ entries, e.path ≠ [] ∧ (e.path.dropLast = [] ∨
    ∃ d ∈ entries, d.path = e.path.dropLast ∧ d.node = .dir)

namespace Tree

variable {Name : Type u} {File : Type v}

/-- The tree that holds nothing. -/
def empty : Tree Name File := ⟨.empty, by simp⟩

variable [DecidableEq Name]

/-- What a path leads to. -/
def node? (t : Tree Name File) (p : List Name) : Option (Node File) :=
  if p = [] then some .dir else (t.entries.find? p).map Entry.node

/-- The contents of the file at a path. -/
def read (t : Tree Name File) (p : List Name) : Option File :=
  match t.node? p with
  | some (.file f) => some f
  | _ => none

/-- A file is at the path. -/
def isFile (t : Tree Name File) (p : List Name) : Bool := (t.read p).isSome

/-- A directory is at the path; the root is one. -/
def isDir (t : Tree Name File) (p : List Name) : Bool :=
  match t.node? p with
  | some .dir => true
  | _ => false

/-- Something is at the path. -/
def present (t : Tree Name File) (p : List Name) : Bool := (t.node? p).isSome

/-- The paths of the files strictly below a path. -/
def files (t : Tree Name File) (base : List Name) : List (List Name) :=
  (t.entries.select (fun e => base.isPrefixOf e.path && decide (e.path ≠ base) &&
    t.isFile e.path)).map Entry.path

/-! ## Reading -/

variable {t t' : Tree Name File} {p q : List Name}

/-- The empty tree has its root and nothing else. -/
@[simp] theorem node?_empty (hp : p ≠ []) : (empty : Tree Name File).node? p = none := by
  simp [node?, hp, empty]

/-- The path of an entry leads to its node. -/
theorem node?_of_mem {e : Entry Name File} (h : e ∈ t.entries) :
    t.node? e.path = some e.node := by
  rw [node?, if_neg (t.placed e h).1, Keyed.Table.find?_of_mem h, Option.map_some]

/-- A path that is not the root leads only to an entry. -/
theorem mem_of_node? {n : Node File} (hp : p ≠ []) (h : t.node? p = some n) :
    ∃ e ∈ t.entries, e.path = p ∧ e.node = n := by
  rw [node?, if_neg hp] at h
  obtain ⟨e, he, rfl⟩ := Option.map_eq_some_iff.mp h
  exact ⟨e, Keyed.Table.mem_of_find? he, Keyed.Table.key_of_find? he, rfl⟩

/-- Contents are those of a file at the path. -/
theorem read_eq_some_iff {f : File} : t.read p = some f ↔ t.node? p = some (.file f) := by
  unfold read
  constructor
  · intro h
    split at h
    · rename_i g hg
      cases h
      exact hg
    · cases h
  · intro h
    rw [h]

/-- A directory is at the path exactly when the path leads to one. -/
theorem isDir_eq_true_iff : t.isDir p = true ↔ t.node? p = some .dir := by
  unfold isDir
  constructor
  · intro h
    split at h
    · assumption
    · cases h
  · intro h
    rw [h]

/-- A file is at the path exactly when it can be read. -/
theorem isFile_eq_true_iff : t.isFile p = true ↔ ∃ f, t.read p = some f := by
  simp [isFile, Option.isSome_iff_exists]

/-- The root has no contents. -/
@[simp] theorem read_nil : t.read [] = none := rfl

/-- The root is a directory. -/
@[simp] theorem isDir_nil : t.isDir [] = true := rfl

/-- A path that leads to a directory holds no contents. -/
theorem read_of_isDir (h : t.isDir p = true) : t.read p = none := by
  rw [read, isDir_eq_true_iff.mp h]

/-- Nothing is at a path: no contents, and no directory. -/
theorem present_eq_false_iff : t.present p = false ↔ t.read p = none ∧ t.isDir p = false := by
  unfold present read isDir
  cases hnode : t.node? p with
  | none => simp
  | some node => cases node <;> simp

/-- Two trees that agree on what a path leads to agree on its contents. -/
theorem read_congr {s : Tree Name File} (h : s.node? p = t.node? p) : s.read p = t.read p := by
  unfold read
  rw [h]

/-- **Listing.**  The files below a path are the paths below it that hold contents. -/
theorem mem_files {base : List Name} :
    p ∈ t.files base ↔ base <+: p ∧ p ≠ base ∧ ∃ f, t.read p = some f := by
  simp only [files, List.mem_map, Keyed.Table.mem_select, Bool.and_eq_true,
    decide_eq_true_eq, List.isPrefixOf_iff_prefix, isFile_eq_true_iff]
  constructor
  · rintro ⟨e, ⟨_, ⟨hbase, hne⟩, hfile⟩, rfl⟩
    exact ⟨hbase, hne, hfile⟩
  · rintro ⟨hbase, hne, f, hf⟩
    have hp : p ≠ [] := by
      rintro rfl
      simp at hf
    obtain ⟨e, he, rfl, _⟩ := mem_of_node? hp (read_eq_some_iff.mp hf)
    exact ⟨e, ⟨he, ⟨hbase, hne⟩, f, hf⟩, rfl⟩

/-- No path is listed twice. -/
theorem nodup_files (base : List Name) : (t.files base).Nodup :=
  t.entries.nodup.sublist (List.filter_sublist.map Entry.path)

/-- Every path on the way to an entry is a directory. -/
theorem isDir_dropLast (hp : p ≠ []) (h : t.present p = true) :
    t.isDir p.dropLast = true := by
  obtain ⟨n, hn⟩ := Option.isSome_iff_exists.mp h
  obtain ⟨e, he, rfl, _⟩ := mem_of_node? hp hn
  rcases (t.placed e he).2 with hnil | hdir
  · rw [hnil]
    rfl
  · obtain ⟨d, hd, hpath, hnode⟩ := hdir
    rw [isDir_eq_true_iff, ← hpath, node?_of_mem hd, hnode]

/-- So is every path on the way to one further down. -/
theorem isDir_of_prefix (h : t.present p = true) (hq : q <+: p) (hne : q ≠ p) :
    t.isDir q = true := by
  obtain ⟨rest, rfl⟩ := hq
  induction rest using List.reverseRecOn with
  | nil => simp at hne
  | append_singleton rest n ih =>
      have hpath : (q ++ (rest ++ [n])).dropLast = q ++ rest := by
        rw [← List.append_assoc, List.dropLast_concat]
      have hdir := isDir_dropLast (by simp) h
      rw [hpath] at hdir
      by_cases hrest : q = q ++ rest
      · rw [hrest]
        exact hdir
      · refine ih ?_ hrest
        rw [present, isDir_eq_true_iff.mp hdir]
        rfl

/-! ## Setting one entry -/

/-- A path that may be given contents or made a directory: below a directory,
and not itself the root. -/
def Placeable (t : Tree Name File) (p : List Name) : Prop :=
  p ≠ [] ∧ t.isDir p.dropLast = true

instance (t : Tree Name File) (p : List Name) : Decidable (t.Placeable p) :=
  inferInstanceAs (Decidable (_ ∧ _))

/-- Put a node at a path that is no directory. -/
def place (t : Tree Name File) (p : List Name) (n : Node File)
    (hp : t.Placeable p) (hdir : t.isDir p = false) : Tree Name File where
  entries := ⟨(t.entries.delete (fun e => decide (e.path = p))).rows ++ [⟨p, n⟩], by
    rw [List.map_append]
    apply (t.entries.delete _).nodup.append (by simp)
    intro q hq hq'
    obtain ⟨e, he, rfl⟩ := List.mem_map.mp hq
    have hne := (Keyed.Table.mem_delete.mp (Keyed.Table.mem_iff.mpr he)).2
    simp at hq' hne
    exact hne hq'⟩
  placed := by
    have hkept : ∀ d ∈ t.entries, d.node = .dir →
        d ∈ (t.entries.delete (fun e => decide (e.path = p))).rows ++ [⟨p, n⟩] := by
      intro d hd hnode
      apply List.mem_append_left
      refine Keyed.Table.mem_iff.mp (Keyed.Table.mem_delete.mpr ⟨hd, ?_⟩)
      rw [decide_eq_false_iff_not]
      rintro rfl
      rw [← Bool.not_eq_true, isDir_eq_true_iff, node?_of_mem hd, hnode] at hdir
      exact hdir rfl
    have hstays : ∀ q, q = [] ∨ (∃ d ∈ t.entries, d.path = q ∧ d.node = .dir) →
        q = [] ∨ ∃ d ∈ (t.entries.delete (fun e => decide (e.path = p))).rows ++
          [⟨p, n⟩], d.path = q ∧ d.node = .dir := by
      intro q hq
      rcases hq with hnil | ⟨d, hd, hpath, hnode⟩
      · exact Or.inl hnil
      · exact Or.inr ⟨d, hkept d hd hnode, hpath, hnode⟩
    intro e he
    rcases List.mem_append.mp he with hold | hnew
    · have hmem := (Keyed.Table.mem_delete.mp (Keyed.Table.mem_iff.mpr hold)).1
      exact ⟨(t.placed e hmem).1, hstays _ (t.placed e hmem).2⟩
    · obtain rfl := List.mem_singleton.mp hnew
      refine ⟨hp.1, hstays _ ?_⟩
      by_cases hnil : p.dropLast = []
      · exact Or.inl hnil
      · exact Or.inr (mem_of_node? hnil (isDir_eq_true_iff.mp hp.2))

/-- Placing a node changes what its own path leads to. -/
theorem node?_place {n : Node File} (hp : t.Placeable p) (hdir : t.isDir p = false)
    (q : List Name) : (t.place p n hp hdir).node? q = if q = p then some n else t.node? q := by
  by_cases hnil : q = []
  · subst hnil
    have hne : ([] : List Name) ≠ p := fun h => hp.1 h.symm
    simp [node?, hne]
  · have hfind : (t.place p n hp hdir).entries.find? q =
        if q = p then some ⟨p, n⟩ else t.entries.find? q := by
      by_cases hq : q = p
      · subst hq
        rw [if_pos rfl, Keyed.Table.find?_eq_some_iff]
        exact ⟨List.mem_append_right _ (by simp), rfl⟩
      · rw [if_neg hq]
        cases hold : t.entries.find? q with
        | none =>
            rw [Keyed.Table.find?_eq_none_iff] at hold ⊢
            intro e he
            rcases List.mem_append.mp he with hmem | hnew
            · exact hold e (Keyed.Table.mem_delete.mp (Keyed.Table.mem_iff.mpr hmem)).1
            · obtain rfl := List.mem_singleton.mp hnew
              exact fun h => hq h.symm
        | some e =>
            obtain ⟨he, rfl⟩ := Keyed.Table.find?_eq_some_iff.mp hold
            rw [Keyed.Table.find?_eq_some_iff]
            refine ⟨List.mem_append_left _ (Keyed.Table.mem_iff.mp
              (Keyed.Table.mem_delete.mpr ⟨he, by simpa using hq⟩)), rfl⟩
    rw [node?, if_neg hnil, hfind, node?, if_neg hnil]
    split <;> simp

/-- Take away an entry that no other lies in. -/
def remove (t : Tree Name File) (p : List Name)
    (hleaf : ∀ e ∈ t.entries, e.path.dropLast = p → e.path = p) : Tree Name File where
  entries := t.entries.delete (fun e => decide (e.path = p))
  placed := by
    intro e he
    obtain ⟨hmem, hne⟩ := Keyed.Table.mem_delete.mp he
    have hpath : e.path ≠ p := by simpa using hne
    refine ⟨(t.placed e hmem).1, ?_⟩
    rcases (t.placed e hmem).2 with hnil | ⟨d, hd, hparent, hnode⟩
    · exact Or.inl hnil
    · have hother : d.path ≠ p := by
        intro h
        exact hpath (hleaf e hmem (hparent.symm.trans h))
      exact Or.inr ⟨d, Keyed.Table.mem_delete.mpr ⟨hd, by simpa using hother⟩, hparent, hnode⟩

/-- So does removing one. -/
theorem node?_remove {hleaf : ∀ e ∈ t.entries, e.path.dropLast = p → e.path = p}
    (hp : p ≠ []) (q : List Name) :
    (t.remove p hleaf).node? q = if q = p then none else t.node? q := by
  by_cases hnil : q = []
  · subst hnil
    simp [node?, Ne.symm hp]
  · have hfind : (t.remove p hleaf).entries.find? q =
        if q = p then none else t.entries.find? q := by
      by_cases hq : q = p
      · subst hq
        rw [if_pos rfl, Keyed.Table.find?_eq_none_iff]
        intro e he
        simpa using (Keyed.Table.mem_delete.mp he).2
      · rw [if_neg hq]
        cases hold : t.entries.find? q with
        | none =>
            rw [Keyed.Table.find?_eq_none_iff] at hold ⊢
            intro e he
            exact hold e (Keyed.Table.mem_delete.mp he).1
        | some e =>
            obtain ⟨he, rfl⟩ := Keyed.Table.find?_eq_some_iff.mp hold
            rw [Keyed.Table.find?_eq_some_iff]
            exact ⟨Keyed.Table.mem_delete.mpr ⟨he, by simpa using hq⟩, rfl⟩
    rw [node?, if_neg hnil, hfind, node?, if_neg hnil]
    split <;> simp

/-! ## The calls -/

/-- `open(p, "wb").write(f)`: the file is made or its contents replaced. -/
def write (t : Tree Name File) (p : List Name) (f : File) : Option (Tree Name File) :=
  if h : t.Placeable p ∧ t.isDir p = false then some (t.place p (.file f) h.1 h.2) else none

/-- `mkdir(p)`, which fails where something is. -/
def mkdir (t : Tree Name File) (p : List Name) : Option (Tree Name File) :=
  if h : t.Placeable p ∧ t.present p = false then
    some (t.place p .dir h.1 (by
      have hnone := h.2
      rw [present, Option.isSome_eq_false_iff, Option.isNone_iff_eq_none] at hnone
      rw [isDir, hnone]))
  else none

/-- Nothing lies in a file. -/
theorem leaf_of_isFile (h : t.isFile p = true) :
    ∀ e ∈ t.entries, e.path.dropLast = p → e.path = p := by
  intro e he hparent
  have hpresent : t.present e.path = true := by
    rw [present, node?_of_mem he]
    rfl
  have hdir := isDir_dropLast (t.placed e he).1 hpresent
  rw [hparent] at hdir
  obtain ⟨f, hf⟩ := isFile_eq_true_iff.mp h
  rw [read_of_isDir hdir] at hf
  cases hf

/-- `unlink(p)` of a file. -/
def unlink (t : Tree Name File) (p : List Name) : Option (Tree Name File) :=
  if h : t.isFile p = true then some (t.remove p (leaf_of_isFile h)) else none

/-- `rmdir(p)`, which fails unless the directory is empty. -/
def rmdir (t : Tree Name File) (p : List Name) : Option (Tree Name File) :=
  if h : (p ≠ [] ∧ t.isDir p = true) ∧ ∀ e ∈ t.entries, e.path.dropLast = p → e.path = p then
    some (t.remove p h.2)
  else none

/-- `mkdir(p, parents=True, exist_ok=True)`, from the root down. -/
def mkdirs (t : Tree Name File) (done : List Name) : List Name → Option (Tree Name File)
  | [] => some t
  | n :: rest =>
      let p := done ++ [n]
      if t.isDir p then t.mkdirs p rest
      else (t.mkdir p).bind (fun t' => t'.mkdirs p rest)

/-- `os.replace(p, q)` of a file: what `q` held is replaced. -/
def rename (t : Tree Name File) (p q : List Name) : Option (Tree Name File) :=
  match t.read p with
  | none => none
  | some f => if p = q then some t else (t.write q f).bind (fun t' => t'.unlink p)

/-- Remove the directories of a path from the last one up, while they are empty. -/
def pruneUp (t : Tree Name File) : List Name → Tree Name File
  | [] => t
  | n :: up =>
      let p := (n :: up).reverse
      if t.isDir p then
        match t.rmdir p with
        | some t' => t'.pruneUp up
        | none => t
      else t

/-- The directories of a path, from the last one up, while they are empty. -/
def prune (t : Tree Name File) (p : List Name) : Tree Name File := t.pruneUp p.reverse

/-- A write changes what its own path leads to. -/
theorem node?_write {f : File} (h : t.write p f = some t') (q : List Name) :
    t'.node? q = if q = p then some (.file f) else t.node? q := by
  unfold write at h
  split at h
  · cases h
    exact node?_place _ _ q
  · cases h

/-- **Write.**  The path written holds what was written; the others are as before. -/
theorem read_write {f : File} (h : t.write p f = some t') (q : List Name) :
    t'.read q = if q = p then some f else t.read q := by
  unfold read
  rw [node?_write h]
  by_cases hq : q = p <;> simp [hq]

/-- A write makes no directory and removes none. -/
theorem isDir_write {f : File} (h : t.write p f = some t') (q : List Name) :
    t'.isDir q = t.isDir q := by
  have hdir : t.isDir p = false := by
    unfold write at h
    split at h
    · rename_i hok
      exact hok.2
    · cases h
  unfold isDir at hdir ⊢
  rw [node?_write h]
  by_cases hq : q = p
  · subst hq
    simpa using hdir.symm
  · simp [hq]

/-- A write succeeds where a file may be placed and no directory is. -/
theorem write_eq_some {f : File} (hp : t.Placeable p) (hdir : t.isDir p = false) :
    ∃ t', t.write p f = some t' := by
  simp [write, hp, hdir]

/-- **Mkdir.**  A new directory changes no contents. -/
theorem read_mkdir (h : t.mkdir p = some t') (q : List Name) : t'.read q = t.read q := by
  unfold mkdir at h
  split at h
  · rename_i hok
    cases h
    unfold read
    rw [node?_place]
    have hnone : t.node? p = none := by simpa [present] using hok.2
    by_cases hq : q = p
    · subst hq
      simp [hnone]
    · simp [hq]
  · cases h

/-- A new directory is a directory; the others stay. -/
theorem isDir_mkdir (h : t.mkdir p = some t') (q : List Name) :
    t'.isDir q = (decide (q = p) || t.isDir q) := by
  unfold mkdir at h
  split at h
  · cases h
    unfold isDir
    rw [node?_place]
    by_cases hq : q = p <;> simp [hq]
  · cases h

/-- Making directories changes no contents. -/
theorem read_mkdirs {done rest : List Name} (h : t.mkdirs done rest = some t')
    (q : List Name) : t'.read q = t.read q := by
  induction rest generalizing t done with
  | nil =>
      cases h
      rfl
  | cons n rest ih =>
      simp only [mkdirs] at h
      split at h
      · exact ih h
      · obtain ⟨u, hu, hrest⟩ := Option.bind_eq_some_iff.mp h
        rw [ih hrest, read_mkdir hu]

/-- The last directory asked for is there. -/
theorem isDir_mkdirs {done rest : List Name} (hdone : t.isDir done = true)
    (h : t.mkdirs done rest = some t') : t'.isDir (done ++ rest) = true := by
  induction rest generalizing t done with
  | nil =>
      cases h
      simpa using hdone
  | cons n rest ih =>
      simp only [mkdirs] at h
      have hpath : done ++ n :: rest = (done ++ [n]) ++ rest := by simp
      rw [hpath]
      split at h
      · rename_i hdir
        exact ih hdir h
      · obtain ⟨u, hu, hrest⟩ := Option.bind_eq_some_iff.mp h
        exact ih (by simp [isDir_mkdir hu]) hrest

/-- A directory afterwards was there before, or is on the way. -/
theorem isDir_of_mkdirs {done rest q : List Name} (h : t.mkdirs done rest = some t')
    (hdir : t'.isDir q = true) : t.isDir q = true ∨ q <+: done ++ rest := by
  induction rest generalizing t done with
  | nil =>
      cases h
      exact Or.inl hdir
  | cons n rest ih =>
      have hsplit : done ++ n :: rest = (done ++ [n]) ++ rest := by simp
      rw [hsplit]
      simp only [mkdirs] at h
      split at h
      · exact ih h
      · obtain ⟨u, hu, hrest⟩ := Option.bind_eq_some_iff.mp h
        rcases ih hrest with hold | hway
        · rw [isDir_mkdir hu, Bool.or_eq_true, decide_eq_true_eq] at hold
          rcases hold with rfl | hold
          · exact Or.inr (List.prefix_append _ _)
          · exact Or.inl hold
        · exact Or.inr hway

/-- Directories can be made where no file is on the way. -/
theorem mkdirs_eq_some {done rest : List Name} (hdone : t.isDir done = true)
    (hway : ∀ q, done <+: q → q <+: done ++ rest → t.isFile q = false) :
    ∃ t', t.mkdirs done rest = some t' := by
  induction rest generalizing t done with
  | nil => exact ⟨t, rfl⟩
  | cons n rest ih =>
      have hlater : ∀ q, done ++ [n] <+: q → q <+: (done ++ [n]) ++ rest →
          t.isFile q = false := by
        intro q hdone' hq
        exact hway q ((List.prefix_append _ _).trans hdone') (by simpa using hq)
      simp only [mkdirs]
      by_cases hdir : t.isDir (done ++ [n]) = true
      · rw [if_pos hdir]
        exact ih hdir hlater
      · rw [if_neg hdir]
        have habsent : t.present (done ++ [n]) = false := by
          have hfile := hlater (done ++ [n]) (List.prefix_refl _) (List.prefix_append _ _)
          unfold isFile read at hfile
          unfold isDir at hdir
          unfold present
          cases hnode : t.node? (done ++ [n]) with
          | none => rfl
          | some node => cases node <;> simp [hnode] at hfile hdir
        have hplace : t.Placeable (done ++ [n]) ∧ t.present (done ++ [n]) = false :=
          ⟨⟨by simp, by simpa using hdone⟩, habsent⟩
        obtain ⟨u, hu⟩ : ∃ u, t.mkdir (done ++ [n]) = some u := by
          rw [mkdir, dif_pos hplace]
          exact ⟨_, rfl⟩
        have hread : ∀ q, u.isFile q = t.isFile q := by
          intro q
          rw [isFile, isFile, read_mkdir hu]
        have hmade : u.isDir (done ++ [n]) = true := by simp [isDir_mkdir hu]
        obtain ⟨t', ht'⟩ := ih hmade
          (fun q hdone' hq => by rw [hread]; exact hlater q hdone' hq)
        exact ⟨t', by rw [hu]; exact ht'⟩

/-- **Unlink.**  The path holds nothing afterwards; the others are as before. -/
theorem read_unlink (h : t.unlink p = some t') (q : List Name) :
    t'.read q = if q = p then none else t.read q := by
  unfold unlink at h
  split at h
  · rename_i hfile
    cases h
    have hp : p ≠ [] := by
      rintro rfl
      simp [isFile] at hfile
    unfold read
    rw [node?_remove hp]
    by_cases hq : q = p <;> simp [hq]
  · cases h

/-- A file can be unlinked. -/
theorem unlink_eq_some (h : t.isFile p = true) : ∃ t', t.unlink p = some t' := by
  simp [unlink, h]

/-- Removing a file removes no directory. -/
theorem isDir_unlink (h : t.unlink p = some t') (q : List Name) : t'.isDir q = t.isDir q := by
  unfold unlink at h
  split at h
  · rename_i hfile
    cases h
    have hp : p ≠ [] := by
      rintro rfl
      simp [isFile] at hfile
    unfold isDir
    rw [node?_remove hp]
    by_cases hq : q = p
    · subst hq
      obtain ⟨f, hf⟩ := isFile_eq_true_iff.mp hfile
      simp [read_eq_some_iff.mp hf]
    · rw [if_neg hq]
  · cases h

/-- **Rmdir.**  Removing an empty directory changes no contents. -/
theorem read_rmdir (h : t.rmdir p = some t') (q : List Name) : t'.read q = t.read q := by
  unfold rmdir at h
  split at h
  · rename_i hok
    cases h
    have hnone : t.read p = none := read_of_isDir hok.1.2
    by_cases hq : q = p
    · subst hq
      rw [hnone, read, node?_remove hok.1.1, if_pos rfl]
    · apply read_congr
      rw [node?_remove hok.1.1, if_neg hq]
  · cases h

/-- Pruning empty directories changes no contents. -/
theorem read_pruneUp (up q : List Name) : (t.pruneUp up).read q = t.read q := by
  induction up generalizing t with
  | nil => rfl
  | cons n up ih =>
      simp only [pruneUp]
      split
      · split
        · rename_i u hu
          rw [ih, read_rmdir hu]
        · rfl
      · rfl

/-- Removing empty directories makes none. -/
theorem isDir_pruneUp {up q : List Name} (h : (t.pruneUp up).isDir q = true) :
    t.isDir q = true := by
  induction up generalizing t with
  | nil => exact h
  | cons n up ih =>
      simp only [pruneUp] at h
      split at h
      · split at h
        · rename_i u hu
          have hdir := ih h
          unfold rmdir at hu
          split at hu
          · rename_i hok
            cases hu
            unfold isDir at hdir ⊢
            rw [node?_remove hok.1.1] at hdir
            by_cases hq : q = (n :: up).reverse
            · rw [if_pos hq] at hdir
              cases hdir
            · rwa [if_neg hq] at hdir
          · cases hu
        · exact h
      · exact h

/-- Removing empty directories changes no contents. -/
@[simp] theorem read_prune (p q : List Name) : (t.prune p).read q = t.read q :=
  read_pruneUp _ q

/-- **Rename.**  The contents move; the paths that are neither are as before. -/
theorem read_rename (h : t.rename p q = some t') (r : List Name) :
    t'.read r = if r = q then t.read p else if r = p then none else t.read r := by
  unfold rename at h
  split at h
  · cases h
  · rename_i f hf
    split at h
    · rename_i hpq
      cases h
      subst hpq
      by_cases hr : r = p <;> simp [hr]
    · rename_i hpq
      obtain ⟨u, hu, hun⟩ := Option.bind_eq_some_iff.mp h
      rw [read_unlink hun, read_write hu, hf]
      by_cases hr : r = q
      · subst hr
        simp [Ne.symm hpq]
      · simp [hr]

/-- A rename makes no directory and removes none. -/
theorem isDir_rename (h : t.rename p q = some t') (r : List Name) : t'.isDir r = t.isDir r := by
  unfold rename at h
  split at h
  · cases h
  · split at h
    · cases h
      rfl
    · obtain ⟨u, hu, hun⟩ := Option.bind_eq_some_iff.mp h
      rw [isDir_unlink hun, isDir_write hu]

/-- A file can be moved to where it can be written. -/
theorem rename_eq_some {f : File} (hread : t.read p = some f) (hq : t.Placeable q)
    (hdir : t.isDir q = false) : ∃ t', t.rename p q = some t' := by
  unfold rename
  rw [hread]
  by_cases hpq : p = q
  · exact ⟨t, by simp [hpq]⟩
  · obtain ⟨u, hu⟩ := write_eq_some (f := f) hq hdir
    have hfile : u.isFile p = true := by
      rw [isFile_eq_true_iff]
      exact ⟨f, by rw [read_write hu, if_neg hpq, hread]⟩
    obtain ⟨t', ht'⟩ := unlink_eq_some hfile
    exact ⟨t', by simp [hpq, hu, ht']⟩

end Tree

end Directory
