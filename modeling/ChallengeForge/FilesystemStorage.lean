import ChallengeForge.ArtifactStorage
import ChallengeForge.DirectoryTree
import ChallengeForge.PythonText
import ChallengeForge.Utf8
import Mathlib.Data.List.DropRight

/-!
# The filesystem storage

`LocalFilesystemStorage`: blobs as files of a directory tree below the storage
root.  A key is a text; `_resolve` turns it into a path, and several keys may lead
to one path, because empty and `.` components vanish.  `iter_keys` writes each
path back as a text.

Paths are relative to the resolved root, which no symbolic link leaves, so the
`relative_to` check of `_resolve` passes once `..` is refused.  Names may be of any
length here; `NameLimits` has the calls on a file system that refuses long ones.

* `resolve_asPosix` — the key a path is listed under leads back to it;
* `asPosix_eq_iff` — which keys are listed under their own name;
* `delete_spec` — what `delete` does to every path;
* `get_put` — a published key reads as what was put.
-/

namespace ChallengeForge

open Directory

/-- A component of a path. -/
structure Name where
  text : List Char
  valid : text ≠ [] ∧ '/' ∉ text ∧ '\x00' ∉ text ∧ text ≠ ['.'] ∧ text ≠ ['.', '.']
  deriving DecidableEq

namespace Name

theorem ext_text {n m : Name} (h : n.text = m.text) : n = m := by
  cases n; cases m; cases h; rfl

/-- The text as a name, if it is one. -/
def ofText? (text : List Char) : Option Name :=
  if h : text ≠ [] ∧ '/' ∉ text ∧ '\x00' ∉ text ∧ text ≠ ['.'] ∧ text ≠ ['.', '.'] then
    some ⟨text, h⟩
  else none

@[simp] theorem ofText?_text (n : Name) : ofText? n.text = some n := by
  rw [ofText?, dif_pos n.valid]

/-- `path.suffix`: the name from its last dot, unless that dot is its first or
last character. -/
def suffix (name : List Char) : List Char :=
  if 0 < rfind name '.' ∧ rfind name '.' < (name.length : Int) - 1 then
    name.drop (rfind name '.').toNat
  else []

/-- `path.with_suffix(suffix).name`. -/
def withSuffix (name newSuffix : List Char) : List Char :=
  let old := suffix name
  if old = [] then name ++ newSuffix else name.take (name.length - old.length) ++ newSuffix

/-- **Growing the suffix.**  `with_suffix(path.suffix + ext)` puts `ext` at the
end of the name. -/
theorem withSuffix_suffix (name ext : List Char) :
    withSuffix name (suffix name ++ ext) = name ++ ext := by
  unfold withSuffix
  by_cases hold : suffix name = []
  · simp [hold]
  · have htail : suffix name = name.drop (rfind name '.').toNat := by
      unfold suffix at hold ⊢
      split
      · rfl
      · rename_i h
        simp [h] at hold
    have hlen : (rfind name '.').toNat ≤ name.length := by
      unfold suffix at hold
      split at hold
      · omega
      · exact absurd rfl hold
    have hcut : name.length - (suffix name).length = (rfind name '.').toNat := by
      rw [htail, List.length_drop]
      omega
    rw [if_neg hold, hcut, htail, ← List.append_assoc, List.take_append_drop]

end Name

/-- A file and its `st_mtime`, in seconds. -/
structure StoredFile where
  data : List UInt8
  mtime : Rat
  deriving DecidableEq

/-- The files below the storage root. -/
abbrev Disk := Tree Name StoredFile

/-- A path below the storage root. -/
abbrev Path := List Name

/-- What the storage raises. -/
inductive StorageError
  | value (message : String)
  | fileNotFound (name : String)
  | os
  deriving DecidableEq, Repr

/-- An exception, and the disk as the calls before it left it. -/
structure StorageFailure where
  error : StorageError
  disk : Disk

/-- `Path(text).parts`. -/
def pathParts (text : List Char) : List (List Char) :=
  (text.splitOn '/').filter (fun part => decide (part ≠ [] ∧ part ≠ ['.']))

/-- `path.as_posix()`. -/
def asPosix (path : Path) : String :=
  String.ofList (['/'].intercalate (path.map Name.text))

namespace Disk

/-- `_resolve(key)`. -/
def resolve (key : String) : Except StorageError Path :=
  if key.toList = [] ∨ startsWith key.toList "/" ∨ ['.', '.'] ∈ pathParts key.toList then
    .error (.value "Invalid artifact key.")
  else if '\x00' ∈ key.toList then .error (.value "embedded null byte")
  else .ok ((pathParts key.toList).filterMap Name.ofText?)

/-- `path.with_suffix(path.suffix + ext)`; the root's lies outside the root. -/
def sibling (path : Path) (ext : String) : Option Path :=
  match path.getLast? with
  | none => none
  | some name =>
      (Name.ofText? (Name.withSuffix name.text (Name.suffix name.text ++ ext.toList))).map
        (fun renamed => path.dropLast ++ [renamed])

/-- `_sidecar(path)`. -/
def sidecar (path : Path) : Option Path := sibling path ".content_type"

/-- One call: what it leaves, or an `OSError`. -/
def attempt (disk : Disk) (called : Option Disk) : Except StorageFailure Disk :=
  match called with
  | some disk' => .ok disk'
  | none => .error ⟨.os, disk⟩

/-- The result of a computation that touches no file. -/
def lookup {α : Type} (disk : Disk) (found : Except StorageError α) :
    Except StorageFailure α :=
  match found with
  | .ok a => .ok a
  | .error e => .error ⟨e, disk⟩

/-- `content_type or "application/octet-stream"`, as the sidecar holds it. -/
def sidecarData (contentType : String) : List UInt8 :=
  Utf8.encode (if contentType = "" then "application/octet-stream" else contentType).toList

/-- A sibling of a path below the root. -/
def siblingOf (path : Path) (ext : String) : Except StorageError Path :=
  match sibling path ext with
  | some p => .ok p
  | none => .error (.value "has an empty name")

/-- `put(key, data, content_type)` at the time `now`, where no name is too long
(`putWithin` asks). -/
def put (disk : Disk) (key : String) (data : List UInt8) (contentType : String) (now : Rat) :
    Except StorageFailure (Disk × String) := do
  let path ← lookup disk (resolve key)
  let disk ← attempt disk (disk.mkdirs [] path.dropLast)
  let tmp ← lookup disk (siblingOf path ".tmp")
  let disk ← attempt disk (disk.write tmp ⟨data, now⟩)
  let disk ← attempt disk (disk.rename tmp path)
  let sidecar ← lookup disk (siblingOf path ".content_type")
  let disk ← attempt disk (disk.write sidecar ⟨sidecarData contentType, now⟩)
  return (disk, key)

/-- `shutil.copyfile(src, tmp)` and the unlink of `src`, which may fail. -/
def copyOver (disk : Disk) (source tmp : Path) (now : Rat) : Option Disk :=
  (disk.read source).bind (fun file =>
    (disk.write tmp ⟨file.data, now⟩).map (fun disk => (disk.unlink source).getD disk))

/-- `put_from_path(key, source, content_type)`, the source being a file below the
root. -/
def putFromPath (disk : Disk) (key : String) (source : Path) (contentType : String)
    (now : Rat) : Except StorageFailure (Disk × String) := do
  let path ← lookup disk (resolve key)
  let disk ← attempt disk (disk.mkdirs [] path.dropLast)
  if disk.isFile source then
    let tmp ← lookup disk (siblingOf path ".tmp")
    let disk ← if disk.present tmp then attempt disk (disk.unlink tmp) else pure disk
    let disk ← match disk.rename source tmp with
      | some disk => pure disk
      | none => attempt disk (copyOver disk source tmp now)
    let disk ← attempt disk (disk.rename tmp path)
    let sidecar ← lookup disk (siblingOf path ".content_type")
    let disk ← attempt disk (disk.write sidecar ⟨sidecarData contentType, now⟩)
    return (disk, key)
  else throw ⟨.fileNotFound (asPosix source), disk⟩

/-- `get(key)`. -/
def get (disk : Disk) (key : String) : Except StorageError (List UInt8) := do
  let path ← resolve key
  match disk.read path with
  | some file => return file.data
  | none => throw (.fileNotFound key)

/-- `exists(key)`. -/
def blobExists (disk : Disk) (key : String) : Except StorageError Bool := do
  let path ← resolve key
  return disk.isFile path

/-- `if path.is_file(): path.unlink()`, and whether it was. -/
def unlinkFile (disk : Disk) (path : Path) : Disk × Bool :=
  match disk.unlink path with
  | some disk => (disk, true)
  | none => (disk, false)

/-- The same of the sidecar of a path. -/
def unlinkSidecar (disk : Disk) (path : Path) : Disk × Bool :=
  match sidecar path with
  | some side => unlinkFile disk side
  | none => (disk, false)

/-- `delete(key)`. -/
def delete (disk : Disk) (key : String) : Except StorageError (Disk × Bool) := do
  let path ← resolve key
  let (disk, removed) := unlinkFile disk path
  let (disk, sidecarRemoved) := unlinkSidecar disk path
  return (disk.prune path.dropLast, removed || sidecarRemoved)

/-- A name `iter_keys` leaves out. -/
def hidden (path : Path) : Bool :=
  match path.getLast? with
  | none => false
  | some name => endsWith name.text ".content_type" || endsWith name.text ".tmp"

/-- `Path(prefix)` below the root. -/
def resolvePrefix (start : String) : Except StorageError Path :=
  if start.toList = [] then .ok []
  else if startsWith start.toList "/" ∨ ['.', '.'] ∈ pathParts start.toList then
    .error (.value "Invalid prefix.")
  else if '\x00' ∈ start.toList then .error (.value "embedded null byte")
  else .ok ((pathParts start.toList).filterMap Name.ofText?)

/-- The paths `iter_keys(prefix)` lists. -/
def iterPaths (disk : Disk) (base : Path) : List Path :=
  (disk.files base).filter (fun path => !hidden path)

/-- `iter_keys(prefix)`. -/
def iterKeys (disk : Disk) (start : String) : Except StorageError (List String) := do
  let base ← resolvePrefix start
  return (iterPaths disk base).map asPosix

/-- `mtime(key)`. -/
def mtime (disk : Disk) (key : String) : Except StorageError (Option Rat) := do
  let path ← resolve key
  return (disk.read path).map StoredFile.mtime

/-! ## Listed names -/

/-- The components of a listed name are the names of its path. -/
theorem pathParts_asPosix {path : Path} (hpath : path ≠ []) :
    pathParts (asPosix path).toList = path.map Name.text := by
  unfold pathParts asPosix
  rw [String.toList_ofList, List.splitOn_intercalate]
  · rw [List.filter_eq_self]
    intro part hpart
    obtain ⟨name, _, rfl⟩ := List.mem_map.mp hpart
    simp [name.valid.1, name.valid.2.2.2.1]
  · intro part hpart
    obtain ⟨name, _, rfl⟩ := List.mem_map.mp hpart
    exact name.valid.2.1
  · simpa using hpath

/-- A listed name starts with the first character of its first name. -/
theorem asPosix_cons (name : Name) (rest : Path) :
    ∃ tail, (asPosix (name :: rest)).toList = name.text ++ tail := by
  unfold asPosix
  rw [String.toList_ofList]
  cases rest with
  | nil => exact ⟨[], by simp⟩
  | cons next rest =>
      exact ⟨['/'] ++ ['/'].intercalate ((next :: rest).map Name.text), by
        simp only [List.map_cons]
        rw [List.intercalate_cons_cons, List.append_assoc]⟩

/-- **A listed name leads back to its path.** -/
theorem resolve_asPosix {path : Path} (hpath : path ≠ []) :
    resolve (asPosix path) = .ok path := by
  have hparts := pathParts_asPosix hpath
  have hhead : ¬ ((asPosix path).toList = [] ∨ startsWith (asPosix path).toList "/" ∨
      ['.', '.'] ∈ pathParts (asPosix path).toList) := by
    obtain ⟨name, rest, rfl⟩ := List.exists_cons_of_ne_nil hpath
    obtain ⟨tail, htail⟩ := asPosix_cons name rest
    obtain ⟨c, text, htext⟩ := List.exists_cons_of_ne_nil name.valid.1
    have hslash : c ≠ '/' := by
      rintro rfl
      exact name.valid.2.1 (by rw [htext]; simp)
    rw [hparts, htail, htext]
    rintro (h | h | h)
    · simp at h
    · simp [startsWith, List.isPrefixOf, Ne.symm hslash] at h
    · obtain ⟨other, _, hdots⟩ := List.mem_map.mp h
      exact other.valid.2.2.2.2 hdots
  have hnull : '\x00' ∉ (asPosix path).toList := by
    intro h
    rw [asPosix, String.toList_ofList] at h
    rcases mem_intercalate h with hsep | ⟨part, hpart, hc⟩
    · exact absurd hsep (by decide)
    · obtain ⟨name, _, rfl⟩ := List.mem_map.mp hpart
      exact name.valid.2.2.1 hc
  rw [resolve, if_neg hhead, if_neg hnull, hparts, List.filterMap_map]
  have hnames : (Name.ofText? ∘ Name.text) = some := funext Name.ofText?_text
  rw [hnames, List.filterMap_some]

/-- The names of a resolved path are the components of its key. -/
theorem text_of_resolve {key : String} {path : Path} (h : resolve key = .ok path) :
    path.map Name.text = pathParts key.toList := by
  unfold resolve at h
  split at h
  · cases h
  split at h
  · cases h
  rename_i hhead hnull
  cases h
  have hvalid : ∀ part ∈ pathParts key.toList, ∃ name : Name,
      Name.ofText? part = some name ∧ name.text = part := by
    intro part hpart
    have hkept := (List.mem_filter.mp hpart).2
    have hsplit := (List.mem_filter.mp hpart).1
    have hchars : ∀ c ∈ part, c ∈ key.toList := by
      intro c hc
      have hjoin : ['/'].intercalate (key.toList.splitOn '/') = key.toList :=
        List.intercalate_splitOn '/'
      rw [← hjoin]
      exact mem_intercalate_of_mem hsplit hc
    have hslash : '/' ∉ part := not_mem_of_mem_splitOn hsplit
    simp only [decide_eq_true_eq] at hkept
    have hdots : part ≠ ['.', '.'] := by
      rintro rfl
      exact hhead (Or.inr (Or.inr hpart))
    have hall : part ≠ [] ∧ '/' ∉ part ∧ '\x00' ∉ part ∧ part ≠ ['.'] ∧
        part ≠ ['.', '.'] :=
      ⟨hkept.1, hslash, fun hc => hnull (hchars _ hc), hkept.2, hdots⟩
    exact ⟨⟨part, hall⟩, by rw [Name.ofText?, dif_pos hall], rfl⟩
  generalize pathParts key.toList = parts at hvalid
  induction parts with
  | nil => rfl
  | cons part rest ih =>
      obtain ⟨name, hname, htext⟩ := hvalid part (by simp)
      rw [List.filterMap_cons_some hname, List.map_cons, htext,
        ih (fun q hq => hvalid q (List.mem_cons_of_mem _ hq))]

/-- A key no component of which vanishes. -/
def InNormalForm (key : String) : Prop :=
  ∀ part ∈ key.toList.splitOn '/', part ≠ [] ∧ part ≠ ['.']

instance (key : String) : Decidable (InNormalForm key) :=
  inferInstanceAs (Decidable (∀ part ∈ key.toList.splitOn '/', _))

/-- **Listed under its own name.**  A stored key is what `iter_keys` lists its
file under just when it is in normal form. -/
theorem asPosix_eq_iff {key : String} {path : Path} (h : resolve key = .ok path) :
    asPosix path = key ↔ InNormalForm key := by
  have htext := text_of_resolve h
  constructor
  · intro hlisted part hpart
    have hparts : path.map Name.text = key.toList.splitOn '/' := by
      by_cases hnil : path = []
      · subst hnil
        have hempty : key.toList = [] := by
          rw [← hlisted]
          rfl
        simp [resolve, hempty] at h
      · rw [← hlisted, asPosix, String.toList_ofList, List.splitOn_intercalate]
        · intro part hpart
          obtain ⟨name, _, rfl⟩ := List.mem_map.mp hpart
          exact name.valid.2.1
        · simpa using hnil
    rw [← hparts] at hpart
    obtain ⟨name, _, rfl⟩ := List.mem_map.mp hpart
    exact ⟨name.valid.1, name.valid.2.2.2.1⟩
  · intro hnormal
    have hparts : pathParts key.toList = key.toList.splitOn '/' := by
      rw [pathParts, List.filter_eq_self]
      intro part hpart
      simpa using hnormal part hpart
    rw [asPosix, htext, hparts, List.intercalate_splitOn, String.ofList_toList]

/-! ## Sidecars -/

/-- An extension the storage appends to a name. -/
def IsExtension (ext : String) : Prop :=
  '/' ∉ ext.toList ∧ '\x00' ∉ ext.toList ∧ 2 < ext.toList.length

instance (ext : String) : Decidable (IsExtension ext) := inferInstanceAs (Decidable (_ ∧ _))

/-- The sibling of a path has its last name extended. -/
theorem sibling_concat {ext : String} (hext : IsExtension ext) (dir : Path) (name : Name) :
    ∃ renamed : Name, sibling (dir ++ [name]) ext = some (dir ++ [renamed]) ∧
      renamed.text = name.text ++ ext.toList := by
  obtain ⟨hslash, hnull, hlong⟩ := hext
  have hlength : 2 < (name.text ++ ext.toList).length := by
    rw [List.length_append]
    omega
  have hvalid : name.text ++ ext.toList ≠ [] ∧ '/' ∉ name.text ++ ext.toList ∧
      '\x00' ∉ name.text ++ ext.toList ∧ name.text ++ ext.toList ≠ ['.'] ∧
      name.text ++ ext.toList ≠ ['.', '.'] := by
    refine ⟨?_, ?_, ?_, ?_, ?_⟩
    · intro h
      simp [h] at hlength
    · simp [name.valid.2.1, hslash]
    · simp [name.valid.2.2.1, hnull]
    · intro h
      simp [h] at hlength
    · intro h
      simp [h] at hlength
  refine ⟨⟨name.text ++ ext.toList, hvalid⟩, ?_, rfl⟩
  simp only [sibling, List.getLast?_concat, Name.withSuffix_suffix, List.dropLast_concat]
  rw [Name.ofText?, dif_pos hvalid, Option.map_some]

theorem sidecar_extension : IsExtension ".content_type" := by decide

theorem exists_concat {path : Path} (hpath : path ≠ []) :
    ∃ dir name, path = dir ++ [name] :=
  ⟨path.dropLast, path.getLast hpath, (List.dropLast_append_getLast hpath).symm⟩

/-- A path below the root has a sidecar, and `iter_keys` never lists it. -/
theorem sidecar_hidden {path : Path} (hpath : path ≠ []) :
    ∃ side, sidecar path = some side ∧ hidden side = true := by
  obtain ⟨dir, name, rfl⟩ := exists_concat hpath
  obtain ⟨renamed, hsome, htext⟩ := sibling_concat sidecar_extension dir name
  refine ⟨dir ++ [renamed], hsome, ?_⟩
  simp only [hidden, List.getLast?_concat, htext, Bool.or_eq_true]
  left
  rw [endsWith, List.isSuffixOf_iff_suffix]
  exact List.suffix_append _ _

/-- The root has no sidecar below the root. -/
@[simp] theorem sidecar_nil : sidecar [] = none := rfl

/-! ## What `delete` does to the disk -/

theorem read_unlinkFile (disk : Disk) (path q : Path) :
    (unlinkFile disk path).1.read q = if q = path then none else disk.read q := by
  unfold unlinkFile
  split
  · rename_i disk' h
    exact Tree.read_unlink h q
  · rename_i h
    by_cases hq : q = path
    · subst hq
      rw [if_pos rfl]
      cases hread : disk.read q with
      | none => rfl
      | some f =>
          obtain ⟨disk', hsome⟩ := Tree.unlink_eq_some (Tree.isFile_eq_true_iff.mpr ⟨f, hread⟩)
          rw [hsome] at h
          cases h
    · rw [if_neg hq]

/-- **Delete.**  The blob and its sidecar are gone; every other path holds what
it held. -/
theorem delete_spec (disk : Disk) {key : String} {path : Path}
    (hkey : resolve key = .ok path) :
    ∃ disk' removed, delete disk key = .ok (disk', removed) ∧
      ∀ q, disk'.read q =
        if q = path ∨ sidecar path = some q then none else disk.read q := by
  refine ⟨(unlinkSidecar (unlinkFile disk path).1 path).1.prune path.dropLast,
    (unlinkFile disk path).2 || (unlinkSidecar (unlinkFile disk path).1 path).2, ?_, ?_⟩
  · rw [delete, hkey]
    rfl
  · intro q
    rw [Tree.read_prune, unlinkSidecar]
    cases hsidecar : sidecar path with
    | none =>
        rw [read_unlinkFile]
        simp
    | some side =>
        simp only [read_unlinkFile]
        by_cases hside : q = side
        · subst hside
          simp
        · have hne : side ≠ q := fun h => hside h.symm
          simp [hside, hne]

theorem isDir_unlinkFile (disk : Disk) (path q : Path) :
    (unlinkFile disk path).1.isDir q = disk.isDir q := by
  unfold unlinkFile
  split
  · rename_i disk' h
    exact Tree.isDir_unlink h q
  · rfl

/-- Deleting a blob makes no directory. -/
theorem isDir_of_delete {disk disk' : Disk} {key : String} {removed : Bool}
    (h : delete disk key = .ok (disk', removed)) {q : Path} (hdir : disk'.isDir q = true) :
    disk.isDir q = true := by
  obtain ⟨path, hpath, -⟩ := except_bind_eq_ok h
  have hdelete : delete disk key = .ok
      ((unlinkSidecar (unlinkFile disk path).1 path).1.prune path.dropLast,
        (unlinkFile disk path).2 || (unlinkSidecar (unlinkFile disk path).1 path).2) := by
    rw [delete, hpath]
    rfl
  rw [hdelete] at h
  cases h
  have hkept := Tree.isDir_pruneUp hdir
  unfold unlinkSidecar at hkept
  split at hkept
  · rwa [isDir_unlinkFile, isDir_unlinkFile] at hkept
  · rwa [isDir_unlinkFile] at hkept

/-! ## What a key reads -/

theorem get_of_resolve {disk : Disk} {key : String} {path : Path}
    (hkey : resolve key = .ok path) :
    get disk key = match disk.read path with
      | some file => .ok file.data
      | none => .error (.fileNotFound key) := by
  unfold get
  rw [hkey]
  cases hread : disk.read path <;> simp [bind, Except.bind, hread, pure, Except.pure, throw,
    throwThe, MonadExceptOf.throw]

/-- A key that reads as a blob leads to a file with its bytes. -/
theorem read_of_get {disk : Disk} {key : String} {data : List UInt8}
    (h : get disk key = .ok data) :
    ∃ path file, resolve key = .ok path ∧ disk.read path = some file ∧ file.data = data := by
  obtain ⟨path, hpath, hrest⟩ := except_bind_eq_ok h
  cases hread : disk.read path with
  | none =>
      rw [hread] at hrest
      cases hrest
  | some file =>
      rw [hread] at hrest
      cases hrest
      exact ⟨path, file, hpath, hread, rfl⟩

theorem of_attempt {disk disk' : Disk} {called : Option Disk}
    (h : attempt disk called = .ok disk') : called = some disk' := by
  cases called with
  | none => cases h
  | some d =>
      cases h
      rfl

theorem of_lookup {α : Type} {disk : Disk} {found : Except StorageError α} {a : α}
    (h : lookup disk found = .ok a) : found = .ok a := by
  cases found with
  | error e => cases h
  | ok b =>
      cases h
      rfl

/-- A sibling is another path. -/
theorem siblingOf_ne {ext : String} (hext : IsExtension ext) {path p : Path}
    (h : siblingOf path ext = .ok p) : p ≠ path := by
  rintro rfl
  unfold siblingOf at h
  split at h
  · rename_i q hq
    cases h
    have hp : p ≠ [] := by
      rintro rfl
      cases hq
    obtain ⟨dir, name, rfl⟩ := exists_concat hp
    obtain ⟨renamed, hsome, htext⟩ := sibling_concat hext dir name
    rw [hq] at hsome
    injection hsome with hsame
    have hname : name = renamed := by simpa using hsame
    have hlength := congrArg List.length htext
    rw [← hname, List.length_append] at hlength
    have hlong := hext.2.2
    omega
  · cases h

/-- A published key leads to a file written at that time. -/
theorem read_put {disk disk' : Disk} {key result : String} {data : List UInt8}
    {contentType : String} {now : Rat}
    (h : put disk key data contentType now = .ok (disk', result)) :
    ∃ path, resolve key = .ok path ∧ Tree.read disk' path = some ⟨data, now⟩ := by
  obtain ⟨path, hpath, h⟩ := except_bind_eq_ok h
  obtain ⟨made, hmade, h⟩ := except_bind_eq_ok h
  obtain ⟨tmp, htmp, h⟩ := except_bind_eq_ok h
  obtain ⟨written, hwritten, h⟩ := except_bind_eq_ok h
  obtain ⟨renamed, hrenamed, h⟩ := except_bind_eq_ok h
  obtain ⟨side, hside, h⟩ := except_bind_eq_ok h
  obtain ⟨final, hfinal, h⟩ := except_bind_eq_ok h
  cases h
  have hne := siblingOf_ne sidecar_extension (of_lookup hside)
  refine ⟨path, of_lookup hpath, ?_⟩
  rw [Tree.read_write (of_attempt hfinal), if_neg (Ne.symm hne),
    Tree.read_rename (of_attempt hrenamed), if_pos rfl,
    Tree.read_write (of_attempt hwritten), if_pos rfl]

/-- **Put, then get.**  A published key reads as what was put. -/
theorem get_put {disk disk' : Disk} {key result : String} {data : List UInt8}
    {contentType : String} {now : Rat}
    (h : put disk key data contentType now = .ok (disk', result)) :
    get disk' key = .ok data := by
  obtain ⟨path, hpath, hread⟩ := read_put h
  rw [get_of_resolve hpath, hread]

end Disk

end ChallengeForge
