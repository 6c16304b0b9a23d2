import ChallengeForge.StorageFaults

/-!
# The storage where names have a limit

A file system takes names of at most so many bytes, and paths of at most so many.  A
call on a longer one raises, and `_resolve` accepts both: for some keys the storage
raises before it writes, for some after it has published, because the sidecar and the
temporary file have longer names than the blob.

A publication meets the limits as calls that fail, so that it is one of those in
`StorageFaults`, with the faults that the path decides.

* `putWithin_eq`, `putFromPathWithin_eq`, `deleteWithin_eq` — on a path whose siblings
  fit, the calls are those without a limit;
* `acts_as_map_iff` — on a set of paths the storage is a map exactly when the set is
  free of siblings and they all fit.
-/

namespace ChallengeForge

open Directory Labelled

/-! ## Names and paths that fit -/

/-- The bytes of a name. -/
def Name.bytes (name : Name) : Nat := (Utf8.encode name.text).length

/-- The bytes of a path below the root, each name with the slash before it. -/
def pathBytes : Path → Nat
  | [] => 0
  | name :: rest => name.bytes + 1 + pathBytes rest

/-- `NAME_MAX`, and what the root leaves of `PATH_MAX`. -/
structure Limits where
  nameMax : Nat
  pathMax : Nat

namespace Limits

/-- The file system takes the path. -/
def Takes (limits : Limits) (p : Path) : Prop :=
  (∀ name ∈ p, name.bytes ≤ limits.nameMax) ∧ pathBytes p ≤ limits.pathMax

instance (limits : Limits) (p : Path) : Decidable (limits.Takes p) :=
  inferInstanceAs (Decidable (_ ∧ _))

/-- It takes what the storage writes beside the blob. -/
def Fits (limits : Limits) (p : Path) : Prop := ∀ side, Disk.IsSibling p side → limits.Takes side

/-- The directories of the way that are made before one is refused: none when the path
is too long as a whole, else those before the first long name. -/
def madeBefore (limits : Limits) (dir : Path) : Option Nat :=
  if limits.Takes dir then none
  else if limits.pathMax < pathBytes dir then some 0
  else some (dir.takeWhile (fun name => decide (name.bytes ≤ limits.nameMax))).length

/-- A call on the sibling of a path is refused. -/
def refusesSibling (limits : Limits) (p : Path) (ext : String) : Bool :=
  (Disk.sibling p ext).any (fun side => !decide (limits.Takes side))

/-- The calls of a publication that the limits fail.  `tmp.exists()` raises as the move
and the copy do, with nothing done. -/
def faults (limits : Limits) (p : Path) : Disk.Faults where
  mkdirs := limits.madeBefore p.dropLast
  unlink := false
  move := limits.refusesSibling p ".tmp"
  write := if limits.refusesSibling p ".tmp" then some .notOpened else none
  unlinkSource := false
  replace := false
  sidecar := if limits.refusesSibling p ".content_type" then some .notOpened else none

/-- The way from a directory meets a long name; where a directory is missing before
that, the file system says so instead. -/
def meetsLongName (limits : Limits) (disk : Disk) (done : Path) : Path → Bool
  | [] => false
  | name :: rest =>
      disk.isDir done && (decide (limits.nameMax < name.bytes) ||
        meetsLongName limits disk (done ++ [name]) rest)

/-- `path.is_file()` raises. -/
def refuses (limits : Limits) (disk : Disk) (p : Path) : Bool :=
  decide (limits.pathMax < pathBytes p) || limits.meetsLongName disk [] p

variable {limits : Limits} {p q : Path}

/-- The bytes of a path are those of its parts. -/
theorem pathBytes_append (p q : Path) : pathBytes (p ++ q) = pathBytes p + pathBytes q := by
  induction p with
  | nil => simp [pathBytes]
  | cons name rest ih =>
      rw [List.cons_append, pathBytes, pathBytes, ih]
      omega

/-- What leads to a path that is taken is taken. -/
theorem Takes.of_prefix (h : limits.Takes q) (hway : p <+: q) : limits.Takes p := by
  obtain ⟨rest, rfl⟩ := hway
  obtain ⟨hnames, hbytes⟩ := h
  rw [pathBytes_append] at hbytes
  exact ⟨fun name hname => hnames name (List.mem_append_left rest hname), by omega⟩

/-- A shorter name in the same directory is taken. -/
theorem Takes.of_shorter {dir : Path} {long short : Name} (h : limits.Takes (dir ++ [long]))
    (hle : short.bytes ≤ long.bytes) : limits.Takes (dir ++ [short]) := by
  obtain ⟨hnames, hbytes⟩ := h
  have hlong := hnames long (by simp)
  constructor
  · intro name hname
    rcases List.mem_append.mp hname with hdir | hlast
    · exact hnames name (List.mem_append_left _ hdir)
    · obtain rfl := List.mem_singleton.mp hlast
      omega
  · rw [pathBytes_append] at hbytes ⊢
    simp only [pathBytes] at hbytes ⊢
    omega

/-- A name with an extension is no shorter. -/
theorem bytes_le_of_text {name renamed : Name} {ext : List Char}
    (h : renamed.text = name.text ++ ext) : name.bytes ≤ renamed.bytes := by
  unfold Name.bytes Utf8.encode
  rw [h, List.flatMap_append, List.length_append]
  exact Nat.le_add_right _ _

/-- A blob fits when what is beside it does, and so does its directory. -/
theorem Fits.takes (h : limits.Fits p) (hp : p ≠ []) :
    limits.Takes p ∧ limits.Takes p.dropLast := by
  obtain ⟨dir, name, rfl⟩ := Disk.exists_concat hp
  obtain ⟨hidden, htmp, htext⟩ := Disk.sibling_concat Disk.tmp_extension dir name
  have hblob : limits.Takes (dir ++ [name]) :=
    (h _ (Or.inl htmp)).of_shorter (bytes_le_of_text htext)
  exact ⟨hblob, hblob.of_prefix (List.dropLast_prefix _)⟩

/-- Short names are met without a refusal. -/
theorem meetsLongName_eq_false {disk : Disk} {done rest : Path}
    (h : ∀ name ∈ rest, name.bytes ≤ limits.nameMax) :
    limits.meetsLongName disk done rest = false := by
  induction rest generalizing done with
  | nil => rfl
  | cons name rest ih =>
      have hname : ¬ limits.nameMax < name.bytes := not_lt.mpr (h name List.mem_cons_self)
      rw [meetsLongName, ih (fun other hother => h other (List.mem_cons_of_mem name hother))]
      simp [hname]

/-- A path that is taken can be asked for. -/
theorem Takes.refuses (h : limits.Takes p) (disk : Disk) : limits.refuses disk p = false := by
  have hbytes : ¬ limits.pathMax < pathBytes p := not_lt.mpr h.2
  rw [Limits.refuses, meetsLongName_eq_false h.1]
  simp [hbytes]

/-- No call on a sibling is refused when the sibling is taken. -/
theorem refusesSibling_eq_false_iff {ext : String} :
    limits.refusesSibling p ext = false ↔ ∀ side, Disk.sibling p ext = some side →
      limits.Takes side := by
  unfold refusesSibling
  cases Disk.sibling p ext with
  | none => simp
  | some side => simp

/-- Where the siblings fit no call is failed. -/
theorem Fits.faults_eq (h : limits.Fits p) (hp : p ≠ []) : limits.faults p = .clear := by
  have htmp : limits.refusesSibling p ".tmp" = false :=
    refusesSibling_eq_false_iff.mpr (fun side hside => h side (Or.inl hside))
  have hsidecar : limits.refusesSibling p ".content_type" = false :=
    refusesSibling_eq_false_iff.mpr (fun side hside => h side (Or.inr hside))
  have hdir : limits.madeBefore p.dropLast = none := if_pos (h.takes hp).2
  simp [faults, htmp, hsidecar, hdir, Disk.Faults.clear]

end Limits

/-! ## The calls -/

namespace Disk

section Calls

variable (limits : Limits) (disk : Disk) (key : String)

/-- `put(key, data, content_type)`. -/
def putWithin (data : List UInt8) (contentType : String) (now : Rat) :
    Except StorageFailure (Disk × String) := do
  let path ← lookup disk (resolve key)
  putWith (limits.faults path) disk key data contentType now

/-- `put_from_path(key, source, content_type)`. -/
def putFromPathWithin (source : Path) (contentType : String) (now : Rat) :
    Except StorageFailure (Disk × String) := do
  let path ← lookup disk (resolve key)
  putFromPathWith (limits.faults path) disk key source contentType now

/-- `get(key)`. -/
def getWithin : Except StorageError (List UInt8) := do
  let path ← resolve key
  if limits.refuses disk path then throw .os else get disk key

/-- `exists(key)`. -/
def existsWithin : Except StorageError Bool := do
  let path ← resolve key
  if limits.refuses disk path then throw .os else blobExists disk key

/-- `delete(key)`: the sidecar is asked for once the blob is gone. -/
def deleteWithin : Except StorageFailure (Disk × Bool) := do
  let path ← lookup disk (resolve key)
  if limits.refuses disk path then throw ⟨.os, disk⟩
  else if (sidecar path).any (limits.refuses disk) then throw ⟨.os, (unlinkFile disk path).1⟩
  else lookup disk (delete disk key)

end Calls

variable {limits : Limits} {disk : Disk} {key : String} {p : Path}

/-- On a path whose siblings fit a put is the one without limits. -/
theorem putWithin_eq (hkey : resolve key = .ok p) (hp : p ≠ []) (hfits : limits.Fits p)
    (data : List UInt8) (contentType : String) (now : Rat) :
    putWithin limits disk key data contentType now = put disk key data contentType now := by
  rw [← putWith_clear, ← hfits.faults_eq hp, putWithin, hkey]
  rfl

/-- So is a publication of a staged file. -/
theorem putFromPathWithin_eq (hkey : resolve key = .ok p) (hp : p ≠ []) (hfits : limits.Fits p)
    (source : Path) (contentType : String) (now : Rat) :
    putFromPathWithin limits disk key source contentType now =
      putFromPath disk key source contentType now := by
  rw [← putFromPathWith_clear, ← hfits.faults_eq hp, putFromPathWithin, hkey]
  rfl

/-- So is a read, -/
theorem getWithin_eq (hkey : resolve key = .ok p) (hp : p ≠ []) (hfits : limits.Fits p) :
    getWithin limits disk key = get disk key := by
  have htaken : limits.refuses disk p = false := (hfits.takes hp).1.refuses disk
  rw [getWithin, hkey]
  simp [bind, Except.bind, htaken]

/-- a lookup, -/
theorem existsWithin_eq (hkey : resolve key = .ok p) (hp : p ≠ []) (hfits : limits.Fits p) :
    existsWithin limits disk key = blobExists disk key := by
  have htaken : limits.refuses disk p = false := (hfits.takes hp).1.refuses disk
  rw [existsWithin, hkey]
  simp [bind, Except.bind, htaken]

/-- and a delete. -/
theorem deleteWithin_eq (hkey : resolve key = .ok p) (hp : p ≠ []) (hfits : limits.Fits p) :
    deleteWithin limits disk key = lookup disk (delete disk key) := by
  have htaken : limits.refuses disk p = false := (hfits.takes hp).1.refuses disk
  have hbeside : (sidecar p).any (limits.refuses disk) = false := by
    rw [Option.any_eq_false]
    intro side hside
    rw [(hfits side (Or.inr hside)).refuses disk]
  rw [deleteWithin, hkey]
  simp [lookup, bind, Except.bind, htaken, hbeside]

/-- **A put that returns fits.**  It has made the directory, the temporary file and the
sidecar. -/
theorem fits_of_putWithin {data : List UInt8} {contentType : String} {now : Rat}
    {result : Disk × String} (hkey : resolve key = .ok p)
    (h : putWithin limits disk key data contentType now = .ok result) : limits.Fits p := by
  rw [putWithin, hkey] at h
  have hput : putWith (limits.faults p) disk key data contentType now = .ok result := h
  unfold putWith at hput
  obtain ⟨path, hpath, hput⟩ := except_bind_eq_ok hput
  rw [hkey] at hpath
  obtain rfl : p = path := Except.ok.inj hpath
  obtain ⟨made, -, hput⟩ := except_bind_eq_ok hput
  obtain ⟨tmp, -, hput⟩ := except_bind_eq_ok hput
  obtain ⟨written, hwritten, hput⟩ := except_bind_eq_ok hput
  obtain ⟨placed, hplaced, -⟩ := except_bind_eq_ok hput
  obtain ⟨renamed, -, hrest⟩ := except_bind_eq_ok hplaced
  obtain ⟨side, -, hside⟩ := except_bind_eq_ok hrest
  have hnotTmp : limits.refusesSibling p ".tmp" = false := by
    by_contra hrefused
    rw [Bool.not_eq_false] at hrefused
    simp [Limits.faults, hrefused, tryWrite] at hwritten
  have hnotSide : limits.refusesSibling p ".content_type" = false := by
    by_contra hrefused
    rw [Bool.not_eq_false] at hrefused
    simp [Limits.faults, hrefused, tryWrite] at hside
  intro x hx
  rcases hx with htmp | hsidecar
  · exact Limits.refusesSibling_eq_false_iff.mp hnotTmp x htmp
  · exact Limits.refusesSibling_eq_false_iff.mp hnotSide x hsidecar

end Disk

/-! ## Runs -/

namespace StoredMap

open Disk

/-- A call on a key the storage accepts, on a file system with limits. -/
def stepWithin (limits : Limits) (s : StoredMap) : StorageCall → Option StoredMap
  | .put key data contentType now =>
      match resolve key with
      | .ok p =>
          some
            { disk := left (putWithin limits s.disk key data contentType now)
              contents := Function.update s.contents p (some data) }
      | .error _ => none
  | .putFromPath key source contentType now =>
      match resolve key with
      | .ok p =>
          some
            { disk := left (putFromPathWithin limits s.disk key source contentType now)
              contents :=
                match s.disk.read source with
                | some file => Function.update s.contents p (some file.data)
                | none => s.contents }
      | .error _ => none
  | .delete key =>
      match resolve key with
      | .ok p =>
          some
            { disk := left (deleteWithin limits s.disk key)
              contents := Function.update s.contents p none }
      | .error _ => none
  | .stage source data now => some { s with disk := Disk.stage s.disk source data now }

end StoredMap

/-- The storage beside the map, on such a file system. -/
def storedMapWithin (limits : Limits) : System StoredMap StorageCall where
  start := StoredMap.Fresh
  step := StoredMap.stepWithin limits

/-- The storage reads as the map. -/
def ReadsWithin (limits : Limits) (S : Set Path) (s : StoredMap) : Prop :=
  ∀ key p, Disk.resolve key = .ok p → p ∈ S →
    Disk.getWithin limits s.disk key = (match s.contents p with
      | some data => .ok data
      | none => .error (.fileNotFound key)) ∧
    Disk.existsWithin limits s.disk key = .ok (s.contents p).isSome

/-- A call on a key the storage accepts returns; that of `put_from_path` needs its file. -/
def Returns (limits : Limits) (s : StoredMap) : StorageCall → Prop
  | .put key data contentType now => ∀ p, Disk.resolve key = .ok p →
      ∃ result, Disk.putWithin limits s.disk key data contentType now = .ok result
  | .putFromPath key source contentType now => ∀ p, Disk.resolve key = .ok p →
      s.disk.isFile source = true →
        ∃ result, Disk.putFromPathWithin limits s.disk key source contentType now = .ok result
  | .delete key => ∀ p, Disk.resolve key = .ok p →
      ∃ result, Disk.deleteWithin limits s.disk key = .ok result
  | .stage .. => True

/-- On the keys that lead to the set, the storage is a map: it reads as one, and the
calls return. -/
def ActsAsMap (limits : Limits) (S : Set Path) : Prop :=
  ∀ s, (storedMapWithin limits).Reach (callsOn S) s →
    ReadsWithin limits S s ∧ ∀ a, callsOn S s a → Returns limits s a

section Fitting

variable {limits : Limits} {S : Set Path} {s t : StoredMap}

/-- Where all siblings fit, a call is the one without limits. -/
theorem stepWithin_eq (hroot : [] ∉ S) (hfits : ∀ p ∈ S, limits.Fits p) {a : StorageCall}
    (hok : callsOn S s a) : s.stepWithin limits a = s.step a := by
  have hne : ∀ p ∈ S, p ≠ [] := by
    rintro p hp rfl
    exact hroot hp
  cases a with
  | put key data contentType now =>
      cases hkey : Disk.resolve key with
      | error e => simp only [StoredMap.stepWithin, StoredMap.step, hkey]
      | ok p =>
          have hp : p ∈ S := hok p hkey
          simp only [StoredMap.stepWithin, StoredMap.step, hkey,
            Disk.putWithin_eq hkey (hne p hp) (hfits p hp)]
  | putFromPath key source contentType now =>
      cases hkey : Disk.resolve key with
      | error e => simp only [StoredMap.stepWithin, StoredMap.step, hkey]
      | ok p =>
          have hp : p ∈ S := hok.1 p hkey
          cases hread : s.disk.read source <;>
            simp only [StoredMap.stepWithin, StoredMap.step, hkey, hread,
              Disk.putFromPathWithin_eq hkey (hne p hp) (hfits p hp)]
  | delete key =>
      cases hkey : Disk.resolve key with
      | error e => simp only [StoredMap.stepWithin, StoredMap.step, hkey]
      | ok p =>
          have hp : p ∈ S := hok p hkey
          obtain ⟨disk', removed, hdelete, -⟩ := Disk.delete_spec s.disk hkey
          simp only [StoredMap.stepWithin, StoredMap.step, hkey,
            Disk.deleteWithin_eq hkey (hne p hp) (hfits p hp), hdelete]
          rfl
  | stage source data now => rfl

/-- Where all siblings fit, the same states are reached, -/
theorem reach_within_iff (hroot : [] ∉ S) (hfits : ∀ p ∈ S, limits.Fits p) :
    (storedMapWithin limits).Reach (callsOn S) s ↔ storedMap.Reach (callsOn S) s := by
  have hsame : ∀ (u : StoredMap) (a : StorageCall), callsOn S u a →
      (storedMapWithin limits).step u a = storedMap.step u a :=
    fun u a hok => stepWithin_eq hroot hfits hok
  constructor
  · intro h
    exact h.of_step_eq (N := storedMap) (fun _ hstart => hstart) hsame
  · intro h
    exact h.of_step_eq (N := storedMapWithin limits) (fun _ hstart => hstart)
      (fun u a hok => (hsame u a hok).symm)

/-- and they read the same. -/
theorem readsWithin_iff (hroot : [] ∉ S) (hfits : ∀ p ∈ S, limits.Fits p) :
    ReadsWithin limits S s ↔ ReadsAs S s := by
  unfold ReadsWithin ReadsAs
  refine forall_congr' (fun key => forall_congr' (fun p => forall₂_congr (fun hkey hp => ?_)))
  have hne : p ≠ [] := by
    rintro rfl
    exact hroot hp
  have hget : Disk.getWithin limits s.disk key = Disk.get s.disk key :=
    Disk.getWithin_eq hkey hne (hfits p hp)
  have hexists : Disk.existsWithin limits s.disk key = Disk.blobExists s.disk key :=
    Disk.existsWithin_eq hkey hne (hfits p hp)
  cases s.contents p with
  | none => simp only [hget, hexists]
  | some data => simp only [hget, hexists]

/-- Where there is room for every key, the calls return. -/
theorem returns_of_held (hfree : SiblingFree S) (hfits : ∀ p ∈ S, limits.Fits p)
    (h : StoredMap.Held S s) {a : StorageCall} (hok : callsOn S s a) : Returns limits s a := by
  cases a with
  | put key data contentType now =>
      intro p hkey
      have hp : p ∈ S := hok p hkey
      have hroom := h.room hfree hp
      obtain ⟨tmp, side, hsiblings⟩ := Disk.exists_siblings hroom.ne_nil
      obtain ⟨disk', hput, -⟩ := Disk.put_eq_ok data contentType now hkey hroom hsiblings
      rw [Disk.putWithin_eq hkey hroom.ne_nil (hfits p hp)]
      exact ⟨_, hput⟩
  | putFromPath key source contentType now =>
      intro p hkey hfile
      obtain ⟨hset, hstaging⟩ := hok
      have hp : p ∈ S := hset p hkey
      have hroom := h.room hfree hp
      obtain ⟨tmp, side, hsiblings⟩ := Disk.exists_siblings hroom.ne_nil
      obtain ⟨file, hsource⟩ := Tree.isFile_eq_true_iff.mp hfile
      have hnot := hstaging.not_own hp
      obtain ⟨disk', hput, -⟩ := Disk.putFromPath_eq_ok contentType now hkey hroom hsiblings
        hsource (hnot p (Or.inl rfl)) (hnot tmp (Or.inr hsiblings.isSibling.1))
        (hnot side (Or.inr hsiblings.isSibling.2))
      rw [Disk.putFromPathWithin_eq hkey hroom.ne_nil (hfits p hp)]
      exact ⟨_, hput⟩
  | delete key =>
      intro p hkey
      have hp : p ∈ S := hok p hkey
      obtain ⟨disk', removed, hdelete, -⟩ := Disk.delete_spec s.disk hkey
      rw [Disk.deleteWithin_eq hkey (h.room hfree hp).ne_nil (hfits p hp), hdelete]
      exact ⟨_, rfl⟩
  | stage source data now => trivial

/-- The root has no key that can be written. -/
theorem not_root_of_map (h : ActsAsMap limits S) : [] ∉ S := by
  intro hroot
  have hkey : Disk.resolve "." = .ok [] := by decide +kernel
  have hput : callsOn S StoredMap.new (.put "." [1] "" 0) := by
    intro p hp
    rw [hkey] at hp
    cases hp
    exact hroot
  obtain ⟨result, hresult⟩ := (h StoredMap.new (.of_start ⟨rfl, fun _ => rfl⟩)).2 _ hput [] hkey
  rw [Disk.putWithin, hkey] at hresult
  cases hresult

/-- What a map can hold fits. -/
theorem fits_of_map (h : ActsAsMap limits S) : ∀ p ∈ S, limits.Fits p := by
  intro p hp
  have hne : p ≠ [] := by
    rintro rfl
    exact not_root_of_map h hp
  have hkey := Disk.resolve_asPosix hne
  have hput : callsOn S StoredMap.new (.put (asPosix p) [1] "" 0) := by
    intro q hq
    rw [hkey] at hq
    cases hq
    exact hp
  obtain ⟨result, hresult⟩ := (h StoredMap.new (.of_start ⟨rfl, fun _ => rfl⟩)).2 _ hput p hkey
  exact Disk.fits_of_putWithin hkey hresult

end Fitting

/-- **The storage as a map.**  On a set of paths none of which leads through another,
the storage is a map of the keys exactly when the set is free of siblings and the file
system takes the siblings of them all. -/
theorem acts_as_map_iff (limits : Limits) (S : Set Path) (hpaths : PrefixFree S) :
    ActsAsMap limits S ↔ SiblingFree S ∧ ∀ p ∈ S, limits.Fits p := by
  constructor
  · intro h
    have hroot := not_root_of_map h
    have hfits := fits_of_map h
    refine ⟨(readsAs_iff hpaths).mp ?_, hfits⟩
    intro s hreach
    exact (readsWithin_iff hroot hfits).mp (h s ((reach_within_iff hroot hfits).mpr hreach)).1
  · rintro ⟨hfree, hfits⟩ s hreach
    have hplain := (reach_within_iff hfree.root hfits).mp hreach
    refine ⟨(readsWithin_iff hfree.root hfits).mpr ((readsAs_iff hpaths).mpr hfree s hplain), ?_⟩
    have hheld : StoredMap.Held S s :=
      hplain.invariant (fun s hfresh => StoredMap.held_of_fresh hfree hfresh)
        (fun s a t hs hok hstep => hs.step hpaths hfree hok hstep)
    exact fun a hok => returns_of_held hfree hfits hheld hok

/-! ## Two keys -/

/-- A file system with names of 255 bytes and paths of 4095, below a root of 95. -/
def ext4 : Limits := ⟨255, 4000⟩

/-- The name `a.bin`. -/
def aName : Name := ⟨['a', '.', 'b', 'i', 'n'], by decide⟩

/-- The name `b.bin`. -/
def bName : Name := ⟨['b', '.', 'b', 'i', 'n'], by decide⟩

/-- The name of the sibling of `a.bin`. -/
def sideName : Name := ⟨"a.bin.content_type".toList, by decide +kernel⟩

/-- A computed sibling is enough for a path to fit. -/
theorem fits_of_computed {limits : Limits} {p : Path}
    (h : ∀ ext ∈ [".tmp", ".content_type"], limits.refusesSibling p ext = false) :
    limits.Fits p := by
  intro side hside
  rcases hside with htmp | hsidecar
  · exact Limits.refusesSibling_eq_false_iff.mp (h ".tmp" (by simp)) side htmp
  · exact Limits.refusesSibling_eq_false_iff.mp (h ".content_type" (by simp)) side hsidecar

/-- Two blobs in one directory. -/
theorem acts_as_map_pair : ActsAsMap ext4 {[aName], [bName]} := by
  have hlist : ∀ p ∈ ({[aName], [bName]} : Set Path), p ∈ [[aName], [bName]] := by
    rintro p (rfl | rfl) <;> simp
  refine (acts_as_map_iff ext4 {[aName], [bName]} ?_).mpr ⟨⟨?_, ?_⟩, ?_⟩
  · rintro p (rfl | rfl) q (rfl | rfl) h
    · rfl
    · exact absurd h (by decide)
    · exact absurd h (by decide)
    · rfl
  · rintro (h | h) <;> cases h
  · -- the siblings of both names are no names of the set
    have hnot : ∀ p ∈ [[aName], [bName]], ∀ ext ∈ [".tmp", ".content_type"],
        ∀ x ∈ Disk.sibling p ext, ∀ q ∈ [[aName], [bName]], ¬ x <+: q := by decide +kernel
    intro p hp q hq x hx
    rcases hx with htmp | hside
    · exact hnot p (hlist p hp) ".tmp" (by simp) x htmp q (hlist q hq)
    · exact hnot p (hlist p hp) ".content_type" (by simp) x hside q (hlist q hq)
  · have hshort : ∀ p ∈ [[aName], [bName]], ∀ ext ∈ [".tmp", ".content_type"],
        ext4.refusesSibling p ext = false := by decide +kernel
    exact fun p hp => fits_of_computed (hshort p (hlist p hp))

/-- A key that leads to the sidecar of another reads as its content type, however short
the names. -/
theorem acts_as_map_fails :
    ¬ ∀ S, PrefixFree S → (∀ p ∈ S, ext4.Fits p) → ActsAsMap ext4 S := by
  intro hall
  have hlist : ∀ p ∈ ({[aName], [sideName]} : Set Path), p ∈ [[aName], [sideName]] := by
    rintro p (rfl | rfl) <;> simp
  have hpaths : PrefixFree {[aName], [sideName]} := by
    rintro p (rfl | rfl) q (rfl | rfl) h
    · rfl
    · exact absurd h (by decide +kernel)
    · exact absurd h (by decide +kernel)
    · rfl
  have hshort : ∀ p ∈ [[aName], [sideName]], ∀ ext ∈ [".tmp", ".content_type"],
      ext4.refusesSibling p ext = false := by decide +kernel
  have hfits : ∀ p ∈ ({[aName], [sideName]} : Set Path), ext4.Fits p :=
    fun p hp => fits_of_computed (hshort p (hlist p hp))
  have hmap := hall _ hpaths hfits
  have hroot := not_root_of_map hmap
  have hreads : AlwaysReads {[aName], [sideName]} := fun s hreach =>
    (readsWithin_iff hroot hfits).mp (hmap s ((reach_within_iff hroot hfits).mpr hreach)).1
  obtain ⟨tmp, side, hsiblings⟩ := Disk.exists_siblings (p := [aName]) (by simp)
  have hside : side = [sideName] := by
    have hcomputed : Disk.sibling [aName] ".content_type" = some [sideName] := by decide +kernel
    exact Option.some.inj (hsiblings.sidecar.symm.trans hcomputed)
  refine StoredMap.sidecar_not_map hreads (Or.inl rfl) (Or.inr rfl) (by simp) hsiblings ?_
  rw [hside]

end ChallengeForge
