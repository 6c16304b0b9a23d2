import ChallengeForge.StorageMap

/-!
# Publications that fail

`put` and `put_from_path` once more, where the operating system may fail any call.
A call that writes a file fails before the file is opened, or after some bytes of
it; every other call fails with nothing done.  Without a fault they are the
functions of the filesystem storage.

Nothing in either function removes what the calls before a failure have made, so
where it stops decides what is left:

* `publish_ends` — the temporary file after a cut write or a failed replace, the
  blob after a failed write of the sidecar, and nothing if it stops earlier.
-/

namespace ChallengeForge

open Directory

namespace Disk

/-- How a call that writes a file fails. -/
inductive WriteFault
  | notOpened
  | cut (written : Nat)
  deriving DecidableEq

/-- The calls the operating system fails in one publication. -/
structure Faults where
  /-- So many directories are made before one is refused. -/
  mkdirs : Option Nat
  /-- `tmp.unlink()` of a file that is in the way. -/
  unlink : Bool
  /-- `os.replace(src, tmp)`. -/
  move : Bool
  /-- The write, or the copy, of the temporary file. -/
  write : Option WriteFault
  /-- `src.unlink()` after a copy. -/
  unlinkSource : Bool
  /-- The replace of the blob by the temporary file. -/
  replace : Bool
  sidecar : Option WriteFault

/-- Nothing is failed. -/
def Faults.clear : Faults := ⟨none, false, false, none, false, false, none⟩

/-- `path.parent.mkdir(parents=True, exist_ok=True)`. -/
def tryMkdirs (disk : Disk) (dir : Path) : Option Nat → Except StorageFailure Disk
  | none => attempt disk (disk.mkdirs [] dir)
  | some made => .error ⟨.os, (disk.mkdirs [] (dir.take made)).getD disk⟩

/-- A write that may not open its file, or stop after some bytes. -/
def tryWrite (disk : Disk) (path : Path) (file : StoredFile) :
    Option WriteFault → Except StorageFailure Disk
  | none => attempt disk (disk.write path file)
  | some .notOpened => .error ⟨.os, disk⟩
  | some (.cut written) =>
      .error ⟨.os, (disk.write path { file with data := file.data.take written }).getD disk⟩

/-- A call that leaves all or nothing. -/
def tryCall (disk : Disk) (called : Option Disk) : Bool → Except StorageFailure Disk
  | false => attempt disk called
  | true => .error ⟨.os, disk⟩

/-- The end of both publications: the replace, and the sidecar. -/
def replaceInto (faults : Faults) (disk : Disk) (tmp path : Path) (contentType : String)
    (now : Rat) : Except StorageFailure Disk := do
  let disk ← tryCall disk (disk.rename tmp path) faults.replace
  let sidecar ← lookup disk (siblingOf path ".content_type")
  tryWrite disk sidecar ⟨sidecarData contentType, now⟩ faults.sidecar

/-- `put(key, data, content_type)`. -/
def putWith (faults : Faults) (disk : Disk) (key : String) (data : List UInt8)
    (contentType : String) (now : Rat) : Except StorageFailure (Disk × String) := do
  let path ← lookup disk (resolve key)
  let disk ← tryMkdirs disk path.dropLast faults.mkdirs
  let tmp ← lookup disk (siblingOf path ".tmp")
  let disk ← tryWrite disk tmp ⟨data, now⟩ faults.write
  let disk ← replaceInto faults disk tmp path contentType now
  return (disk, key)

/-- `shutil.copyfile(src, tmp)`, and the unlink of `src`, which may fail. -/
def copyWith (faults : Faults) (disk : Disk) (source tmp : Path) (now : Rat) :
    Except StorageFailure Disk :=
  match disk.read source with
  | none => .error ⟨.os, disk⟩
  | some file => do
      let disk ← tryWrite disk tmp ⟨file.data, now⟩ faults.write
      return if faults.unlinkSource then disk else (disk.unlink source).getD disk

/-- `os.replace(src, tmp)`, or the copy where that raises. -/
def moveOver (faults : Faults) (disk : Disk) (source tmp : Path) (now : Rat) :
    Except StorageFailure Disk :=
  match if faults.move then none else disk.rename source tmp with
  | some disk => .ok disk
  | none => copyWith faults disk source tmp now

/-- `put_from_path(key, source, content_type)`. -/
def putFromPathWith (faults : Faults) (disk : Disk) (key : String) (source : Path)
    (contentType : String) (now : Rat) : Except StorageFailure (Disk × String) := do
  let path ← lookup disk (resolve key)
  let disk ← tryMkdirs disk path.dropLast faults.mkdirs
  if disk.isFile source then
    let tmp ← lookup disk (siblingOf path ".tmp")
    let disk ← if disk.present tmp then tryCall disk (disk.unlink tmp) faults.unlink
      else pure disk
    let disk ← moveOver faults disk source tmp now
    let disk ← replaceInto faults disk tmp path contentType now
    return (disk, key)
  else throw ⟨.fileNotFound (asPosix source), disk⟩

/-- **Without a fault** the publications are those of the storage. -/
theorem putWith_clear (disk : Disk) (key : String) (data : List UInt8) (contentType : String)
    (now : Rat) : putWith .clear disk key data contentType now =
      put disk key data contentType now := by
  simp [putWith, put, replaceInto, tryMkdirs, tryWrite, tryCall, Faults.clear]

theorem moveOver_clear (disk : Disk) (source tmp : Path) (now : Rat) :
    moveOver .clear disk source tmp now = match disk.rename source tmp with
      | some disk => .ok disk
      | none => attempt disk (copyOver disk source tmp now) := by
  unfold moveOver copyWith copyOver
  cases hrename : disk.rename source tmp with
  | some moved => simp [Faults.clear]
  | none =>
      cases hread : disk.read source with
      | none => simp [Faults.clear, attempt]
      | some file =>
          cases hwrite : disk.write tmp ⟨file.data, now⟩ with
          | none => simp [Faults.clear, tryWrite, attempt, hwrite, bind, Except.bind]
          | some written =>
              simp [Faults.clear, tryWrite, attempt, hwrite, bind, Except.bind, pure,
                Except.pure]

theorem putFromPathWith_clear (disk : Disk) (key : String) (source : Path)
    (contentType : String) (now : Rat) : putFromPathWith .clear disk key source contentType now =
      putFromPath disk key source contentType now := by
  unfold putFromPathWith putFromPath
  simp only [moveOver_clear]
  simp only [replaceInto, tryMkdirs, tryWrite, tryCall, Faults.clear, bind_assoc]
  refine bind_congr (fun path => bind_congr (fun made => ?_))
  split
  · refine bind_congr (fun tmp => ?_)
    split
    · refine bind_congr (fun cleared => ?_)
      cases cleared.rename source tmp <;> rfl
    · refine bind_congr (fun kept => ?_)
      cases kept.rename source tmp <;> rfl
  · rfl

/-! ## Where a publication stops -/

/-- Where the bytes of a blob come from. -/
inductive Publication
  | bytes (data : List UInt8)
  | staged (source : Path)

/-- Both ways to publish, under faults. -/
def publish (faults : Faults) (disk : Disk) (key : String) (contentType : String) (now : Rat) :
    Publication → Except StorageFailure Disk
  | .bytes data => (putWith faults disk key data contentType now).map Prod.fst
  | .staged source => (putFromPathWith faults disk key source contentType now).map Prod.fst

/-- What a publication has made of the three files when it stops. -/
inductive Stage
  | nothing
  | temporary
  | blob
  | blobAndSidecar
  deriving DecidableEq

/-- How the bytes fail to come into the temporary file.  A missing source raises
before it is made, and only the copy that follows a refused move can be cut. -/
def Publication.writeFault (faults : Faults) (disk : Disk) : Publication → Option WriteFault
  | .bytes _ => faults.write
  | .staged source =>
      if disk.isFile source = false then some .notOpened
      else if faults.move then faults.write else none

/-- The parent directory is not made. -/
def NoParent (faults : Faults) (disk : Disk) (p : Path) : Prop :=
  faults.mkdirs.isSome = true ∨ disk.mkdirs [] p.dropLast = none

instance (faults : Faults) (disk : Disk) (p : Path) : Decidable (NoParent faults disk p) :=
  inferInstanceAs (Decidable (faults.mkdirs.isSome = true ∨ disk.mkdirs [] p.dropLast = none))

/-- Where the end of a publication stops, if it does. -/
def Faults.endsAt (faults : Faults) : Option Stage :=
  if faults.replace then some .temporary
  else
    match faults.sidecar with
    | some .notOpened => some .blob
    | some (.cut _) => some .blobAndSidecar
    | none => none

/-- Where a publication stops once its parent directory is made, if it does. -/
def Faults.stopsAfter (faults : Faults) : Option WriteFault → Option Stage
  | some .notOpened => some .nothing
  | some (.cut _) => some .temporary
  | none => faults.endsAt

/-- Where a publication under the path `p` stops, if it does. -/
def Publication.stopsAt (faults : Faults) (disk : Disk) (p : Path) (publication : Publication) :
    Option Stage :=
  if NoParent faults disk p then some .nothing
  else faults.stopsAfter (publication.writeFault faults disk)

/-- Nothing is at a path or beside it, as for every key just drawn. -/
structure Vacant (disk : Disk) (p : Path) : Prop where
  place : disk.present p = false
  siblings : ∀ x, IsSibling p x → disk.present x = false

/-- The files of a key at a stage. -/
structure AtStage (disk : Disk) (p tmp side : Path) (stage : Stage) : Prop where
  blob : disk.isFile p = true ↔ stage = .blob ∨ stage = .blobAndSidecar
  sidecar : disk.isFile side = true ↔ stage = .blobAndSidecar
  temporary : disk.isFile tmp = true ↔ stage = .temporary

/-- None of the files of a key is there. -/
def Bare (disk : Disk) (p : Path) : Prop :=
  disk.isFile p = false ∧ ∀ x, IsSibling p x → disk.isFile x = false

theorem AtStage.bare_iff {disk : Disk} {p tmp side : Path} {stage : Stage}
    (h : AtStage disk p tmp side stage) (hsiblings : Siblings p tmp side) :
    Bare disk p ↔ stage = .nothing := by
  constructor
  · rintro ⟨hplace, hsides⟩
    have htmp := hsides tmp hsiblings.isSibling.1
    cases stage with
    | nothing => rfl
    | temporary => exact absurd (htmp.symm.trans (h.temporary.mpr rfl)) Bool.false_ne_true
    | blob => exact absurd (hplace.symm.trans (h.blob.mpr (Or.inl rfl))) Bool.false_ne_true
    | blobAndSidecar =>
        exact absurd (hplace.symm.trans (h.blob.mpr (Or.inr rfl))) Bool.false_ne_true
  · rintro rfl
    refine ⟨?_, fun x hx => ?_⟩
    · simpa using mt h.blob.mp
    · rcases hsiblings.of_isSibling hx with rfl | rfl
      · simpa using mt h.temporary.mp
      · simpa using mt h.sidecar.mp

/-- A call raises at a stage, or returns with the blob and its sidecar in place. -/
def Ends (p tmp side : Path) : Option Stage → Except StorageFailure Disk → Prop
  | some stage, .error failure => AtStage failure.disk p tmp side stage
  | none, .ok disk => AtStage disk p tmp side .blobAndSidecar
  | _, _ => False

/-- The parent directory is made, and nothing is at the three paths. -/
structure Ready (disk : Disk) (p tmp side : Path) : Prop where
  parent : disk.isDir p.dropLast = true
  place : disk.present p = false
  temporary : disk.present tmp = false
  beside : disk.present side = false

/-- The bytes are in the temporary file. -/
structure InTemporary (disk : Disk) (p tmp side : Path) : Prop where
  parent : disk.isDir p.dropLast = true
  place : disk.present p = false
  temporary : ∃ file, disk.read tmp = some file
  beside : disk.present side = false

/-- A call brings the bytes into the temporary file, or raises as it is failed. -/
def Brings (p tmp side : Path) : Option WriteFault → Except StorageFailure Disk → Prop
  | none, .ok disk => InTemporary disk p tmp side
  | some .notOpened, .error failure => AtStage failure.disk p tmp side .nothing
  | some (.cut _), .error failure => AtStage failure.disk p tmp side .temporary
  | _, _ => False

variable {disk : Disk} {p tmp side : Path} {faults : Faults}

/-- None of the three files is there. -/
theorem atStage_nothing (hp : disk.read p = none) (htmp : disk.read tmp = none)
    (hside : disk.read side = none) : AtStage disk p tmp side .nothing := by
  constructor <;> simp [Tree.isFile, hp, htmp, hside]

theorem atStage_temporary {file : StoredFile} (hp : disk.read p = none)
    (htmp : disk.read tmp = some file) (hside : disk.read side = none) :
    AtStage disk p tmp side .temporary := by
  constructor <;> simp [Tree.isFile, hp, htmp, hside]

theorem atStage_blob {file : StoredFile} (hp : disk.read p = some file)
    (htmp : disk.read tmp = none) (hside : disk.read side = none) :
    AtStage disk p tmp side .blob := by
  constructor <;> simp [Tree.isFile, hp, htmp, hside]

theorem atStage_blobAndSidecar {file sidecarFile : StoredFile} (hp : disk.read p = some file)
    (htmp : disk.read tmp = none) (hside : disk.read side = some sidecarFile) :
    AtStage disk p tmp side .blobAndSidecar := by
  constructor <;> simp [Tree.isFile, hp, htmp, hside]

/-! ## Directories -/

/-- The parent directory is not made, and the files are as they were. -/
theorem tryMkdirs_noParent (h : NoParent faults disk p) :
    ∃ failure, tryMkdirs disk p.dropLast faults.mkdirs = .error failure ∧
      ∀ q, failure.disk.read q = disk.read q := by
  cases hfault : faults.mkdirs with
  | some made =>
      refine ⟨_, rfl, fun q => ?_⟩
      cases hmade : disk.mkdirs [] (p.dropLast.take made) with
      | none => rfl
      | some part => exact Tree.read_mkdirs hmade q
  | none =>
      have hnone : disk.mkdirs [] p.dropLast = none := by
        rcases h with hsome | hnone
        · simp [hfault] at hsome
        · exact hnone
      refine ⟨⟨.os, disk⟩, ?_, fun _ => rfl⟩
      rw [tryMkdirs, hnone]
      rfl

theorem tryMkdirs_ready (hp : p ≠ []) (hparent : ¬ NoParent faults disk p)
    (h : Siblings p tmp side) (hvacant : Vacant disk p) :
    ∃ made, tryMkdirs disk p.dropLast faults.mkdirs = .ok made ∧ Ready made p tmp side ∧
      ∀ q, made.read q = disk.read q := by
  have hfault : faults.mkdirs = none := by
    by_contra hsome
    exact hparent (Or.inl (Option.isSome_iff_ne_none.mpr hsome))
  obtain ⟨made, hmade⟩ := Option.ne_none_iff_exists'.mp (fun hnone => hparent (Or.inr hnone))
  obtain ⟨hdir, hread, -, hlong⟩ := mkdirs_spec hp hmade
  have habsent : ∀ q, q.length = p.length → disk.present q = false → made.present q = false := by
    intro q hlength hq
    obtain ⟨hnone, hnodir⟩ := Tree.present_eq_false_iff.mp hq
    exact Tree.present_eq_false_iff.mpr ⟨by rw [hread, hnone], hlong q hlength hnodir⟩
  refine ⟨made, ?_, ⟨hdir, habsent p rfl hvacant.place, ?_, ?_⟩, hread⟩
  · rw [hfault, tryMkdirs, hmade]
    rfl
  · exact habsent tmp h.length.1 (hvacant.siblings tmp h.isSibling.1)
  · exact habsent side h.length.2 (hvacant.siblings side h.isSibling.2)

/-! ## The temporary file -/

theorem Ready.atStage (h : Ready disk p tmp side) : AtStage disk p tmp side .nothing :=
  atStage_nothing (Tree.present_eq_false_iff.mp h.place).1
    (Tree.present_eq_false_iff.mp h.temporary).1 (Tree.present_eq_false_iff.mp h.beside).1

/-- A file is put at the temporary path, and no directory is made. -/
theorem Ready.inTemporary {written : Disk} {file : StoredFile} (h : Ready disk p tmp side)
    (hsiblings : Siblings p tmp side) (hwrote : written.read tmp = some file)
    (hothers : ∀ q, q ≠ tmp → disk.read q = none → written.read q = none)
    (hdirs : ∀ q, written.isDir q = disk.isDir q) : InTemporary written p tmp side := by
  have habsent : ∀ q, q ≠ tmp → disk.present q = false → written.present q = false := by
    intro q hq hnone
    obtain ⟨hread, hdir⟩ := Tree.present_eq_false_iff.mp hnone
    exact Tree.present_eq_false_iff.mpr ⟨hothers q hq hread, by rw [hdirs, hdir]⟩
  exact ⟨by rw [hdirs, h.parent], habsent p (Ne.symm hsiblings.tmp_ne) h.place, ⟨file, hwrote⟩,
    habsent side (Ne.symm hsiblings.tmp_ne_side) h.beside⟩

/-- Writing the temporary file. -/
theorem tryWrite_brings (h : Ready disk p tmp side) (hsiblings : Siblings p tmp side)
    (file : StoredFile) (fault : Option WriteFault) :
    Brings p tmp side fault (tryWrite disk tmp file fault) := by
  have hroom : disk.Placeable tmp :=
    ⟨hsiblings.tmp_parent.1, by rw [hsiblings.tmp_parent.2, h.parent]⟩
  have hfree : disk.isDir tmp = false := (Tree.present_eq_false_iff.mp h.temporary).2
  cases fault with
  | none =>
      obtain ⟨written, hwritten⟩ := Tree.write_eq_some (f := file) hroom hfree
      have hwrote := Tree.read_write hwritten
      rw [tryWrite, hwritten]
      have hfile : written.read tmp = some file := by rw [hwrote, if_pos rfl]
      refine h.inTemporary hsiblings hfile ?_ (Tree.isDir_write hwritten)
      intro q hq hnone
      rw [hwrote, if_neg hq, hnone]
  | some fault =>
      cases fault with
      | notOpened => exact h.atStage
      | cut bytes =>
          obtain ⟨cut, hcut⟩ :=
            Tree.write_eq_some (f := { file with data := file.data.take bytes }) hroom hfree
          have hwrote := Tree.read_write hcut
          rw [tryWrite, hcut]
          refine atStage_temporary ?_ (by rw [Option.getD_some, hwrote, if_pos rfl]) ?_
          · rw [Option.getD_some, hwrote, if_neg (Ne.symm hsiblings.tmp_ne),
              (Tree.present_eq_false_iff.mp h.place).1]
          · rw [Option.getD_some, hwrote, if_neg (Ne.symm hsiblings.tmp_ne_side),
              (Tree.present_eq_false_iff.mp h.beside).1]

/-- The source of a copy is removed, or not. -/
theorem InTemporary.unlink {source : Path} (h : InTemporary disk p tmp side)
    (hother : source ≠ tmp) :
    InTemporary ((disk.unlink source).getD disk) p tmp side := by
  cases hunlink : disk.unlink source with
  | none => exact h
  | some removed =>
      have hreads := Tree.read_unlink hunlink
      have hdirs := Tree.isDir_unlink hunlink
      have habsent : ∀ q, disk.present q = false → removed.present q = false := by
        intro q hq
        obtain ⟨hnone, hnodir⟩ := Tree.present_eq_false_iff.mp hq
        refine Tree.present_eq_false_iff.mpr ⟨?_, by rw [hdirs, hnodir]⟩
        rw [hreads]
        split
        · rfl
        · exact hnone
      obtain ⟨file, hfile⟩ := h.temporary
      refine ⟨by rw [Option.getD_some, hdirs, h.parent], habsent p h.place, ⟨file, ?_⟩,
        habsent side h.beside⟩
      rw [Option.getD_some, hreads, if_neg (Ne.symm hother), hfile]

/-- Moving the source over, or copying it. -/
theorem moveOver_brings {source : Path} {file : StoredFile} (h : Ready disk p tmp side)
    (hsiblings : Siblings p tmp side) (hsource : disk.read source = some file) (now : Rat) :
    Brings p tmp side (if faults.move then faults.write else none)
      (moveOver faults disk source tmp now) := by
  have hroom : disk.Placeable tmp :=
    ⟨hsiblings.tmp_parent.1, by rw [hsiblings.tmp_parent.2, h.parent]⟩
  have hfree : disk.isDir tmp = false := (Tree.present_eq_false_iff.mp h.temporary).2
  have hother : source ≠ tmp := by
    rintro rfl
    rw [(Tree.present_eq_false_iff.mp h.temporary).1] at hsource
    cases hsource
  unfold moveOver
  cases hmove : faults.move with
  | false =>
      obtain ⟨moved, hmoved⟩ := Tree.rename_eq_some hsource hroom hfree
      have hreads := Tree.read_rename hmoved
      simp only [Bool.false_eq_true, if_false, hmoved]
      have hfile : moved.read tmp = some file := by rw [hreads, if_pos rfl, hsource]
      refine h.inTemporary hsiblings hfile ?_ (Tree.isDir_rename hmoved)
      intro q hq hnone
      rw [hreads, if_neg hq]
      split
      · rfl
      · exact hnone
  | true =>
      have hbrings := tryWrite_brings h hsiblings ⟨file.data, now⟩ faults.write
      simp only [if_true, copyWith, hsource, bind, Except.bind, pure, Except.pure]
      cases hfault : faults.write with
      | some fault =>
          rw [hfault] at hbrings
          cases hresult : tryWrite disk tmp ⟨file.data, now⟩ (some fault) with
          | ok written => cases fault <;> simp [hresult, Brings] at hbrings
          | error failure => simpa [hresult] using hbrings
      | none =>
          rw [hfault] at hbrings
          cases hresult : tryWrite disk tmp ⟨file.data, now⟩ none with
          | error failure => simp [hresult, Brings] at hbrings
          | ok written =>
              rw [hresult] at hbrings
              have hkept : InTemporary written p tmp side := hbrings
              cases hforget : faults.unlinkSource with
              | true => exact hkept
              | false => exact hkept.unlink hother

/-! ## The whole -/

/-- The end of a publication, once the temporary file holds the bytes. -/
theorem replaceInto_ends (contentType : String) (now : Rat) (h : InTemporary disk p tmp side)
    (hsiblings : Siblings p tmp side) (hp : p ≠ []) :
    Ends p tmp side faults.endsAt (replaceInto faults disk tmp p contentType now) := by
  obtain ⟨file, hread⟩ := h.temporary
  obtain ⟨hplaceRead, hplaceDir⟩ := Tree.present_eq_false_iff.mp h.place
  obtain ⟨hsideRead, hsideDir⟩ := Tree.present_eq_false_iff.mp h.beside
  unfold replaceInto Faults.endsAt
  cases hreplace : faults.replace with
  | true =>
      have hstop : tryCall disk (disk.rename tmp p) true = .error ⟨.os, disk⟩ := rfl
      rw [hstop]
      exact atStage_temporary hplaceRead hread hsideRead
  | false =>
      obtain ⟨renamed, hrenamed⟩ := Tree.rename_eq_some hread ⟨hp, h.parent⟩ hplaceDir
      have hgo : tryCall disk (disk.rename tmp p) false = .ok renamed := by
        rw [hrenamed]
        rfl
      have hreads := Tree.read_rename hrenamed
      have hdirs := Tree.isDir_rename hrenamed
      have hblob : renamed.read p = some file := by
        rw [hreads, if_pos rfl, hread]
      have htmp : renamed.read tmp = none := by
        rw [hreads, if_neg hsiblings.tmp_ne, if_pos rfl]
      have hbeside : renamed.read side = none := by
        rw [hreads, if_neg hsiblings.side_ne, if_neg (Ne.symm hsiblings.tmp_ne_side), hsideRead]
      have hroom : renamed.Placeable side :=
        ⟨hsiblings.side_parent.1, by rw [hdirs, hsiblings.side_parent.2, h.parent]⟩
      have hfree : renamed.isDir side = false := by rw [hdirs, hsideDir]
      have hfound : lookup renamed (siblingOf p ".content_type") = .ok side := by
        rw [siblingOf, hsiblings.sidecar]
        rfl
      -- a sidecar, whole or cut, stands beside the blob
      have hplaced : ∀ (written : Disk) (sidecarFile : StoredFile),
          renamed.write side sidecarFile = some written →
            AtStage written p tmp side .blobAndSidecar := by
        intro written sidecarFile hwritten
        have hwrote := Tree.read_write hwritten
        refine @atStage_blobAndSidecar written p tmp side file sidecarFile ?_ ?_
          (by rw [hwrote, if_pos rfl])
        · rw [hwrote, if_neg (Ne.symm hsiblings.side_ne), hblob]
        · rw [hwrote, if_neg hsiblings.tmp_ne_side, htmp]
      rw [hgo]
      simp only [bind, Except.bind, hfound]
      cases hfault : faults.sidecar with
      | none =>
          obtain ⟨written, hwritten⟩ :=
            Tree.write_eq_some (f := (⟨sidecarData contentType, now⟩ : StoredFile)) hroom hfree
          rw [tryWrite, hwritten]
          exact hplaced written _ hwritten
      | some fault =>
          cases fault with
          | notOpened => exact atStage_blob hblob htmp hbeside
          | cut bytes =>
              obtain ⟨cut, hcut⟩ := Tree.write_eq_some
                (f := (⟨(sidecarData contentType).take bytes, now⟩ : StoredFile)) hroom hfree
              rw [tryWrite, hcut]
              exact hplaced cut _ hcut

/-- The rest of a publication after the write of the temporary file. -/
theorem Brings.ends {fault : Option WriteFault} {written : Except StorageFailure Disk}
    (key contentType : String) (now : Rat) (h : Brings p tmp side fault written)
    (hsiblings : Siblings p tmp side) (hp : p ≠ []) :
    Ends p tmp side (faults.stopsAfter fault)
      ((do
        let disk ← written
        let disk ← replaceInto faults disk tmp p contentType now
        return (disk, key) : Except StorageFailure (Disk × String)).map Prod.fst) := by
  cases written with
  | error failure =>
      cases fault with
      | none => exact absurd h id
      | some fault => cases fault <;> exact h
  | ok disk =>
      cases fault with
      | some fault => cases fault <;> exact absurd h id
      | none =>
          have hends := @replaceInto_ends disk p tmp side faults contentType now h hsiblings hp
          simp only [bind, Except.bind, pure, Except.pure]
          cases hresult : replaceInto faults disk tmp p contentType now with
          | error failure => rwa [hresult] at hends
          | ok disk' => rwa [hresult] at hends

/-- **Where a publication stops.**  Under a key at which nothing is, a publication
ends at the stage that its faults say. -/
theorem publish_ends {key : String} (contentType : String) (now : Rat)
    (publication : Publication) (hkey : resolve key = .ok p) (hp : p ≠ [])
    (h : Siblings p tmp side) (hvacant : Vacant disk p) :
    Ends p tmp side (publication.stopsAt faults disk p)
      (publish faults disk key contentType now publication) := by
  have hfound : lookup disk (resolve key) = .ok p := by
    rw [hkey]
    rfl
  by_cases hparent : NoParent faults disk p
  · obtain ⟨failure, hfailed, hsame⟩ := tryMkdirs_noParent hparent
    have hnone : ∀ q, disk.present q = false → failure.disk.read q = none := by
      intro q hq
      rw [hsame, (Tree.present_eq_false_iff.mp hq).1]
    have hstage : AtStage failure.disk p tmp side .nothing :=
      atStage_nothing (hnone p hvacant.place) (hnone tmp (hvacant.siblings tmp h.isSibling.1))
        (hnone side (hvacant.siblings side h.isSibling.2))
    unfold Publication.stopsAt
    rw [if_pos hparent]
    cases publication <;>
      simpa [publish, putWith, putFromPathWith, hfound, hfailed, bind, Except.bind, Except.map,
        Ends] using hstage
  · obtain ⟨made, hmade, hready, hsame⟩ := tryMkdirs_ready hp hparent h hvacant
    have hfoundTmp : lookup made (siblingOf p ".tmp") = .ok tmp := by
      rw [siblingOf, h.temporary]
      rfl
    unfold Publication.stopsAt
    rw [if_neg hparent]
    cases publication with
    | bytes data =>
        have hends := @Brings.ends p tmp side faults _ _ key contentType now
          (tryWrite_brings hready h ⟨data, now⟩ faults.write) h hp
        simp only [publish, putWith, hfound, hmade, hfoundTmp, bind, Except.bind,
          Publication.writeFault] at hends ⊢
        exact hends
    | staged source =>
        have hshown : made.isFile source = disk.isFile source := by
          rw [Tree.isFile, Tree.isFile, hsame]
        cases hfile : disk.isFile source with
        | false =>
            rw [hfile] at hshown
            simpa [publish, putFromPathWith, Publication.writeFault, hfound, hmade, hshown, hfile,
              bind, Except.bind, Except.map, throw, throwThe, MonadExceptOf.throw, Ends,
              Faults.stopsAfter] using hready.atStage
        | true =>
            rw [hfile] at hshown
            obtain ⟨file, hsource⟩ := Tree.isFile_eq_true_iff.mp hshown
            have hbrings := @moveOver_brings made p tmp side faults source file hready h hsource
              now
            have hends := @Brings.ends p tmp side faults _ _ key contentType now hbrings h hp
            have habsent : ¬ made.present tmp = true := by
              rw [hready.temporary]
              exact Bool.false_ne_true
            simp only [publish, putFromPathWith, Publication.writeFault, hfound, hmade, hshown,
              hfile, hfoundTmp, if_neg habsent, bind, Except.bind, pure, Except.pure,
              if_true] at hends ⊢
            exact hends

end Disk

end ChallengeForge
