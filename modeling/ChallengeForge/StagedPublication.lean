import ChallengeForge.StorageFaults

/-!
# The publication of a staged file

`put_from_path` where the operating system may fail any call: the files it changes, and
what is under the key when it returns.

* `publish_leaves` — it changes the files of its key, and the staging file;
* `publish_ok` — the key has the bytes of the staging file, which is gone unless its
  unlink fails.
-/

namespace ChallengeForge

open Directory

namespace Disk

variable {disk : Disk} {contentType : String}

/-- Outside some paths the files are the same. -/
def Keeps (touched : List Path) (disk disk' : Disk) : Prop :=
  ∀ q, q ∉ touched → disk'.read q = disk.read q

/-- A disk keeps itself. -/
theorem Keeps.refl (touched : List Path) (disk : Disk) : Keeps touched disk disk :=
  fun _ _ => rfl

/-- One call after another touches no more than both may. -/
theorem Keeps.trans {touched : List Path} {a b c : Disk} (h : Keeps touched a b)
    (h' : Keeps touched b c) : Keeps touched a c :=
  fun q hq => (h' q hq).trans (h q hq)

/-- More paths may be touched. -/
theorem Keeps.mono {few more : List Path} {a b : Disk} (h : Keeps few a b)
    (hsub : ∀ q ∈ few, q ∈ more) : Keeps more a b :=
  fun q hq => h q (fun hfew => hq (hsub q hfew))

/-- A write touches its own path. -/
theorem keeps_write {path : Path} {file : StoredFile} {disk' : Disk}
    (h : disk.write path file = some disk') : Keeps [path] disk disk' := by
  intro q hq
  rw [Tree.read_write h, if_neg (fun heq => hq (List.mem_singleton.mpr heq))]

/-- A removal touches its own path. -/
theorem keeps_unlink {path : Path} {disk' : Disk} (h : disk.unlink path = some disk') :
    Keeps [path] disk disk' := by
  intro q hq
  rw [Tree.read_unlink h, if_neg (fun heq => hq (List.mem_singleton.mpr heq))]

/-- A move touches where it comes from and where it goes. -/
theorem keeps_rename {source path : Path} {disk' : Disk}
    (h : disk.rename source path = some disk') : Keeps [source, path] disk disk' := by
  intro q hq
  rw [List.mem_cons, List.mem_singleton, not_or] at hq
  rw [Tree.read_rename h, if_neg hq.2, if_neg hq.1]

/-- What a call leaves, whether it returns or raises. -/
inductive Leaves (P : Disk → Prop) : Except StorageFailure Disk → Prop
  | ok {disk : Disk} (h : P disk) : Leaves P (.ok disk)
  | error {failure : StorageFailure} (h : P failure.disk) : Leaves P (.error failure)

/-- What a call leaves when it returns. -/
theorem Leaves.of_ok {P : Disk → Prop} {disk : Disk} (h : Leaves P (.ok disk)) : P disk := by
  cases h with
  | ok hdisk => exact hdisk

/-- What a call leaves when it raises. -/
theorem Leaves.of_error {P : Disk → Prop} {failure : StorageFailure}
    (h : Leaves P (.error failure)) : P failure.disk := by
  cases h with
  | error hdisk => exact hdisk

/-- A sequence of calls leaves what each of them leaves, wherever it stops. -/
theorem leaves_bind {P : Disk → Prop} {x : Except StorageFailure Disk}
    {f : Disk → Except StorageFailure Disk} (hx : Leaves P x)
    (hf : ∀ disk, x = .ok disk → P disk → Leaves P (f disk)) : Leaves P (x >>= f) := by
  cases hx with
  | error hfailed => exact .error hfailed
  | ok hdisk => exact hf _ rfl hdisk

/-- What is left may be said more weakly. -/
theorem Leaves.imp {P Q : Disk → Prop} {x : Except StorageFailure Disk} (h : Leaves P x)
    (hPQ : ∀ disk, P disk → Q disk) : Leaves Q x := by
  cases h with
  | error hfailed => exact .error (hPQ _ hfailed)
  | ok hdisk => exact .ok (hPQ _ hdisk)

/-- Making directories touches no file, however far it gets. -/
theorem tryMkdirs_leaves (disk : Disk) (dir : Path) (fault : Option Nat) :
    Leaves (fun left => ∀ q, left.read q = disk.read q) (tryMkdirs disk dir fault) := by
  unfold tryMkdirs
  split
  · unfold attempt
    split
    · rename_i made hmade
      exact .ok (Tree.read_mkdirs hmade)
    · exact .error (fun _ => rfl)
  · refine .error (fun q => ?_)
    rename_i made
    change ((disk.mkdirs [] (dir.take made)).getD disk).read q = disk.read q
    cases hmade : disk.mkdirs [] (dir.take made) with
    | none => rfl
    | some part => exact Tree.read_mkdirs hmade q

/-- A write touches its path only, also when it fails half way. -/
theorem tryWrite_leaves (disk : Disk) (path : Path) (file : StoredFile)
    (fault : Option WriteFault) : Leaves (Keeps [path] disk) (tryWrite disk path file fault) := by
  unfold tryWrite
  split
  · unfold attempt
    split
    · rename_i written hwritten
      exact .ok (keeps_write hwritten)
    · exact .error (.refl _ _)
  · exact .error (.refl _ _)
  · rename_i cut
    refine .error ?_
    change Keeps [path] disk
      ((disk.write path { file with data := file.data.take cut }).getD disk)
    cases hwritten : disk.write path { file with data := file.data.take cut } with
    | none => exact .refl _ _
    | some written => exact keeps_write hwritten

/-- A call that fails with nothing done leaves the disk, another what it does. -/
theorem tryCall_leaves {P : Disk → Prop} {called : Option Disk} {fails : Bool} (hdisk : P disk)
    (hcalled : ∀ disk', called = some disk' → P disk') :
    Leaves P (tryCall disk called fails) := by
  unfold tryCall
  split
  · unfold attempt
    split
    · exact .ok (hcalled _ rfl)
    · exact .error hdisk
  · exact .error hdisk

section Publication

variable {files : Faults} {p tmp side source : Path} {clock : Rat}

/-- The replacement and the sidecar touch the blob and its two siblings only. -/
theorem replaceInto_leaves (h : Siblings p tmp side) :
    Leaves (Keeps [p, tmp, side] disk) (replaceInto files disk tmp p contentType clock) := by
  unfold replaceInto
  refine leaves_bind (tryCall_leaves (.refl _ _) ?_) ?_
  · intro renamed hrenamed
    exact (keeps_rename hrenamed).mono (by simp +contextual)
  · intro renamed _ hkeeps
    simp only [siblingOf, h.sidecar, lookup, bind, Except.bind]
    exact (tryWrite_leaves renamed side ⟨sidecarData contentType, clock⟩ files.sidecar).imp
      (fun left hleft => hkeeps.trans (hleft.mono (by simp)))

/-- The replace brings what the temporary file holds. -/
theorem replaceInto_ok (h : Siblings p tmp side) {file : StoredFile}
    (hfile : disk.read tmp = some file) {disk' : Disk}
    (hrun : replaceInto files disk tmp p contentType clock = .ok disk') :
    disk'.read p = some file := by
  unfold replaceInto at hrun
  obtain ⟨renamed, hrenamed, hrun⟩ := except_bind_eq_ok hrun
  simp only [siblingOf, h.sidecar, lookup, bind, Except.bind] at hrun
  have hmoved : disk.rename tmp p = some renamed := by
    unfold tryCall attempt at hrenamed
    split at hrenamed
    · split at hrenamed
      · rename_i moved hsome
        rw [hsome, Except.ok.inj hrenamed]
      · cases hrenamed
    · cases hrenamed
  have hwrite := tryWrite_leaves renamed side ⟨sidecarData contentType, clock⟩ files.sidecar
  rw [hrun] at hwrite
  rw [hwrite.of_ok p (by simpa using Ne.symm h.side_ne), Tree.read_rename hmoved, if_pos rfl, hfile]

/-- The move, or the copy in its place, touches the source and the temporary file only. -/
theorem moveOver_leaves : Leaves (Keeps [tmp, source] disk)
    (moveOver files disk source tmp clock) := by
  unfold moveOver
  split
  · rename_i moved hmoved
    split at hmoved
    · cases hmoved
    · exact .ok ((keeps_rename hmoved).mono (by simp +contextual))
  · unfold copyWith
    split
    · exact .error (.refl _ _)
    · rename_i file hfile
      refine leaves_bind ((tryWrite_leaves disk tmp ⟨file.data, clock⟩ files.write).imp
        (fun left hleft => hleft.mono (by simp))) (fun written _ hkeeps => .ok ?_)
      split
      · exact hkeeps
      · cases hunlinked : written.unlink source with
        | none => exact hkeeps
        | some left => exact hkeeps.trans ((keeps_unlink hunlinked).mono (by simp))

/-- The move brings the staged bytes, and takes the staging file away unless its unlink
fails. -/
theorem moveOver_ok (hne : source ≠ tmp) {file : StoredFile}
    (hfile : disk.read source = some file) {disk' : Disk}
    (hrun : moveOver files disk source tmp clock = .ok disk') :
    (∃ mtime, disk'.read tmp = some ⟨file.data, mtime⟩) ∧
      (files.unlinkSource = false → disk'.read source = none) := by
  unfold moveOver at hrun
  split at hrun
  · rename_i moved hmoved
    obtain rfl := Except.ok.inj hrun
    split at hmoved
    · cases hmoved
    · refine ⟨⟨file.mtime, ?_⟩, fun _ => ?_⟩
      · rw [Tree.read_rename hmoved, if_pos rfl, hfile]
      · rw [Tree.read_rename hmoved, if_neg hne, if_pos rfl]
  · unfold copyWith at hrun
    rw [hfile] at hrun
    dsimp only at hrun
    obtain ⟨written, hwritten, hrun⟩ := except_bind_eq_ok hrun
    have hwrote : disk.write tmp ⟨file.data, clock⟩ = some written := by
      unfold tryWrite attempt at hwritten
      split at hwritten
      · split at hwritten
        · rename_i left hsome
          rw [hsome, Except.ok.inj hwritten]
        · cases hwritten
      · cases hwritten
      · cases hwritten
    obtain rfl := Except.ok.inj hrun
    have hcopied : written.read tmp = some ⟨file.data, clock⟩ := by
      rw [Tree.read_write hwrote, if_pos rfl]
    split
    · rename_i hunlink
      exact ⟨⟨clock, hcopied⟩, fun hnot => by rw [hnot] at hunlink; cases hunlink⟩
    · have hleft : written.read source = some file := by
        rw [Tree.read_write hwrote, if_neg hne, hfile]
      obtain ⟨left, hunlinked⟩ :=
        Tree.unlink_eq_some (Tree.isFile_eq_true_iff.mpr ⟨file, hleft⟩)
      rw [hunlinked, Option.getD_some]
      refine ⟨⟨clock, ?_⟩, fun _ => ?_⟩
      · rw [Tree.read_unlink hunlinked, if_neg (Ne.symm hne), hcopied]
      · rw [Tree.read_unlink hunlinked, if_pos rfl]

variable {key : String}

/-- The unlink of a temporary file that is in the way. -/
def clearTemporary (files : Faults) (disk : Disk) (tmp : Path) : Except StorageFailure Disk :=
  if disk.present tmp then tryCall disk (disk.unlink tmp) files.unlink else pure disk

/-- Clearing the temporary file touches nothing else. -/
theorem clearTemporary_leaves (disk : Disk) :
    Leaves (Keeps [tmp] disk) (clearTemporary files disk tmp) := by
  unfold clearTemporary
  split
  · exact tryCall_leaves (.refl _ _) (fun cleared hcleared => keeps_unlink hcleared)
  · exact .ok (.refl _ _)

/-- The publication of a staged file, step by step. -/
theorem publish_staged_eq (hkey : resolve key = .ok p) (h : Siblings p tmp side) :
    publish files disk key contentType clock (.staged source) =
      (tryMkdirs disk p.dropLast files.mkdirs >>= fun made =>
        if made.isFile source then
          clearTemporary files made tmp >>= fun cleared =>
            moveOver files cleared source tmp clock >>= fun moved =>
              replaceInto files moved tmp p contentType clock
        else .error ⟨.fileNotFound (asPosix source), made⟩) := by
  have hsibling : siblingOf p ".tmp" = .ok tmp := by
    rw [siblingOf, h.temporary]
  have hreturn : ∀ x : Except StorageFailure Disk,
      (x >>= fun left => pure (left, key)).map Prod.fst = x := by
    intro x
    cases x <;> rfl
  simp only [publish, putFromPathWith, clearTemporary, hkey, lookup, bind, Except.bind]
  cases tryMkdirs disk p.dropLast files.mkdirs with
  | error failure => rfl
  | ok made =>
      dsimp only
      by_cases hsource : made.isFile source = true
      · simp only [if_pos hsource, hsibling]
        by_cases hpresent : made.present tmp = true
        · simp only [if_pos hpresent]
          cases tryCall made (made.unlink tmp) files.unlink with
          | error failure => rfl
          | ok cleared =>
              dsimp only
              cases moveOver files cleared source tmp clock with
              | error failure => rfl
              | ok moved => exact hreturn _
        · simp only [if_neg hpresent, pure, Except.pure]
          cases moveOver files made source tmp clock with
          | error failure => rfl
          | ok moved => exact hreturn _
      · simp only [if_neg hsource]
        rfl

/-- **A publication** changes the three files of its key, and the staging file. -/
theorem publish_leaves (hkey : resolve key = .ok p) (h : Siblings p tmp side) :
    Leaves (Keeps [p, tmp, side, source] disk)
      (publish files disk key contentType clock (.staged source)) := by
  rw [publish_staged_eq hkey h]
  refine leaves_bind ((tryMkdirs_leaves disk p.dropLast files.mkdirs).imp
    (fun left hleft q _ => hleft q)) (fun made _ hmade => ?_)
  split
  · refine leaves_bind ((clearTemporary_leaves made).imp
      (fun left hleft => hmade.trans (hleft.mono (by simp)))) (fun cleared _ hcleared => ?_)
    refine leaves_bind (moveOver_leaves.imp
      (fun left hleft => hcleared.trans (hleft.mono (by simp)))) (fun moved _ hmoved => ?_)
    exact (replaceInto_leaves h).imp
      (fun left hleft => hmoved.trans (hleft.mono (by simp +contextual)))
  · exact .error hmade

/-- **A publication that returns** has brought the staged bytes under its key. -/
theorem publish_ok (hkey : resolve key = .ok p) (h : Siblings p tmp side)
    (hsource : source ∉ [p, tmp, side]) {file : StoredFile} (hfile : disk.read source = some file)
    {published : Disk}
    (hrun : publish files disk key contentType clock (.staged source) = .ok published) :
    (∃ mtime, published.read p = some ⟨file.data, mtime⟩) ∧
      (files.unlinkSource = false → published.read source = none) := by
  simp only [List.mem_cons, List.not_mem_nil, or_false, not_or] at hsource
  obtain ⟨hp, htmp, hside⟩ := hsource
  rw [publish_staged_eq hkey h] at hrun
  obtain ⟨made, hmade, hrun⟩ := except_bind_eq_ok hrun
  have hmadeRead := tryMkdirs_leaves disk p.dropLast files.mkdirs
  rw [hmade] at hmadeRead
  split at hrun
  · obtain ⟨cleared, hcleared, hrun⟩ := except_bind_eq_ok hrun
    obtain ⟨moved, hmoved, hrun⟩ := except_bind_eq_ok hrun
    have hclearedRead : Leaves (Keeps [tmp] made) (clearTemporary files made tmp) :=
      clearTemporary_leaves made
    rw [hcleared] at hclearedRead
    have hkept : cleared.read source = some file := by
      rw [hclearedRead.of_ok source (by simpa using htmp), hmadeRead.of_ok source, hfile]
    obtain ⟨⟨mtime, hbrought⟩, hgone⟩ := moveOver_ok htmp hkept hmoved
    have hends : Leaves (Keeps [p, tmp, side] moved)
        (replaceInto files moved tmp p contentType clock) := replaceInto_leaves h
    rw [hrun] at hends
    refine ⟨⟨mtime, replaceInto_ok h hbrought hrun⟩, fun hunlink => ?_⟩
    rw [hends.of_ok source (by simp [hp, htmp, hside]), hgone hunlink]
  · cases hrun

end Publication

end Disk

end ChallengeForge
