import ChallengeForge.FilesystemStorage
import ChallengeForge.LabelledSystem

/-!
# The storage as a map

What `LocalFilesystemStorage` promises of its keys: it maps their paths to bytes.
A blob has two siblings in its directory, the sidecar and the temporary file of a
write, and nothing keeps another key from leading to one of them.

Here every name has room in the file system; the limits follow in their own module.

* `put_eq_ok`, `putFromPath_eq_ok` — where there is room, publishing succeeds;
* `readsAs_iff` — on a set of paths the storage reads as a map exactly when no path
  is, or lies below, a sibling of another, and none is the root.
-/

namespace ChallengeForge

open Directory Labelled

namespace Disk

/-- A path the storage uses beside a blob. -/
def IsSibling (p side : Path) : Prop :=
  sibling p ".tmp" = some side ∨ sibling p ".content_type" = some side

theorem tmp_extension : IsExtension ".tmp" := by decide

/-- The siblings of a path lie beside it, and are three paths with it. -/
structure Siblings (p tmp side : Path) : Prop where
  temporary : sibling p ".tmp" = some tmp
  sidecar : sibling p ".content_type" = some side
  tmp_ne : tmp ≠ p
  side_ne : side ≠ p
  tmp_ne_side : tmp ≠ side
  tmp_parent : tmp ≠ [] ∧ tmp.dropLast = p.dropLast
  side_parent : side ≠ [] ∧ side.dropLast = p.dropLast
  length : tmp.length = p.length ∧ side.length = p.length

theorem exists_siblings {p : Path} (hp : p ≠ []) : ∃ tmp side, Siblings p tmp side := by
  obtain ⟨dir, name, rfl⟩ := exists_concat hp
  obtain ⟨hidden, htmp, htmpText⟩ := sibling_concat tmp_extension dir name
  obtain ⟨beside, hside, hsideText⟩ := sibling_concat sidecar_extension dir name
  refine ⟨dir ++ [hidden], dir ++ [beside], htmp, hside, ?_, ?_, ?_, by simp, by simp, by simp⟩
  · exact siblingOf_ne tmp_extension (by rw [siblingOf, htmp])
  · exact siblingOf_ne sidecar_extension (by rw [siblingOf, hside])
  · intro hsame
    have hnames : hidden = beside := by simpa using hsame
    have htext : name.text ++ ".tmp".toList = name.text ++ ".content_type".toList := by
      rw [← htmpText, ← hsideText, hnames]
    exact absurd (List.append_cancel_left htext) (by decide)

theorem Siblings.of_isSibling {p tmp side x : Path} (h : Siblings p tmp side)
    (hx : IsSibling p x) : x = tmp ∨ x = side := by
  rcases hx with htmp | hside
  · exact Or.inl (Option.some.inj (htmp.symm.trans h.temporary))
  · exact Or.inr (Option.some.inj (hside.symm.trans h.sidecar))

theorem Siblings.isSibling {p tmp side : Path} (h : Siblings p tmp side) :
    IsSibling p tmp ∧ IsSibling p side := ⟨Or.inl h.temporary, Or.inr h.sidecar⟩

/-! ## Where there is room -/

/-- No file is on the way to the path, and no directory where its files go. -/
structure Room (disk : Disk) (p : Path) : Prop where
  ne_nil : p ≠ []
  way : ∀ q, q <+: p.dropLast → disk.isFile q = false
  place : disk.isDir p = false
  siblings : ∀ x, IsSibling p x → disk.isDir x = false

theorem isFile_empty (q : Path) : Tree.isFile (Tree.empty : Disk) q = false := by
  by_cases hq : q = []
  · subst hq
    rfl
  · simp [Tree.isFile, Tree.read, Tree.node?_empty hq]

theorem isDir_empty {q : Path} (hq : q ≠ []) : Tree.isDir (Tree.empty : Disk) q = false := by
  simp [Tree.isDir, Tree.node?_empty hq]

/-- There is room for every key on a new disk. -/
theorem room_empty {p : Path} (hp : p ≠ []) : Room (Tree.empty : Disk) p where
  ne_nil := hp
  way q _ := isFile_empty q
  place := isDir_empty hp
  siblings x hx := by
    obtain ⟨tmp, side, h⟩ := exists_siblings hp
    rcases h.of_isSibling hx with rfl | rfl
    · exact isDir_empty h.tmp_parent.1
    · exact isDir_empty h.side_parent.1

/-- What a published blob leaves on the disk, when it is moved there from `source`. -/
structure Published (disk disk' : Disk) (p tmp side : Path) (source : Option Path)
    (data : List UInt8) : Prop where
  blob : ∃ now, disk'.read p = some ⟨data, now⟩
  sidecar : ∃ file, disk'.read side = some file
  cleaned : disk'.read tmp = none
  frame : ∀ q, q ≠ p → q ≠ tmp → q ≠ side → source ≠ some q → disk'.read q = disk.read q
  moved : ∀ q, source = some q → disk'.read q = none
  dirs : ∀ q, disk'.isDir q = true → disk.isDir q = true ∨ q <+: p.dropLast

/-- The files are those there were, the blob and its sidecar. -/
theorem Published.isFile {disk disk' : Disk} {p tmp side q : Path} {source : Option Path}
    {data : List UInt8} (h : Published disk disk' p tmp side source data)
    (hfile : disk'.isFile q = true) : disk.isFile q = true ∨ q = p ∨ q = side := by
  by_cases hqp : q = p
  · exact Or.inr (Or.inl hqp)
  by_cases hqside : q = side
  · exact Or.inr (Or.inr hqside)
  left
  by_cases htmp : q = tmp
  · subst htmp
    simp [Tree.isFile, h.cleaned] at hfile
  · by_cases hmoved : source = some q
    · simp [Tree.isFile, h.moved q hmoved] at hfile
    · rwa [Tree.isFile, h.frame q hqp htmp hqside hmoved] at hfile

/-- Making the parent directory leaves the files, and makes no directory of a path
as long as the blob's. -/
theorem mkdirs_spec {disk made : Disk} {p : Path} (hp : p ≠ [])
    (hmade : disk.mkdirs [] p.dropLast = some made) :
    made.isDir p.dropLast = true ∧ (∀ q, made.read q = disk.read q) ∧
      (∀ q, made.isDir q = true → disk.isDir q = true ∨ q <+: p.dropLast) ∧
      ∀ q, q.length = p.length → disk.isDir q = false → made.isDir q = false := by
  have hdirs : ∀ q, made.isDir q = true → disk.isDir q = true ∨ q <+: p.dropLast :=
    fun q hq => Tree.isDir_of_mkdirs hmade hq
  refine ⟨Tree.isDir_mkdirs Tree.isDir_nil hmade, fun q => Tree.read_mkdirs hmade q, hdirs, ?_⟩
  intro q hlength hnone
  rw [Bool.eq_false_iff]
  intro hdir
  rcases hdirs q hdir with hold | hway
  · rw [hold] at hnone
    cases hnone
  · have hle := hway.length_le
    have hpos := List.length_pos_iff.mpr hp
    rw [List.length_dropLast] at hle
    omega

/-- The parent directory can be made, and what goes into it is still no directory. -/
theorem Room.mkdirs {disk : Disk} {p tmp side : Path} (hroom : Room disk p)
    (h : Siblings p tmp side) :
    ∃ made, disk.mkdirs [] p.dropLast = some made ∧ made.isDir p.dropLast = true ∧
      (∀ q, made.read q = disk.read q) ∧
      (∀ q, made.isDir q = true → disk.isDir q = true ∨ q <+: p.dropLast) ∧
      made.isDir p = false ∧ made.isDir tmp = false ∧ made.isDir side = false := by
  obtain ⟨made, hmade⟩ : ∃ made, disk.mkdirs [] p.dropLast = some made :=
    Tree.mkdirs_eq_some Tree.isDir_nil (fun q _ hq => hroom.way q hq)
  obtain ⟨hparent, hread, hdirs, hlong⟩ := mkdirs_spec hroom.ne_nil hmade
  refine ⟨made, hmade, hparent, hread, hdirs, hlong p rfl hroom.place, ?_, ?_⟩
  · exact hlong tmp h.length.1 (hroom.siblings tmp h.isSibling.1)
  · exact hlong side h.length.2 (hroom.siblings side h.isSibling.2)

/-- Once the temporary file holds the bytes, the rest succeeds. -/
theorem publish_tmp {disk : Disk} {p tmp side : Path} {file : StoredFile}
    (sidecarFile : StoredFile) (h : Siblings p tmp side) (hp : p ≠ [])
    (hparent : disk.isDir p.dropLast = true)
    (hplace : disk.isDir p = false) (hside : disk.isDir side = false)
    (hread : disk.read tmp = some file) :
    ∃ renamed disk', disk.rename tmp p = some renamed ∧
      renamed.write side sidecarFile = some disk' ∧
      (∀ q, disk'.read q = if q = side then some sidecarFile else if q = p then some file
        else if q = tmp then none else disk.read q) ∧
      ∀ q, disk'.isDir q = disk.isDir q := by
  obtain ⟨renamed, hrenamed⟩ := Tree.rename_eq_some hread ⟨hp, hparent⟩ hplace
  have hdirs := Tree.isDir_rename hrenamed
  obtain ⟨disk', hdisk'⟩ := Tree.write_eq_some (t := renamed) (p := side) (f := sidecarFile)
    ⟨h.side_parent.1, by rw [hdirs, h.side_parent.2, hparent]⟩ (by rw [hdirs, hside])
  refine ⟨renamed, disk', hrenamed, hdisk', ?_, ?_⟩
  · intro q
    rw [Tree.read_write hdisk', Tree.read_rename hrenamed, hread]
  · intro q
    rw [Tree.isDir_write hdisk', hdirs]

/-- **Put.**  Where there is room the blob is published. -/
theorem put_eq_ok {disk : Disk} {key : String} {p tmp side : Path} (data : List UInt8)
    (contentType : String) (now : Rat) (hkey : resolve key = .ok p) (hroom : Room disk p)
    (h : Siblings p tmp side) :
    ∃ disk', put disk key data contentType now = .ok (disk', key) ∧
      Published disk disk' p tmp side none data := by
  obtain ⟨made, hmade, hparent, hread, hdirs, hplace, htmpDir, hsideDir⟩ := hroom.mkdirs h
  obtain ⟨written, hwritten⟩ := Tree.write_eq_some (t := made) (p := tmp)
    (f := (⟨data, now⟩ : StoredFile))
    ⟨h.tmp_parent.1, by rw [h.tmp_parent.2, hparent]⟩ htmpDir
  have hkept := Tree.isDir_write hwritten
  obtain ⟨renamed, disk', hrenamed, hdisk', hreads, hsame⟩ :=
    publish_tmp ⟨sidecarData contentType, now⟩ h hroom.ne_nil
      (by rw [hkept, hparent]) (by rw [hkept, hplace]) (by rw [hkept, hsideDir])
      (by rw [Tree.read_write hwritten, if_pos rfl])
  refine ⟨disk', ?_, ?_⟩
  · simp [put, hkey, lookup, attempt, hmade, siblingOf, h.temporary, h.sidecar,
      hwritten, hrenamed, hdisk',
      bind, Except.bind, pure, Except.pure]
  · constructor
    · exact ⟨now, by rw [hreads, if_neg (Ne.symm h.side_ne), if_pos rfl]⟩
    · exact ⟨_, by rw [hreads, if_pos rfl]⟩
    · rw [hreads, if_neg h.tmp_ne_side, if_neg h.tmp_ne, if_pos rfl]
    · intro q hp htmp hside _
      rw [hreads, if_neg hside, if_neg hp, if_neg htmp, Tree.read_write hwritten, if_neg htmp,
        hread]
    · intro q hq
      cases hq
    · intro q hq
      rw [hsame, hkept] at hq
      exact hdirs q hq

/-- What a call leaves, whether it returns or raises. -/
def left {α : Type} : Except StorageFailure (Disk × α) → Disk
  | .ok result => result.1
  | .error failure => failure.disk

/-- **Put, whatever happens.**  It touches a blob and its siblings; and the blob is
replaced only when the temporary file could be written and was moved there. -/
theorem put_left {disk : Disk} {key : String} {p tmp side : Path} (data : List UInt8)
    (contentType : String) (now : Rat) (hkey : resolve key = .ok p) (h : Siblings p tmp side) :
    (∀ q, q ≠ p → q ≠ tmp → q ≠ side →
        (left (put disk key data contentType now)).read q = disk.read q) ∧
      ((left (put disk key data contentType now)).read p = disk.read p ∨
        ((left (put disk key data contentType now)).read tmp = none ∧
          (left (put disk key data contentType now)).isDir tmp = false)) := by
  cases hmade : disk.mkdirs [] p.dropLast with
  | none =>
      have hleft : left (put disk key data contentType now) = disk := by
        simp [put, hkey, lookup, attempt, hmade, bind, Except.bind, left]
      rw [hleft]
      exact ⟨fun _ _ _ _ => rfl, Or.inl rfl⟩
  | some made =>
      have hread := Tree.read_mkdirs hmade
      cases hwritten : made.write tmp ⟨data, now⟩ with
      | none =>
          have hleft : left (put disk key data contentType now) = made := by
            simp [put, hkey, lookup, attempt, hmade, siblingOf, h.temporary, hwritten, bind,
              Except.bind, left]
          rw [hleft]
          exact ⟨fun q _ _ _ => hread q, Or.inl (hread p)⟩
      | some written =>
          have htmpDir : written.isDir tmp = false := by
            rw [Tree.isDir_write hwritten]
            unfold Tree.write at hwritten
            split at hwritten
            · rename_i hok
              exact hok.2
            · cases hwritten
          have hwrote : ∀ q, q ≠ tmp → written.read q = disk.read q := by
            intro q hq
            rw [Tree.read_write hwritten, if_neg hq, hread]
          cases hrenamed : written.rename tmp p with
          | none =>
              have hleft : left (put disk key data contentType now) = written := by
                simp [put, hkey, lookup, attempt, hmade, siblingOf, h.temporary, hwritten,
                  hrenamed, bind, Except.bind, left]
              rw [hleft]
              exact ⟨fun q _ hq _ => hwrote q hq, Or.inl (hwrote p (Ne.symm h.tmp_ne))⟩
          | some renamed =>
              have hmoved : renamed.read tmp = none ∧ renamed.isDir tmp = false := by
                rw [Tree.read_rename hrenamed, if_neg h.tmp_ne, if_pos rfl,
                  Tree.isDir_rename hrenamed]
                exact ⟨rfl, htmpDir⟩
              have hframe : ∀ q, q ≠ p → q ≠ tmp → renamed.read q = disk.read q := by
                intro q hqp hq
                rw [Tree.read_rename hrenamed, if_neg hqp, if_neg hq, hwrote q hq]
              cases hside : renamed.write side ⟨sidecarData contentType, now⟩ with
              | none =>
                  have hleft : left (put disk key data contentType now) = renamed := by
                    simp [put, hkey, lookup, attempt, hmade, siblingOf, h.temporary, h.sidecar,
                      hwritten, hrenamed, hside, bind, Except.bind, left]
                  rw [hleft]
                  exact ⟨fun q hqp hq _ => hframe q hqp hq, Or.inr hmoved⟩
              | some disk' =>
                  have hleft : left (put disk key data contentType now) = disk' := by
                    simp [put, hkey, lookup, attempt, hmade, siblingOf, h.temporary, h.sidecar,
                      hwritten, hrenamed, hside, bind, Except.bind, pure, Except.pure, left]
                  rw [hleft, Tree.read_write hside tmp, if_neg h.tmp_ne_side,
                    Tree.isDir_write hside]
                  refine ⟨fun q hqp hq hqside => ?_, Or.inr hmoved⟩
                  rw [Tree.read_write hside, if_neg hqside, hframe q hqp hq]

/-- The temporary file of an earlier write is cleared away. -/
theorem clear_tmp {disk : Disk} {tmp : Path} (hdir : disk.isDir tmp = false) :
    ∃ cleared, ((disk.present tmp = true ∧ disk.unlink tmp = some cleared) ∨
        (disk.present tmp = false ∧ cleared = disk)) ∧
      (∀ q, cleared.read q = if q = tmp then none else disk.read q) ∧
      ∀ q, cleared.isDir q = disk.isDir q := by
  by_cases hpresent : disk.present tmp = true
  · have hfile : disk.isFile tmp = true := by
      obtain ⟨node, hnode⟩ := Option.isSome_iff_exists.mp hpresent
      unfold Tree.isDir at hdir
      cases node with
      | dir => simp [hnode] at hdir
      | file f => simp [Tree.isFile, Tree.read_eq_some_iff.mpr hnode]
    obtain ⟨cleared, hcleared⟩ := Tree.unlink_eq_some hfile
    exact ⟨cleared, Or.inl ⟨hpresent, hcleared⟩, Tree.read_unlink hcleared,
      Tree.isDir_unlink hcleared⟩
  · refine ⟨disk, Or.inr ⟨by simpa using hpresent, rfl⟩, ?_, fun _ => rfl⟩
    intro q
    by_cases hq : q = tmp
    · subst hq
      have hnone : disk.node? q = none := by simpa [Tree.present] using hpresent
      simp [Tree.read, hnone]
    · rw [if_neg hq]

/-- **Put from a path.**  Where there is room the file is published. -/
theorem putFromPath_eq_ok {disk : Disk} {key : String} {p tmp side source : Path}
    {file : StoredFile} (contentType : String) (now : Rat) (hkey : resolve key = .ok p)
    (hroom : Room disk p) (h : Siblings p tmp side) (hsource : disk.read source = some file)
    (hp : source ≠ p) (htmp : source ≠ tmp) (hside : source ≠ side) :
    ∃ disk', putFromPath disk key source contentType now = .ok (disk', key) ∧
      Published disk disk' p tmp side (some source) file.data := by
  obtain ⟨made, hmade, hparent, hread, hdirs, hplace, htmpDir, hsideDir⟩ := hroom.mkdirs h
  have hfile : made.isFile source = true :=
    Tree.isFile_eq_true_iff.mpr ⟨file, by rw [hread, hsource]⟩
  obtain ⟨cleared, hcleared, hclearedRead, hclearedDir⟩ := clear_tmp htmpDir
  have hkeptSource : cleared.read source = some file := by
    rw [hclearedRead, if_neg htmp, hread, hsource]
  obtain ⟨moved, hmoved⟩ := Tree.rename_eq_some hkeptSource
    (⟨h.tmp_parent.1, by rw [hclearedDir, h.tmp_parent.2, hparent]⟩ : cleared.Placeable tmp)
    (by rw [hclearedDir, htmpDir])
  have hkept : ∀ q, moved.isDir q = made.isDir q := by
    intro q
    rw [Tree.isDir_rename hmoved, hclearedDir]
  obtain ⟨renamed, disk', hrenamed, hdisk', hreads, hsame⟩ :=
    publish_tmp ⟨sidecarData contentType, now⟩ h hroom.ne_nil
      (by rw [hkept, hparent]) (by rw [hkept, hplace]) (by rw [hkept, hsideDir])
      (by rw [Tree.read_rename hmoved, if_pos rfl, hkeptSource])
  refine ⟨disk', ?_, ?_⟩
  · rcases hcleared with ⟨hpresent, hunlinked⟩ | ⟨habsent, rfl⟩
    · simp [putFromPath, hkey, lookup, attempt, hmade, hfile, siblingOf, h.temporary, h.sidecar,
        bind, Except.bind, pure, Except.pure, hpresent, hunlinked, hmoved, hrenamed, hdisk']
    · simp [putFromPath, hkey, lookup, attempt, hmade, hfile, siblingOf, h.temporary, h.sidecar,
        bind, Except.bind, pure, Except.pure, habsent, hmoved, hrenamed, hdisk']
  · constructor
    · exact ⟨file.mtime, by rw [hreads, if_neg (Ne.symm h.side_ne), if_pos rfl]⟩
    · exact ⟨_, by rw [hreads, if_pos rfl]⟩
    · rw [hreads, if_neg h.tmp_ne_side, if_neg h.tmp_ne, if_pos rfl]
    · intro q hq hqtmp hqside hqsource
      have hother : q ≠ source := fun h => hqsource (by rw [h])
      rw [hreads, if_neg hqside, if_neg hq, if_neg hqtmp, Tree.read_rename hmoved, if_neg hqtmp,
        if_neg hother, hclearedRead, if_neg hqtmp, hread]
    · intro q hq
      obtain rfl := Option.some.inj hq
      rw [hreads, if_neg hside, if_neg hp, if_neg htmp, Tree.read_rename hmoved, if_neg htmp,
        if_pos rfl]
    · intro q hq
      rw [hsame, hkept] at hq
      exact hdirs q hq

/-- Without the file nothing but the directories is made. -/
theorem putFromPath_missing {disk : Disk} {key : String} {p source : Path}
    (contentType : String) (now : Rat) (hkey : resolve key = .ok p) (hroom : Room disk p)
    (hsource : disk.read source = none) :
    ∃ made, putFromPath disk key source contentType now =
        .error ⟨.fileNotFound (asPosix source), made⟩ ∧
      (∀ q, made.read q = disk.read q) ∧
      ∀ q, made.isDir q = true → disk.isDir q = true ∨ q <+: p.dropLast := by
  obtain ⟨tmp, side, hsiblings⟩ := exists_siblings hroom.ne_nil
  obtain ⟨made, hmade, -, hread, hdirs, -, -, -⟩ := hroom.mkdirs hsiblings
  have hfile : made.isFile source = false := by simp [Tree.isFile, hread, hsource]
  refine ⟨made, ?_, hread, hdirs⟩
  simp [putFromPath, hkey, lookup, attempt, hmade, hfile, bind, Except.bind, throw, throwThe,
    MonadExceptOf.throw]

/-- An upload is staged in a file. -/
def stage (disk : Disk) (source : Path) (data : List UInt8) (now : Rat) : Disk :=
  ((disk.mkdirs [] source.dropLast).bind (fun made => made.write source ⟨data, now⟩)).getD disk

/-- A staged upload is one file, in its directories. -/
theorem stage_spec (disk : Disk) (source : Path) (data : List UInt8) (now : Rat) :
    (∀ q, q ≠ source → (stage disk source data now).read q = disk.read q) ∧
      ∀ q, (stage disk source data now).isDir q = true →
        disk.isDir q = true ∨ q <+: source.dropLast := by
  unfold stage
  cases hmade : disk.mkdirs [] source.dropLast with
  | none => exact ⟨fun _ _ => rfl, fun _ hq => Or.inl hq⟩
  | some made =>
      have hread : ∀ q, made.read q = disk.read q := Tree.read_mkdirs hmade
      cases hwritten : made.write source ⟨data, now⟩ with
      | none =>
          simp only [Option.bind_some, hwritten, Option.getD_none]
          exact ⟨fun _ _ => trivial, fun _ hq => Or.inl hq⟩
      | some written =>
          simp only [Option.bind_some, hwritten, Option.getD_some]
          constructor
          · intro q hq
            rw [Tree.read_write hwritten, if_neg hq, hread]
          · intro q hq
            rw [Tree.isDir_write hwritten] at hq
            exact Tree.isDir_of_mkdirs hmade hq

end Disk

/-! ## Calls on the storage -/

/-- The calls on a storage, and the uploads staged beside it. -/
inductive StorageCall
  | put (key : String) (data : List UInt8) (contentType : String) (now : Rat)
  | putFromPath (key : String) (source : Path) (contentType : String) (now : Rat)
  | delete (key : String)
  | stage (source : Path) (data : List UInt8) (now : Rat)

/-- A storage, and what a map would hold after the same calls. -/
structure StoredMap where
  disk : Disk
  contents : Path → Option (List UInt8)

namespace StoredMap

/-- A call on a key the storage accepts. -/
def step (s : StoredMap) : StorageCall → Option StoredMap
  | .put key data contentType now =>
      match Disk.resolve key with
      | .ok p =>
          some
            { disk := Disk.left (Disk.put s.disk key data contentType now)
              contents := Function.update s.contents p (some data) }
      | .error _ => none
  | .putFromPath key source contentType now =>
      match Disk.resolve key with
      | .ok p =>
          some
            { disk := Disk.left (Disk.putFromPath s.disk key source contentType now)
              contents :=
                match s.disk.read source with
                | some file => Function.update s.contents p (some file.data)
                | none => s.contents }
      | .error _ => none
  | .delete key =>
      match Disk.resolve key, Disk.delete s.disk key with
      | .ok p, .ok (disk, _) =>
          some { disk := disk, contents := Function.update s.contents p none }
      | _, _ => none
  | .stage source data now => some { s with disk := Disk.stage s.disk source data now }

/-- A storage that was just made. -/
def Fresh (s : StoredMap) : Prop := s.disk = Tree.empty ∧ ∀ p, s.contents p = none

end StoredMap

/-- The storage beside the map, as a labelled system. -/
def storedMap : System StoredMap StorageCall where
  start := StoredMap.Fresh
  step := StoredMap.step

/-- Neither path leads to the other, or through it. -/
def Apart (p q : Path) : Prop := ¬ p <+: q ∧ ¬ q <+: p

/-- A file the storage has nothing to do with. -/
def Staging (S : Set Path) (source : Path) : Prop :=
  ∀ p ∈ S, Apart source p ∧ ∀ side, Disk.IsSibling p side → Apart source side

/-- A staged file is neither a blob nor beside one. -/
theorem Staging.not_own {S : Set Path} {source p : Path} (h : Staging S source) (hp : p ∈ S) :
    ∀ x, (x = p ∨ Disk.IsSibling p x) → source ≠ x := by
  rintro x hx rfl
  rcases hx with hsame | hsibling
  · exact (h p hp).1.1 (by rw [hsame])
  · exact ((h p hp).2 source hsibling).1 (List.prefix_refl source)

/-- The calls are on keys of the set, and uploads are staged elsewhere. -/
def callsOn (S : Set Path) : Condition StoredMap StorageCall
  | _, .put key _ _ _ | _, .delete key => ∀ p, Disk.resolve key = .ok p → p ∈ S
  | _, .putFromPath key source _ _ =>
      (∀ p, Disk.resolve key = .ok p → p ∈ S) ∧ Staging S source
  | _, .stage source _ _ => Staging S source

/-- The storage reads as the map. -/
def ReadsAs (S : Set Path) (s : StoredMap) : Prop :=
  ∀ key p, Disk.resolve key = .ok p → p ∈ S →
    Disk.get s.disk key = (match s.contents p with
      | some data => .ok data
      | none => .error (.fileNotFound key)) ∧
    Disk.blobExists s.disk key = .ok (s.contents p).isSome

/-- In every run of calls on the set, the storage reads as the map. -/
def AlwaysReads (S : Set Path) : Prop := ∀ s, storedMap.Reach (callsOn S) s → ReadsAs S s

/-- No path is the root, and none is, or lies below, a sibling of one. -/
structure SiblingFree (S : Set Path) : Prop where
  root : [] ∉ S
  siblings : ∀ p ∈ S, ∀ q ∈ S, ∀ side, Disk.IsSibling p side → ¬ side <+: q

/-- No path leads through another. -/
def PrefixFree (S : Set Path) : Prop := ∀ p ∈ S, ∀ q ∈ S, p <+: q → p = q

namespace StoredMap

open Disk

variable {S : Set Path} {s t : StoredMap}

/-- The blobs are those of the map, and there is room for every key. -/
structure Held (S : Set Path) (s : StoredMap) : Prop where
  blobs : ∀ p ∈ S, (s.disk.read p).map StoredFile.data = s.contents p
  way : ∀ p ∈ S, ∀ q, q <+: p → s.disk.isFile q = true → q = p
  places : ∀ p ∈ S, s.disk.isDir p = false ∧ ∀ x, IsSibling p x → s.disk.isDir x = false

theorem Held.readsAs (h : Held S s) : ReadsAs S s := by
  intro key p hkey hp
  have hblob := h.blobs p hp
  constructor
  · rw [get_of_resolve hkey, ← hblob]
    cases s.disk.read p <;> rfl
  · have hexists : blobExists s.disk key = .ok (s.disk.isFile p) := by
      rw [blobExists, hkey]
      rfl
    rw [hexists, ← hblob, Option.isSome_map]
    rfl

theorem Held.room (h : Held S s) (hfree : SiblingFree S) {p : Path} (hp : p ∈ S) :
    Room s.disk p where
  ne_nil := by
    rintro rfl
    exact hfree.root hp
  way q hq := by
    rw [Bool.eq_false_iff]
    intro hfile
    have hsame := h.way p hp q (hq.trans (List.dropLast_prefix p)) hfile
    have hle := hq.length_le
    have hpos : p ≠ [] := by
      rintro rfl
      exact hfree.root hp
    have hlength := List.length_pos_iff.mpr hpos
    rw [hsame, List.length_dropLast] at hle
    omega
  place := (h.places p hp).1
  siblings := (h.places p hp).2

/-- A path where a file is in nobody's way. -/
def FileFits (S : Set Path) (q : Path) : Prop := ∀ p ∈ S, q <+: p → q = p

/-- A path where a directory takes nobody's place. -/
def DirFits (S : Set Path) (q : Path) : Prop := ∀ p ∈ S, q ≠ p ∧ ∀ x, IsSibling p x → q ≠ x

/-- A step that adds files and directories where they fit keeps the room. -/
theorem Held.evolve (h : Held S s)
    (hblobs : ∀ p ∈ S, (t.disk.read p).map StoredFile.data = t.contents p)
    (hfiles : ∀ q, t.disk.isFile q = true → s.disk.isFile q = true ∨ FileFits S q)
    (hdirs : ∀ q, t.disk.isDir q = true → s.disk.isDir q = true ∨ DirFits S q) : Held S t where
  blobs := hblobs
  way p hp q hq hfile := by
    rcases hfiles q hfile with hold | hfits
    · exact h.way p hp q hq hold
    · exact hfits p hp hq
  places p hp := by
    have hnot : ∀ x, s.disk.isDir x = false → ¬ DirFits S x → t.disk.isDir x = false := by
      intro x hnone hfits
      rw [Bool.eq_false_iff]
      intro hdir
      rcases hdirs x hdir with hold | hnew
      · rw [hnone] at hold
        cases hold
      · exact hfits hnew
    refine ⟨hnot p (h.places p hp).1 (fun hfits => (hfits p hp).1 rfl), ?_⟩
    intro x hx
    exact hnot x ((h.places p hp).2 x hx) (fun hfits => (hfits p hp).2 x hx rfl)

theorem PrefixFree.fits (hpaths : PrefixFree S) {p : Path} (hp : p ∈ S) : FileFits S p :=
  fun q hq h => hpaths p hp q hq h

theorem SiblingFree.fits (hfree : SiblingFree S) {p side : Path} (hp : p ∈ S)
    (hside : IsSibling p side) : FileFits S side :=
  fun q hq h => absurd h (hfree.siblings p hp q hq side hside)

theorem Staging.fits {source : Path} (h : Staging S source) : FileFits S source :=
  fun p hp hway => absurd hway (h p hp).1.1

/-- The directories of a key take nobody's place. -/
theorem dirFits_of_key (hpaths : PrefixFree S) (hfree : SiblingFree S) {p q : Path}
    (hp : p ∈ S) (hq : q <+: p.dropLast) : DirFits S q := by
  have hlong : q <+: p := hq.trans (List.dropLast_prefix p)
  have hpos : p ≠ [] := by
    rintro rfl
    exact hfree.root hp
  have hne : q ≠ p := by
    rintro rfl
    have hle := hq.length_le
    have hlength := List.length_pos_iff.mpr hpos
    rw [List.length_dropLast] at hle
    omega
  intro r hr
  constructor
  · rintro rfl
    exact hne (hpaths q hr p hp hlong)
  · rintro x hx rfl
    exact hfree.siblings r hr p hp q hx hlong

theorem dirFits_of_staging {source q : Path} (h : Staging S source)
    (hq : q <+: source.dropLast) : DirFits S q := by
  have hlong : q <+: source := hq.trans (List.dropLast_prefix source)
  intro p hp
  constructor
  · rintro rfl
    exact (h q hp).1.2 hlong
  · rintro x hx rfl
    exact ((h p hp).2 q hx).2 hlong

/-- Publishing a blob keeps the room, and changes no other key. -/
theorem Held.published (hpaths : PrefixFree S) (hfree : SiblingFree S) (h : Held S s)
    {p tmp side : Path} {source : Option Path} {data : List UInt8} (hp : p ∈ S)
    (hsiblings : Siblings p tmp side) (hsource : ∀ q ∈ source, Staging S q)
    (hdisk : Published s.disk t.disk p tmp side source data)
    (hcontents : t.contents = Function.update s.contents p (some data)) : Held S t := by
  refine h.evolve ?_ ?_ ?_
  · intro q hq
    rw [hcontents]
    by_cases hqp : q = p
    · subst hqp
      obtain ⟨now, hblob⟩ := hdisk.blob
      rw [hblob, Function.update_self]
      rfl
    · have htmp : q ≠ tmp := by
        rintro rfl
        exact hfree.siblings p hp q hq q hsiblings.isSibling.1 (List.prefix_refl q)
      have hside : q ≠ side := by
        rintro rfl
        exact hfree.siblings p hp q hq q hsiblings.isSibling.2 (List.prefix_refl q)
      have hmoved : source ≠ some q := by
        intro hsame
        exact (hsource q hsame q hq).1.1 (List.prefix_refl q)
      rw [hdisk.frame q hqp htmp hside hmoved, Function.update_of_ne hqp, h.blobs q hq]
  · intro q hfile
    rcases hdisk.isFile hfile with hold | rfl | rfl
    · exact Or.inl hold
    · exact Or.inr (PrefixFree.fits hpaths hp)
    · exact Or.inr (SiblingFree.fits hfree hp hsiblings.isSibling.2)
  · intro q hdir
    rcases hdisk.dirs q hdir with hold | hway
    · exact Or.inl hold
    · exact Or.inr (dirFits_of_key hpaths hfree hp hway)

/-- Deleting a blob keeps the room, and changes no other key. -/
theorem Held.deleted (hfree : SiblingFree S) (h : Held S s) {key : String} {p : Path}
    {removed : Bool} (hkey : resolve key = .ok p) (hp : p ∈ S)
    (hdelete : Disk.delete s.disk key = .ok (t.disk, removed))
    (hcontents : t.contents = Function.update s.contents p none) : Held S t := by
  obtain ⟨disk', removed', hspec, hreads⟩ := delete_spec s.disk hkey
  rw [hdelete] at hspec
  obtain ⟨hsame, -⟩ := Prod.mk.inj (Except.ok.inj hspec)
  refine h.evolve ?_ ?_ ?_
  · intro q hq
    rw [hcontents, hsame, hreads]
    by_cases hqp : q = p
    · subst hqp
      simp
    · have hside : sidecar p ≠ some q := by
        intro hside
        exact hfree.siblings p hp q hq q (Or.inr hside) (List.prefix_refl q)
      rw [if_neg (by simp [hqp, hside]), Function.update_of_ne hqp, h.blobs q hq]
  · intro q hfile
    left
    rw [hsame, Tree.isFile, hreads] at hfile
    split at hfile
    · cases hfile
    · exact hfile
  · intro q hdir
    exact Or.inl (isDir_of_delete hdelete hdir)

/-- What a call on a key, or beside the keys, does. -/
inductive Effect (S : Set Path) (s t : StoredMap) : StorageCall → Prop
  | published {a : StorageCall} {p tmp side : Path} {source : Option Path} {data : List UInt8}
      (hp : p ∈ S) (hsiblings : Siblings p tmp side) (hsource : ∀ q ∈ source, Staging S q)
      (hdisk : Published s.disk t.disk p tmp side source data)
      (hcontents : t.contents = Function.update s.contents p (some data)) : Effect S s t a
  | missing {a : StorageCall} {p : Path} (hp : p ∈ S) (hread : ∀ q, t.disk.read q = s.disk.read q)
      (hdirs : ∀ q, t.disk.isDir q = true → s.disk.isDir q = true ∨ q <+: p.dropLast)
      (hcontents : t.contents = s.contents) : Effect S s t a
  | deleted {a : StorageCall} {key : String} {p : Path} {removed : Bool}
      (hkey : resolve key = .ok p) (hp : p ∈ S)
      (hdelete : Disk.delete s.disk key = .ok (t.disk, removed))
      (hcontents : t.contents = Function.update s.contents p none) : Effect S s t a
  | staged {source : Path} {data : List UInt8} {now : Rat} (hsource : Staging S source)
      (hread : ∀ q, q ≠ source → t.disk.read q = s.disk.read q)
      (hdirs : ∀ q, t.disk.isDir q = true → s.disk.isDir q = true ∨ q <+: source.dropLast)
      (hcontents : t.contents = s.contents) : Effect S s t (.stage source data now)

/-- **One call.**  Where there is room for every key, a call does what it is for. -/
theorem Held.effect (hfree : SiblingFree S) (h : Held S s) {a : StorageCall}
    (hok : callsOn S s a) (hstep : s.step a = some t) : Effect S s t a := by
  cases a with
  | put key data contentType now =>
      simp only [StoredMap.step] at hstep
      split at hstep
      · rename_i p hkey
        cases hstep
        have hp : p ∈ S := hok p hkey
        have hroom := h.room hfree hp
        obtain ⟨tmp, side, hsiblings⟩ := exists_siblings hroom.ne_nil
        obtain ⟨disk', hput, hdisk⟩ := put_eq_ok data contentType now hkey hroom hsiblings
        rw [hput]
        exact .published hp hsiblings (by simp) hdisk rfl
      · cases hstep
  | putFromPath key source contentType now =>
      obtain ⟨hset, hstaging⟩ := hok
      simp only [StoredMap.step] at hstep
      split at hstep
      · rename_i p hkey
        cases hstep
        have hp : p ∈ S := hset p hkey
        have hroom := h.room hfree hp
        obtain ⟨tmp, side, hsiblings⟩ := exists_siblings hroom.ne_nil
        cases hsource : s.disk.read source with
        | none =>
            obtain ⟨made, hmissing, hread, hdirs⟩ :=
              putFromPath_missing contentType now hkey hroom hsource
            rw [hmissing]
            exact .missing hp hread hdirs rfl
        | some file =>
            have hnot := hstaging.not_own hp
            obtain ⟨disk', hput, hdisk⟩ := putFromPath_eq_ok contentType now hkey hroom hsiblings
              hsource (hnot p (Or.inl rfl)) (hnot tmp (Or.inr hsiblings.isSibling.1))
              (hnot side (Or.inr hsiblings.isSibling.2))
            rw [hput]
            exact .published hp hsiblings (by simpa using hstaging) hdisk rfl
      · cases hstep
  | delete key =>
      simp only [StoredMap.step] at hstep
      split at hstep
      · rename_i p disk removed hkey hdelete
        cases hstep
        exact .deleted hkey (hok p hkey) hdelete rfl
      · cases hstep
  | stage source data now =>
      cases hstep
      obtain ⟨hread, hdirs⟩ := stage_spec s.disk source data now
      exact .staged hok hread hdirs rfl

/-- **A step keeps the map.** -/
theorem Held.step (hpaths : PrefixFree S) (hfree : SiblingFree S) (h : Held S s)
    {a : StorageCall} (hok : callsOn S s a) (hstep : s.step a = some t) : Held S t := by
  cases h.effect hfree hok hstep with
  | published hp hsiblings hsource hdisk hcontents =>
      exact h.published hpaths hfree hp hsiblings hsource hdisk hcontents
  | missing hp hread hdirs hcontents =>
      refine h.evolve ?_ ?_ ?_
      · intro q hq
        rw [hread, hcontents, h.blobs q hq]
      · intro q hfile
        left
        rwa [Tree.isFile, hread] at hfile
      · intro q hdir
        rcases hdirs q hdir with hold | hway
        · exact Or.inl hold
        · exact Or.inr (dirFits_of_key hpaths hfree hp hway)
  | deleted hkey hp hdelete hcontents => exact h.deleted hfree hkey hp hdelete hcontents
  | @staged source _ _ hsource hread hdirs hcontents =>
      refine h.evolve ?_ ?_ ?_
      · intro p hp
        have hother : p ≠ source := by
          rintro rfl
          exact (hsource p hp).1.1 (List.prefix_refl p)
        rw [hread p hother, hcontents, h.blobs p hp]
      · intro q hfile
        by_cases hq : q = source
        · subst hq
          exact Or.inr (Staging.fits hsource)
        · left
          rwa [Tree.isFile, hread q hq] at hfile
      · intro q hdir
        rcases hdirs q hdir with hold | hway
        · exact Or.inl hold
        · exact Or.inr (dirFits_of_staging hsource hway)

theorem held_of_fresh (hfree : SiblingFree S) (h : Fresh s) : Held S s where
  blobs p hp := by
    have hnone := isFile_empty p
    rw [Tree.isFile, Option.isSome_eq_false_iff, Option.isNone_iff_eq_none] at hnone
    rw [h.1, h.2, hnone]
    rfl
  way p hp q hq hfile := by
    rw [h.1, isFile_empty] at hfile
    cases hfile
  places p hp := by
    have hroom : Room s.disk p := by
      rw [h.1]
      exact room_empty (fun hnil => hfree.root (hnil ▸ hp))
    exact ⟨hroom.place, hroom.siblings⟩

/-! ## Collisions -/

/-- The storage and the map, before any call. -/
def new : StoredMap := ⟨Tree.empty, fun _ => none⟩

theorem reach_new : storedMap.Reach (callsOn S) new := .of_start ⟨rfl, fun _ => rfl⟩

/-- The storage after a call of `put`. -/
def afterPut (s : StoredMap) (key : String) (p : Path) (data : List UInt8) : StoredMap :=
  ⟨left (Disk.put s.disk key data "" 0), Function.update s.contents p (some data)⟩

theorem disk_afterPut (s : StoredMap) (key : String) (p : Path) (data : List UInt8) :
    (s.afterPut key p data).disk = left (Disk.put s.disk key data "" 0) := rfl

theorem step_put (s : StoredMap) {key : String} {p : Path} (hkey : resolve key = .ok p)
    (data : List UInt8) :
    storedMap.step s (.put key data "" 0) = some (s.afterPut key p data) := by
  show StoredMap.step s (.put key data "" 0) = _
  simp only [StoredMap.step, hkey]
  rfl

theorem reach_afterPut (h : storedMap.Reach (callsOn S) s) {key : String} {p : Path}
    (hkey : resolve key = .ok p) (hp : p ∈ S) (data : List UInt8) :
    storedMap.Reach (callsOn S) (s.afterPut key p data) := by
  refine h.snoc (a := .put key data "" 0) ?_ (step_put s hkey data)
  intro q hq
  rw [hkey] at hq
  cases hq
  exact hp

/-- What a map holds can be read. -/
theorem read_of_readsAs (h : ReadsAs S s) {key : String} {p : Path}
    (hkey : resolve key = .ok p) (hp : p ∈ S) :
    (s.disk.read p).map StoredFile.data = s.contents p := by
  have hget := (h key p hkey hp).1
  rw [get_of_resolve hkey] at hget
  cases hread : s.disk.read p with
  | none =>
      rw [hread] at hget
      cases hcontents : s.contents p with
      | none => rfl
      | some data => simp [hcontents] at hget
  | some file =>
      rw [hread] at hget
      cases hcontents : s.contents p with
      | none => simp [hcontents] at hget
      | some data => simpa [hcontents] using hget

/-- In a map what was put is there. -/
theorem blob_of_map (h : AlwaysReads S) (hs : storedMap.Reach (callsOn S) s) {key : String}
    {p : Path} (hkey : resolve key = .ok p) (hp : p ∈ S) (data : List UInt8) :
    ∃ file, (s.afterPut key p data).disk.read p = some file := by
  have hread := read_of_readsAs (h _ (reach_afterPut hs hkey hp data)) hkey hp
  have hcontents : (s.afterPut key p data).contents p = some data := by simp [afterPut]
  rw [hcontents] at hread
  obtain ⟨file, hfile, -⟩ := Option.map_eq_some_iff.mp hread
  exact ⟨file, hfile⟩

/-- A file lies in directories. -/
theorem isDir_of_read {disk : Disk} {q x : Path} {file : StoredFile}
    (hread : disk.read q = some file) (hway : x <+: q) (hne : x ≠ q) : disk.isDir x = true := by
  refine Tree.isDir_of_prefix ?_ hway hne
  rw [Tree.present, Tree.read_eq_some_iff.mp hread]
  rfl

/-- The root cannot be written. -/
theorem root_not_map (h : AlwaysReads S) : [] ∉ S := by
  intro hroot
  have hkey : resolve "." = .ok [] := by decide +kernel
  obtain ⟨file, hfile⟩ := blob_of_map h reach_new hkey hroot [1]
  rw [Tree.read_nil] at hfile
  cases hfile

/-- **Collision with a sidecar.**  No key leads to the sidecar of another, or below it. -/
theorem sidecar_not_map (h : AlwaysReads S) {p q tmp side : Path} (hp : p ∈ S) (hq : q ∈ S)
    (hpne : p ≠ []) (hsiblings : Siblings p tmp side) : ¬ side <+: q := by
  intro hway
  have hqne : q ≠ [] := by
    rintro rfl
    exact hsiblings.side_parent.1 (List.prefix_nil.mp hway)
  have hpkey := resolve_asPosix hpne
  have hqkey := resolve_asPosix hqne
  -- the first key is stored with its sidecar
  obtain ⟨disk', hput, hdisk⟩ := put_eq_ok [2] "" 0 hpkey (room_empty hpne) hsiblings
  obtain ⟨file, hfile⟩ := hdisk.sidecar
  have hleft : (new.afterPut (asPosix p) p [2]).disk = disk' := by
    show left (Disk.put Tree.empty (asPosix p) [2] "" 0) = disk'
    rw [hput]
    rfl
  have hfirst := reach_afterPut (reach_new (S := S)) hpkey hp [2]
  by_cases hsame : side = q
  · -- which the second one reads as its blob
    subst hsame
    have hread := read_of_readsAs (h _ hfirst) hqkey hq
    have hnone : (new.afterPut (asPosix p) p [2]).contents side = none := by
      simp [afterPut, new, Function.update_of_ne hsiblings.side_ne]
    rw [hleft, hfile, hnone] at hread
    cases hread
  · -- which is a file on the way to the second one
    obtain ⟨blob, hblob⟩ := blob_of_map h hfirst hqkey hq [1]
    obtain ⟨tmp', side', hsiblings'⟩ := exists_siblings hqne
    have hshort : side.length < q.length := by
      rcases Nat.lt_or_ge side.length q.length with hlt | hge
      · exact hlt
      · exact absurd (hway.eq_of_length (le_antisymm hway.length_le hge)) hsame
    have htmp : side ≠ tmp' := by
      rintro rfl
      have hlength := hsiblings'.length.1
      omega
    have hside : side ≠ side' := by
      rintro rfl
      have hlength := hsiblings'.length.2
      omega
    have hkept : ((new.afterPut (asPosix p) p [2]).afterPut (asPosix q) q [1]).disk.read side =
        some file := by
      rw [← hfile, ← hleft]
      exact (put_left [1] "" 0 hqkey hsiblings').1 side hsame htmp hside
    rw [Tree.read_of_isDir (isDir_of_read hblob hway hsame)] at hkept
    cases hkept

/-- **Collision with a temporary file.**  No key leads to that of another, or below it. -/
theorem tmp_not_map (h : AlwaysReads S) {p q tmp side : Path} (hp : p ∈ S) (hq : q ∈ S)
    (hpne : p ≠ []) (hsiblings : Siblings p tmp side) : ¬ tmp <+: q := by
  intro hway
  have hqne : q ≠ [] := by
    rintro rfl
    exact hsiblings.tmp_parent.1 (List.prefix_nil.mp hway)
  have hpq : p ≠ q := by
    rintro rfl
    exact hsiblings.tmp_ne (hway.eq_of_length hsiblings.length.1)
  have hpkey := resolve_asPosix hpne
  have hqkey := resolve_asPosix hqne
  have hfirst := reach_afterPut (reach_new (S := S)) hqkey hq [1]
  have hsecond := reach_afterPut hfirst hpkey hp [2]
  obtain ⟨blob, hblob⟩ := blob_of_map h hfirst hpkey hp [2]
  rcases (put_left [2] "" 0 hpkey hsiblings).2 with hsame | ⟨hmoved, hdir⟩
  · -- the blob was not written
    have hread := read_of_readsAs (h _ hfirst) hpkey hp
    have hnone : (new.afterPut (asPosix q) q [1]).contents p = none := by
      simp [afterPut, new, Function.update_of_ne hpq]
    rw [hnone, ← hsame] at hread
    rw [show Tree.read (left (Disk.put (new.afterPut (asPosix q) q [1]).disk _ _ _ _)) p =
      some blob from hblob] at hread
    cases hread
  · -- it was, and took what the other key leads to, or lies below
    have hread := read_of_readsAs (h _ hsecond) hqkey hq
    have hother : ((new.afterPut (asPosix q) q [1]).afterPut (asPosix p) p [2]).contents q =
        some [1] := by
      simp [afterPut, Function.update_of_ne (Ne.symm hpq)]
    rw [hother] at hread
    obtain ⟨file, hfile, -⟩ := Option.map_eq_some_iff.mp hread
    by_cases hsame : tmp = q
    · subst hsame
      have hnone := hmoved.symm.trans hfile
      cases hnone
    · have htrue := isDir_of_read hfile hway hsame
      have hboth := hdir.symm.trans htrue
      cases hboth

end StoredMap

/-- **Names with room.**  On a set of paths none of which leads through another, the
storage reads as a map of the keys exactly when the set is free of siblings. -/
theorem readsAs_iff {S : Set Path} (hpaths : PrefixFree S) : AlwaysReads S ↔ SiblingFree S := by
  constructor
  · intro h
    have hroot := StoredMap.root_not_map h
    refine ⟨hroot, ?_⟩
    intro p hp q hq x hx
    have hpne : p ≠ [] := by
      rintro rfl
      exact hroot hp
    obtain ⟨tmp, side, hsiblings⟩ := Disk.exists_siblings hpne
    rcases hsiblings.of_isSibling hx with rfl | rfl
    · exact StoredMap.tmp_not_map h hp hq hpne hsiblings
    · exact StoredMap.sidecar_not_map h hp hq hpne hsiblings
  · intro hfree s hreach
    have hheld : StoredMap.Held S s :=
      hreach.invariant (fun s hfresh => StoredMap.held_of_fresh hfree hfresh)
        (fun s a t hs hok hstep => hs.step hpaths hfree hok hstep)
    exact hheld.readsAs

end ChallengeForge
