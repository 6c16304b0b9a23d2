import ChallengeForge.Reconciliation
import ChallengeForge.StorageMap

/-!
# What reconciliation reclaims

After a scan at a time when every blob is past the grace window, what is left
below `submissions/` should be referenced, and the next scan should find nothing
to do.  The second is so on every disk.  The first is not: the listing leaves out
the names that end like a sidecar or a temporary file, and the name of a blob ends
like the upload's own file name.

* `reconcileOrphans_twice` — the second of two scans deletes nothing;
* `orphans_reclaimed_iff` — every orphan goes just when no hidden blob is one;
* `orphans_reclaimed_fails` — the upload of `data.tmp` stays.
-/

namespace ChallengeForge

open Directory Labelled

namespace Disk

/-! ## The second scan -/

section Twice

variable {refs : List String} {graceSeconds clock : Rat}

/-- Looking up the references deletes nothing. -/
theorem deleted_checkReferences (disk : Disk) (keys : List String) (report : ReconcileReport) :
    (keys.foldl (checkReference disk) report).deleted = report.deleted := by
  induction keys generalizing report with
  | nil => rfl
  | cons key rest ih =>
      rw [List.foldl_cons, ih]
      unfold checkReference
      split <;> rfl

/-- A listed key that is not reclaimed is passed over. -/
theorem reconcileKey_passes {disk : Disk} (report : ReconcileReport) {path : Path}
    (hpath : path ≠ []) (hkept : ¬ Reclaimed refs graceSeconds clock disk path) :
    ∃ report', reconcileKey refs graceSeconds clock true (disk, report) (asPosix path) =
        .ok (disk, report') ∧ report'.deleted = report.deleted := by
  by_cases href : asPosix path ∈ refs
  · exact ⟨{ report with scanned := report.scanned + 1 }, by simp [reconcileKey, href], rfl⟩
  · have hyoung : young graceSeconds clock ((disk.read path).map StoredFile.mtime) = true := by
      by_contra hold
      exact hkept ⟨href, by simpa using hold⟩
    have hmtime : mtime disk (asPosix path) = .ok ((disk.read path).map StoredFile.mtime) := by
      rw [mtime, resolve_asPosix hpath]
      rfl
    refine ⟨{ report with
      scanned := report.scanned + 1
      orphanCandidates := report.orphanCandidates + 1
      skippedYoung := report.skippedYoung ++ [asPosix path] }, ?_, rfl⟩
    rw [reconcileKey, if_neg href, reconcileOrphan, hmtime]
    simp [bind, Except.bind, hyoung, pure, Except.pure]

/-- A scan that reclaims nothing leaves the disk as it is. -/
theorem foldlM_reconcileKey_passes {disk : Disk} (report : ReconcileReport) (paths : List Path)
    (hkept : ∀ path ∈ paths, path ≠ [] ∧ ¬ Reclaimed refs graceSeconds clock disk path) :
    ∃ report', (paths.map asPosix).foldlM (reconcileKey refs graceSeconds clock true)
        (disk, report) = .ok (disk, report') ∧ report'.deleted = report.deleted := by
  induction paths generalizing report with
  | nil => exact ⟨report, rfl, rfl⟩
  | cons path rest ih =>
      have hfirst := hkept path (by simp)
      obtain ⟨mid, hone, hmid⟩ := reconcileKey_passes report hfirst.1 hfirst.2
      obtain ⟨report', hall, hreport'⟩ :=
        ih mid (fun p hp => hkept p (List.mem_cons_of_mem _ hp))
      refine ⟨report', ?_, hreport'.trans hmid⟩
      rw [List.map_cons, List.foldlM_cons, hone]
      exact hall

/-- A staged file that stays. -/
def StaysStaged (graceSeconds clock : Rat) (path : Path) (file : StoredFile) : Prop :=
  ∀ name ∈ path.getLast?, endsWith name.text ".meta" = true ∨ clock - file.mtime < graceSeconds

theorem read_of_unlinkStaged {disk : Disk} {path q : Path} {file : StoredFile}
    (h : (unlinkStaged disk path).read q = some file) :
    q ≠ path ∧ disk.read q = some file := by
  have hone : (unlinkFile disk path).1.read q = some file := by
    unfold unlinkStaged at h
    split at h
    · rw [read_unlinkFile] at h
      split at h
      · cases h
      · exact h
    · exact h
  rw [read_unlinkFile] at hone
  split at hone
  · cases hone
  · exact ⟨by assumption, hone⟩

/-- One path of the staging area: nothing is added, and it is left only if it stays. -/
theorem cleanupFile_read {state : Disk × List Name} {path q : Path} {file : StoredFile}
    (h : (cleanupFile graceSeconds clock state path).1.read q = some file) :
    state.1.read q = some file ∧ (q = path → StaysStaged graceSeconds clock path file) := by
  unfold cleanupFile at h
  split at h
  · rename_i found name hfound hname
    split at h
    · rename_i hstays
      refine ⟨h, ?_⟩
      rintro rfl
      obtain rfl : found = file := Option.some.inj (hfound.symm.trans h)
      intro other hother
      obtain rfl : name = other := Option.some.inj (hname.symm.trans hother)
      exact hstays
    · obtain ⟨hne, hread⟩ := read_of_unlinkStaged h
      exact ⟨hread, fun hsame => absurd hsame hne⟩
  · rename_i hnone
    refine ⟨h, ?_⟩
    rintro rfl name hname
    exact absurd hname (hnone file name h)

theorem cleanupFile_stays {state : Disk × List Name} {path : Path}
    (h : ∀ file, state.1.read path = some file → StaysStaged graceSeconds clock path file) :
    cleanupFile graceSeconds clock state path = state := by
  unfold cleanupFile
  split
  · rename_i file name hfile hname
    rw [if_pos (h file hfile name hname)]
  · rfl

/-- What the cleaning leaves in the staging area, it leaves the next time. -/
theorem cleanupIncoming_leaves (disk : Disk) (incomingRoot : Name) {q : Path}
    {file : StoredFile} (hq : q.dropLast = [incomingRoot])
    (h : (cleanupIncoming disk incomingRoot graceSeconds clock).1.read q = some file) :
    StaysStaged graceSeconds clock q file := by
  have hall : ∀ (paths : List Path) (state : Disk × List Name),
      (paths.foldl (cleanupFile graceSeconds clock) state).1.read q = some file →
      state.1.read q = some file ∧ (q ∈ paths → StaysStaged graceSeconds clock q file) := by
    intro paths
    induction paths with
    | nil => exact fun state hread => ⟨hread, fun hnone => absurd hnone (by simp)⟩
    | cons path rest ih =>
        intro state hread
        obtain ⟨hmid, hrest⟩ := ih _ hread
        obtain ⟨hstart, hfirst⟩ := cleanupFile_read hmid
        refine ⟨hstart, ?_⟩
        intro hmem
        rcases List.mem_cons.mp hmem with rfl | hlater
        · exact hfirst rfl
        · exact hrest hlater
  obtain ⟨hstart, hstays⟩ := hall _ (disk, []) h
  apply hstays
  have hpath : [incomingRoot] <+: q ∧ q ≠ [incomingRoot] := by
    refine ⟨hq ▸ List.dropLast_prefix q, ?_⟩
    rintro rfl
    cases hq
  rw [List.mem_filter, Tree.mem_files]
  exact ⟨⟨hpath.1, hpath.2, file, hstart⟩, by simpa using hq⟩

theorem cleanupIncoming_stays {disk : Disk} {incomingRoot : Name}
    (h : ∀ q file, q.dropLast = [incomingRoot] → disk.read q = some file →
      StaysStaged graceSeconds clock q file) :
    cleanupIncoming disk incomingRoot graceSeconds clock = (disk, []) := by
  have hall : ∀ paths : List Path, (∀ path ∈ paths, path.dropLast = [incomingRoot]) →
      paths.foldl (cleanupFile graceSeconds clock) (disk, []) = (disk, []) := by
    intro paths hpaths
    induction paths with
    | nil => rfl
    | cons path rest ih =>
        rw [List.foldl_cons, cleanupFile_stays (fun file => h path file (hpaths path (by simp)))]
        exact ih (fun p hp => hpaths p (List.mem_cons_of_mem _ hp))
  exact hall _ (fun path hpath => by simpa using (List.mem_filter.mp hpath).2)

/-- The staging area is cleaned by the first of two cleanings. -/
theorem reclaimStaging_twice (disk : Disk) (report report' : ReconcileReport) :
    (reclaimStaging (reclaimStaging disk report graceSeconds clock).1 report'
      graceSeconds clock).2.deleted = report'.deleted := by
  cases hmade : disk.mkdirs [] [incoming] with
  | none =>
      have hfirst : (reclaimStaging disk report graceSeconds clock).1 = disk := by
        rw [reclaimStaging, hmade]
      rw [hfirst, reclaimStaging, hmade]
  | some made =>
      have hfirst : (reclaimStaging disk report graceSeconds clock).1 =
          (cleanupIncoming made incoming graceSeconds clock).1 := by
        rw [reclaimStaging, hmade]
      rw [hfirst, reclaimStaging]
      split
      · rfl
      · rename_i again hagain
        have hclean : cleanupIncoming again incoming graceSeconds clock = (again, []) := by
          apply cleanupIncoming_stays
          intro q file hq hread
          rw [Tree.read_mkdirs hagain] at hread
          exact cleanupIncoming_leaves made incoming hq hread
        rw [hclean]
        simp

/-- **Twice.**  A second reconciliation at the same time deletes nothing. -/
theorem reconcileOrphans_twice (disk : Disk) (referencedKeys : List String)
    (graceSeconds clock : Rat) :
    ∃ disk₁ report₁ disk₂ report₂,
      reconcileOrphans disk referencedKeys "submissions/" graceSeconds clock true =
        .ok (disk₁, report₁) ∧
      reconcileOrphans disk₁ referencedKeys "submissions/" graceSeconds clock true =
        .ok (disk₂, report₂) ∧
      report₂.deleted = [] ∧
      ∀ q : Path, q.head? ≠ some incoming → disk₁.read q =
        if ∃ path ∈ iterPaths disk [submissionsDir],
            Reclaimed (references referencedKeys) graceSeconds clock disk path ∧ GoesWith path q
          then none
        else disk.read q := by
  obtain ⟨mid, report, hscan, hread⟩ := foldlM_reconcileKey (references referencedKeys)
    graceSeconds clock (iterPaths disk [submissionsDir]) disk
    ((references referencedKeys).foldl (checkReference disk)
      ⟨0, (references referencedKeys).length, 0, [], [], [], []⟩)
    ((Tree.nodup_files _).filter _)
    (fun path hpath => ⟨ne_nil_of_mem_iterPaths hpath, (mem_iterPaths.mp hpath).2⟩)
  generalize hfirst : (reclaimStaging mid report graceSeconds clock).1 = disk₁
  have hleft : ∀ q : Path, q.head? ≠ some incoming → disk₁.read q =
      if ∃ path ∈ iterPaths disk [submissionsDir],
          Reclaimed (references referencedKeys) graceSeconds clock disk path ∧ GoesWith path q
        then none
      else disk.read q := by
    intro q hq
    rw [← hfirst, reclaimStaging_read mid report hq, hread q]
  -- a path the second scan lists was listed by the first one, and spared
  have hspared : ∀ path ∈ iterPaths disk₁ [submissionsDir],
      path ≠ [] ∧ ¬ Reclaimed (references referencedKeys) graceSeconds clock disk₁ path := by
    intro path hpath
    have hlisted := mem_iterPaths.mp hpath
    obtain ⟨⟨hbase, hne, file, hfile⟩, hshown⟩ := hlisted
    have hhead : path.head? ≠ some incoming := by
      obtain ⟨rest, rfl⟩ := hbase
      simp
      decide +kernel
    have hkept := hleft path hhead
    rw [hfile] at hkept
    split at hkept
    · cases hkept
    · rename_i hnone
      refine ⟨ne_nil_of_mem_iterPaths hpath, ?_⟩
      intro hgone
      refine hnone ⟨path, mem_iterPaths.mpr ⟨⟨hbase, hne, file, hkept.symm⟩, hshown⟩, ?_,
        Or.inl rfl⟩
      exact (reclaimed_congr (hfile.trans hkept)).mp hgone
  obtain ⟨report', hsecond, hreport'⟩ := foldlM_reconcileKey_passes
    ((references referencedKeys).foldl (checkReference disk₁)
      ⟨0, (references referencedKeys).length, 0, [], [], [], []⟩) _ hspared
  refine ⟨disk₁, (reclaimStaging mid report graceSeconds clock).2,
    (reclaimStaging disk₁ report' graceSeconds clock).1,
    (reclaimStaging disk₁ report' graceSeconds clock).2, ?_, ?_, ?_, hleft⟩
  · rw [← hfirst]
    exact reconcileOrphans_of_scan hscan
  · exact reconcileOrphans_of_scan hsecond
  · rw [← hfirst, reclaimStaging_twice, hreport', deleted_checkReferences]

end Twice

end Disk

/-! ## The blobs of uploads -/

/-- The paths the keys lead to. -/
def keyPaths (keys : Set ArtifactKey) : Set Path :=
  {p | ∃ key ∈ keys, Disk.resolve key.path = .ok p}

/-- Every upload got a `uuid4()` of its own. -/
def DistinctUploads (keys : Set ArtifactKey) : Prop :=
  ∀ key ∈ keys, ∀ other ∈ keys, uuidText key.uploadId = uuidText other.uploadId → key = other

/-- Blobs are published under the keys, from uploads staged in `.incoming`. -/
def publishing (keys : Set ArtifactKey) : Condition StoredMap StorageCall
  | _, .put key _ _ _ | _, .delete key => ∃ built ∈ keys, key = built.path
  | _, .putFromPath key source _ _ =>
      (∃ built ∈ keys, key = built.path) ∧ source.head? = some Disk.incoming
  | _, .stage source _ _ => source.head? = some Disk.incoming

/-- A key among the referenced ones leads to the path. -/
def Referenced (referencedKeys : List String) (p : Path) : Prop :=
  ∃ key ∈ referencedKeys, Disk.resolve key = .ok p

namespace Disk

/-- The text of an upload's id, in the path of its blob. -/
def uploadText (p : Path) : Option (List Char) := (p[3]?).map (fun name => name.text.take 36)

theorem uploadText_of_resolve {key : ArtifactKey} {p : Path} (h : resolve key.path = .ok p) :
    uploadText p = some (uuidText key.uploadId).toList := by
  obtain ⟨first, rest, hsplit⟩ :=
    List.exists_cons_of_ne_nil (List.splitOn_ne_nil '/' key.suffix.toList)
  have hkept : ∀ id, ∀ text : List Char,
      (uuidText id).toList ++ text ≠ [] ∧ (uuidText id).toList ++ text ≠ ['.'] := by
    intro id text
    have hlength := length_uuidText id
    constructor <;> intro hsame <;>
      · have hshort := congrArg List.length hsame
        simp only [List.length_append, List.length_cons, List.length_nil] at hshort
        omega
  have hbare : ∀ id, (uuidText id).toList ≠ [] ∧ (uuidText id).toList ≠ ['.'] := by
    intro id
    simpa using hkept id []
  have hkeep : ∀ part ∈ ["submissions".toList, (uuidText key.challengeId).toList,
      (uuidText key.actorId).toList, (uuidText key.uploadId).toList ++ first],
      decide (part ≠ [] ∧ part ≠ ['.']) = true := by
    intro part hpart
    rw [decide_eq_true_eq]
    simp only [List.mem_cons, List.not_mem_nil, or_false] at hpart
    rcases hpart with h | h | h | h <;> rw [h]
    · decide +kernel
    · exact hbare _
    · exact hbare _
    · exact hkept _ _
  have htexts := text_of_resolve h
  rw [pathParts, splitOn_path key hsplit, List.filter_append, List.filter_eq_self.mpr hkeep]
    at htexts
  have hfourth : (p.map Name.text)[3]? = some ((uuidText key.uploadId).toList ++ first) := by
    rw [htexts]
    rfl
  rw [List.getElem?_map] at hfourth
  obtain ⟨name, hname, htext⟩ := Option.map_eq_some_iff.mp hfourth
  rw [uploadText, hname, Option.map_some, htext, ← length_uuidText key.uploadId, List.take_left]

theorem uploadText_of_prefix {p q : Path} {text : List Char} (hway : p <+: q)
    (h : uploadText p = some text) : uploadText q = some text := by
  obtain ⟨name, hname, htext⟩ := Option.map_eq_some_iff.mp h
  obtain ⟨rest, rfl⟩ := hway
  have hshort := (List.getElem?_eq_some_iff.mp hname).1
  rw [uploadText, List.getElem?_append_left hshort, hname, Option.map_some, htext]

/-- The siblings of a blob carry its id. -/
theorem uploadText_of_isSibling {p x : Path} {text : List Char} (hside : IsSibling p x)
    (h : uploadText p = some text) (hlength : text.length = 36) : uploadText x = some text := by
  have hgrown : ∃ dir name renamed ext, p = dir ++ [name] ∧ x = dir ++ [renamed] ∧
      renamed.text = name.text ++ ext := by
    have hp : p ≠ [] := by
      rintro rfl
      cases h
    obtain ⟨dir, name, rfl⟩ := exists_concat hp
    rcases hside with htmp | hsidecar
    · obtain ⟨renamed, hsome, htext⟩ := sibling_concat tmp_extension dir name
      exact ⟨dir, name, renamed, _, rfl, Option.some.inj (htmp.symm.trans hsome), htext⟩
    · obtain ⟨renamed, hsome, htext⟩ := sibling_concat sidecar_extension dir name
      exact ⟨dir, name, renamed, _, rfl, Option.some.inj (hsidecar.symm.trans hsome), htext⟩
  obtain ⟨dir, name, renamed, ext, rfl, rfl, htext⟩ := hgrown
  rcases Nat.lt_trichotomy dir.length 3 with hshort | hlast | hlong
  · -- the path has no fourth name
    have hnone : uploadText (dir ++ [name]) = none := by
      rw [uploadText, List.getElem?_eq_none (by simp; omega), Option.map_none]
    rw [hnone] at h
    cases h
  · -- the fourth name is the last one, which has grown at its end
    have hfourth : ∀ last : Name, uploadText (dir ++ [last]) = some (last.text.take 36) := by
      intro last
      rw [uploadText, ← hlast, List.getElem?_concat_length, Option.map_some]
    rw [hfourth] at h ⊢
    have htake := Option.some.inj h
    have henough : 36 ≤ name.text.length := by
      rw [← htake, List.length_take] at hlength
      omega
    rw [htext, List.take_append_of_le_length henough, htake]
  · have hsame : ∀ last : Name, uploadText (dir ++ [last]) = uploadText dir := by
      intro last
      rw [uploadText, uploadText, List.getElem?_append_left hlong]
    rw [hsame] at h ⊢
    exact h

end Disk

section Keys

open Disk

variable {keys : Set ArtifactKey} {p q x : Path}

/-- Two paths that carry one id are one path. -/
theorem DistinctUploads.eq (hown : DistinctUploads keys) (hp : p ∈ keyPaths keys)
    (hq : q ∈ keyPaths keys) (h : ∀ text, uploadText p = some text → uploadText q = some text) :
    p = q := by
  obtain ⟨key, hkey, hpath⟩ := hp
  obtain ⟨other, hother, hpath'⟩ := hq
  have hsame := h _ (uploadText_of_resolve hpath)
  rw [uploadText_of_resolve hpath'] at hsame
  obtain rfl : key = other :=
    hown key hkey other hother (String.toList_injective (Option.some.inj hsame).symm)
  rw [hpath] at hpath'
  exact Except.ok.inj hpath'

theorem prefixFree_keyPaths (hown : DistinctUploads keys) : PrefixFree (keyPaths keys) :=
  fun _ hp _ hq hway => hown.eq hp hq (fun _ htext => uploadText_of_prefix hway htext)

theorem siblingFree_keyPaths (hown : DistinctUploads keys) : SiblingFree (keyPaths keys) where
  root := by
    rintro ⟨key, _, hpath⟩
    have htext := uploadText_of_resolve hpath
    cases htext
  siblings p hp q hq side hside hway := by
    have hlength : ∀ text, uploadText p = some text → text.length = 36 := by
      obtain ⟨key, _, hpath⟩ := hp
      intro text htext
      rw [uploadText_of_resolve hpath] at htext
      rw [← Option.some.inj htext, length_uuidText]
    obtain rfl : p = q := hown.eq hp hq (fun text htext =>
      uploadText_of_prefix hway (uploadText_of_isSibling hside htext (hlength text htext)))
    have hpne : p ≠ [] := by
      rintro rfl
      rcases hside with h | h <;> cases h
    obtain ⟨tmp, beside, hsiblings⟩ := exists_siblings hpne
    rcases hsiblings.of_isSibling hside with rfl | rfl
    · exact hsiblings.tmp_ne (hway.eq_of_length hsiblings.length.1)
    · exact hsiblings.side_ne (hway.eq_of_length hsiblings.length.2)

/-- A key and its siblings lie below `submissions/`. -/
theorem head_of_key (hp : p ∈ keyPaths keys) (hx : x = p ∨ IsSibling p x) :
    x.head? = some submissionsDir := by
  obtain ⟨key, _, hpath⟩ := hp
  obtain ⟨⟨rest, rfl⟩, hne, _⟩ := below_submissions hpath
  rcases hx with rfl | hside
  · rfl
  · obtain ⟨tmp, side, hsiblings⟩ := exists_siblings (p := [submissionsDir] ++ rest) (by simp)
    have hdir : ([submissionsDir] ++ rest).dropLast.head? = some submissionsDir := by
      cases rest with
      | nil => exact absurd rfl hne
      | cons name rest => rfl
    have hparent : x ≠ [] ∧ x.dropLast = ([submissionsDir] ++ rest).dropLast := by
      rcases hsiblings.of_isSibling hside with rfl | rfl
      · exact hsiblings.tmp_parent
      · exact hsiblings.side_parent
    obtain ⟨dir, name, rfl⟩ := exists_concat hparent.1
    rw [← hparent.2, List.dropLast_concat] at hdir
    rw [List.head?_append, hdir]
    rfl

/-- Paths that start differently are apart. -/
theorem Apart.of_head {a b : Name} (hp : p.head? = some a) (hq : q.head? = some b)
    (hne : a ≠ b) : Apart p q := by
  obtain ⟨rest, rfl⟩ := List.head?_eq_some_iff.mp hp
  obtain ⟨rest', rfl⟩ := List.head?_eq_some_iff.mp hq
  constructor <;> intro hway
  · exact hne (List.cons_prefix_cons.mp hway).1
  · exact hne (List.cons_prefix_cons.mp hway).1.symm

theorem staging_incoming (h : q.head? = some incoming) : Staging (keyPaths keys) q := by
  have hne : incoming ≠ submissionsDir := by decide +kernel
  intro p hp
  exact ⟨.of_head h (head_of_key hp (Or.inl rfl)) hne,
    fun side hside => .of_head h (head_of_key hp (Or.inr hside)) hne⟩

theorem callsOn_of_publishing {s : StoredMap} {a : StorageCall} (h : publishing keys s a) :
    callsOn (keyPaths keys) s a := by
  have hkey : ∀ text, (∃ built ∈ keys, text = ArtifactKey.path built) →
      ∀ p, resolve text = .ok p → p ∈ keyPaths keys := by
    rintro text ⟨built, hbuilt, rfl⟩ p hp
    exact ⟨built, hbuilt, hp⟩
  cases a with
  | put key data contentType now => exact hkey key h
  | putFromPath key source contentType now => exact ⟨hkey key h.1, staging_incoming h.2⟩
  | delete key => exact hkey key h
  | stage source data now => exact staging_incoming h

end Keys

/-! ## The orphans -/

/-- After a reconciliation every blob left is referenced, and the next one deletes
nothing. -/
def ReclaimsOrphans (keys : Set ArtifactKey) (disk : Disk) (referencedKeys : List String)
    (graceSeconds clock : Rat) : Prop :=
  ∃ disk₁ report₁ disk₂ report₂,
    Disk.reconcileOrphans disk referencedKeys "submissions/" graceSeconds clock true =
      .ok (disk₁, report₁) ∧
    Disk.reconcileOrphans disk₁ referencedKeys "submissions/" graceSeconds clock true =
      .ok (disk₂, report₂) ∧
    (∀ p ∈ keyPaths keys, disk₁.isFile p = true → Referenced referencedKeys p) ∧
    report₂.deleted = []

section Orphans

open Disk

variable {keys : Set ArtifactKey} {s : StoredMap}

theorem held_of_publishing (hown : DistinctUploads keys)
    (hs : storedMap.Reach (publishing keys) s) : StoredMap.Held (keyPaths keys) s :=
  hs.invariant (fun _ hfresh => StoredMap.held_of_fresh (siblingFree_keyPaths hown) hfresh)
    (fun _ _ _ h hok hstep => h.step (prefixFree_keyPaths hown) (siblingFree_keyPaths hown)
      (callsOn_of_publishing hok) hstep)

/-- **What lies below `submissions/`.**  Every file there is a blob, or hidden. -/
theorem blob_or_hidden (hown : DistinctUploads keys)
    (hs : storedMap.Reach (publishing keys) s) :
    ∀ q : Path, q.head? = some submissionsDir → s.disk.isFile q = true →
      q ∈ keyPaths keys ∨ hidden q = true := by
  refine hs.induct (P := fun s => ∀ q : Path, q.head? = some submissionsDir →
    s.disk.isFile q = true → q ∈ keyPaths keys ∨ hidden q = true) ?_ ?_
  · intro s hfresh q _ hfile
    rw [hfresh.1, isFile_empty] at hfile
    cases hfile
  · intro s a t hreach ih hok hstep q hhead hfile
    have hheld := held_of_publishing hown hreach
    cases hheld.effect (siblingFree_keyPaths hown) (callsOn_of_publishing hok) hstep with
    | published hp hsiblings hsource hdisk _ =>
        rcases hdisk.isFile hfile with hold | rfl | rfl
        · exact ih q hhead hold
        · exact Or.inl hp
        · right
          obtain ⟨side, hsome, hhidden⟩ := sidecar_hidden (hheld.room
            (siblingFree_keyPaths hown) hp).ne_nil
          rwa [← Option.some.inj (hsiblings.sidecar.symm.trans hsome)] at hhidden
    | missing _ hread _ _ =>
        rw [Tree.isFile, hread] at hfile
        exact ih q hhead hfile
    | deleted hkey _ hdelete _ =>
        obtain ⟨disk', removed', hspec, hread⟩ := delete_spec s.disk hkey
        rw [hdelete] at hspec
        obtain ⟨hsame, -⟩ := Prod.mk.inj (Except.ok.inj hspec)
        rw [Tree.isFile, hsame, hread] at hfile
        split at hfile
        · cases hfile
        · exact ih q hhead hfile
    | @staged source _ _ _ hread _ _ =>
        have hother : q ≠ source := by
          rintro rfl
          rw [hok] at hhead
          exact absurd hhead (by decide +kernel)
        rw [Tree.isFile, hread q hother] at hfile
        exact ih q hhead hfile

/-- A hidden blob stays: it is not listed, and is no sidecar of what is. -/
theorem hidden_blob_stays (hown : DistinctUploads keys)
    (hs : storedMap.Reach (publishing keys) s) {refs : List String} {graceSeconds clock : Rat}
    {p : Path} (hp : p ∈ keyPaths keys) (hhidden : hidden p = true) :
    ¬ ∃ path ∈ iterPaths s.disk [submissionsDir],
      Reclaimed refs graceSeconds clock s.disk path ∧ GoesWith path p := by
  rintro ⟨path, hpath, -, hgoes⟩
  obtain ⟨⟨hbase, _, file, hfile⟩, hshown⟩ := mem_iterPaths.mp hpath
  rcases hgoes with rfl | hside
  · rw [hhidden] at hshown
    cases hshown
  · have hhead : path.head? = some submissionsDir := by
      obtain ⟨rest, rfl⟩ := hbase
      rfl
    rcases blob_or_hidden hown hs path hhead (Tree.isFile_eq_true_iff.mpr ⟨file, hfile⟩) with
      hblob | hnot
    · exact (siblingFree_keyPaths hown).siblings path hblob p hp p (Or.inr hside)
        (List.prefix_refl p)
    · rw [hnot] at hshown
      cases hshown

/-- What is left unreferenced is left unreclaimed. -/
theorem referenced_of_reclaims (hown : DistinctUploads keys)
    (hs : storedMap.Reach (publishing keys) s) {referencedKeys : List String}
    {graceSeconds clock : Rat}
    (h : ReclaimsOrphans keys s.disk referencedKeys graceSeconds clock) {p : Path}
    (hp : p ∈ keyPaths keys) (hhidden : hidden p = true) (hfile : s.disk.isFile p = true) :
    Referenced referencedKeys p := by
  obtain ⟨disk₁, report₁, _, _, hfirst, _, hleft, _⟩ := h
  obtain ⟨disk', report', hrun, hread⟩ :=
    reconcileOrphans_spec s.disk referencedKeys graceSeconds clock
  rw [hrun] at hfirst
  obtain ⟨rfl, -⟩ := Prod.mk.inj (Except.ok.inj hfirst)
  have houtside : p.head? ≠ some incoming := by
    obtain ⟨key, _, hpath⟩ := hp
    exact (below_submissions hpath).2.2
  apply hleft p hp
  rw [Tree.isFile, hread p houtside, if_neg (hidden_blob_stays hown hs hp hhidden)]
  exact hfile

end Orphans

/-- **Every orphan is reclaimed.**  For blobs published under the keys of uploads,
any references and any time when all blobs are past the grace window: what
reconciliation leaves is referenced, and a second call deletes nothing, exactly
when no orphan has a name the listing hides. -/
theorem orphans_reclaimed_iff (keys : Set ArtifactKey) (hown : DistinctUploads keys)
    (s : StoredMap) (hs : storedMap.Reach (publishing keys) s) (referencedKeys : List String)
    (graceSeconds clock : Rat)
    (hold : ∀ p ∈ keyPaths keys, ∀ file, s.disk.read p = some file →
      graceSeconds ≤ clock - file.mtime) :
    ReclaimsOrphans keys s.disk referencedKeys graceSeconds clock ↔
      ∀ p ∈ keyPaths keys, Disk.hidden p = true → s.disk.isFile p = true →
        Referenced referencedKeys p := by
  constructor
  · intro h p hp hhidden hfile
    exact referenced_of_reclaims hown hs h hp hhidden hfile
  · intro hall
    obtain ⟨disk₁, report₁, disk₂, report₂, hfirst, hsecond, hnothing, hread⟩ :=
      Disk.reconcileOrphans_twice s.disk referencedKeys graceSeconds clock
    refine ⟨disk₁, report₁, disk₂, report₂, hfirst, hsecond, ?_, hnothing⟩
    intro p hp hfile
    obtain ⟨key, hkey, hpath⟩ := hp
    obtain ⟨hbase, hne, houtside⟩ := Disk.below_submissions hpath
    rw [Tree.isFile, hread p houtside] at hfile
    split at hfile
    · cases hfile
    rename_i hspared
    by_cases hhidden : Disk.hidden p = true
    · exact hall p ⟨key, hkey, hpath⟩ hhidden hfile
    -- a listed path that was spared is old, so it is referenced
    obtain ⟨file, hstored⟩ := Tree.isFile_eq_true_iff.mp hfile
    have hlisted : p ∈ Disk.iterPaths s.disk [Disk.submissionsDir] :=
      Disk.mem_iterPaths.mpr ⟨⟨hbase, hne, file, hstored⟩, by simpa using hhidden⟩
    have hyoung : Disk.young graceSeconds clock ((s.disk.read p).map StoredFile.mtime) = false := by
      have hage := hold p ⟨key, hkey, hpath⟩ file hstored
      rw [hstored]
      exact decide_eq_false (Rat.not_lt.mpr hage)
    have hmem : asPosix p ∈ Disk.references referencedKeys := by
      by_contra hnot
      exact hspared ⟨p, hlisted, ⟨hnot, hyoung⟩, Or.inl rfl⟩
    exact ⟨asPosix p, (Disk.mem_references.mp hmem).1,
      Disk.resolve_asPosix (Disk.ne_nil_of_mem_iterPaths hlisted)⟩

/-! ## One upload -/

theorem distinctUploads_singleton (key : ArtifactKey) : DistinctUploads {key} := by
  rintro _ rfl _ rfl _
  rfl

/-- One blob, published at the time 0. -/
theorem publish_one (key : ArtifactKey) {p : Path} (hpath : Disk.resolve key.path = .ok p) :
    ∃ s, storedMap.Reach (publishing {key}) s ∧ s.disk.read p = some ⟨[1], 0⟩ := by
  have hpne : p ≠ [] := by
    rintro rfl
    exact (siblingFree_keyPaths (distinctUploads_singleton key)).root ⟨key, rfl, hpath⟩
  obtain ⟨tmp, side, hsiblings⟩ := Disk.exists_siblings hpne
  obtain ⟨disk, hput, -⟩ :=
    Disk.put_eq_ok [1] "" 0 hpath (Disk.room_empty hpne) hsiblings
  refine ⟨StoredMap.new.afterPut key.path p [1], ?_, ?_⟩
  · have hok : publishing {key} StoredMap.new (.put key.path [1] "" 0) := ⟨key, rfl, rfl⟩
    have hnew : storedMap.Reach (publishing {key}) StoredMap.new :=
      .of_start ⟨rfl, fun _ => rfl⟩
    exact hnew.snoc hok (StoredMap.step_put _ hpath [1])
  · obtain ⟨p', hp', hread⟩ := Disk.read_put hput
    rw [hpath] at hp'
    obtain rfl := Except.ok.inj hp'
    rw [StoredMap.disk_afterPut, show StoredMap.new.disk = Tree.empty from rfl, hput]
    exact hread

/-- The orphan `report.txt` is reclaimed. -/
theorem orphans_reclaimed_report :
    ∃ s, storedMap.Reach (publishing {Disk.reportKey}) s ∧
      ReclaimsOrphans {Disk.reportKey} s.disk [] 60 1000 := by
  have hshown : (Disk.resolve Disk.reportKey.path).toOption.map Disk.hidden = some false := by
    decide +kernel
  cases hpath : Disk.resolve Disk.reportKey.path with
  | error e =>
      rw [hpath] at hshown
      cases hshown
  | ok p =>
      rw [hpath] at hshown
      obtain ⟨s, hs, hread⟩ := publish_one Disk.reportKey hpath
      have honly : ∀ q ∈ keyPaths {Disk.reportKey}, q = p := by
        rintro q ⟨_, rfl, hq⟩
        rw [hpath] at hq
        exact (Except.ok.inj hq).symm
      refine ⟨s, hs, ?_⟩
      refine (orphans_reclaimed_iff _ (distinctUploads_singleton _) s hs [] 60 1000 ?_).mpr ?_
      · intro q hq file hfile
        obtain rfl := honly q hq
        obtain rfl := Option.some.inj (hread.symm.trans hfile)
        decide +kernel
      · intro q hq hhidden _
        obtain rfl := honly q hq
        rw [Option.some.inj hshown] at hhidden
        cases hhidden

/-- The upload `data.tmp` of participant 2 to challenge 1. -/
def dataKey : ArtifactKey :=
  ⟨1, 2, 3, artifactSuffix (List.map Char.toLower) (some "data.tmp")⟩

/-- The orphan `data.tmp` is never reclaimed. -/
theorem orphans_reclaimed_fails :
    ¬ ∀ keys, DistinctUploads keys → ∀ s, storedMap.Reach (publishing keys) s →
      ∀ (referencedKeys : List String) (graceSeconds clock : Rat),
        (∀ p ∈ keyPaths keys, ∀ file, s.disk.read p = some file →
          graceSeconds ≤ clock - file.mtime) →
        ReclaimsOrphans keys s.disk referencedKeys graceSeconds clock := by
  intro hall
  have hhidden : (Disk.resolve dataKey.path).toOption.map Disk.hidden = some true := by
    decide +kernel
  cases hpath : Disk.resolve dataKey.path with
  | error e =>
      rw [hpath] at hhidden
      cases hhidden
  | ok p =>
      rw [hpath] at hhidden
      obtain ⟨s, hs, hread⟩ := publish_one dataKey hpath
      have hown := distinctUploads_singleton dataKey
      have hreclaims : ReclaimsOrphans {dataKey} s.disk [] 60 1000 := by
        apply hall _ hown s hs
        rintro q ⟨_, rfl, hq⟩ file hfile
        obtain rfl := Except.ok.inj (hpath.symm.trans hq)
        obtain rfl := Option.some.inj (hread.symm.trans hfile)
        decide +kernel
      obtain ⟨_, hnone, _⟩ := referenced_of_reclaims hown hs hreclaims ⟨dataKey, rfl, hpath⟩
        (Option.some.inj hhidden) (Tree.isFile_eq_true_iff.mpr ⟨_, hread⟩)
      cases hnone

end ChallengeForge
