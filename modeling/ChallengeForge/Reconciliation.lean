import ChallengeForge.FilesystemStorage
import ChallengeForge.SubmissionStore
import Mathlib.Data.List.Dedup

/-!
# Reconciliation of orphaned blobs

`reconcile_orphans` lists the blobs below `submissions/` and deletes the ones
that no submission references and that are past the grace window.  References
are compared as texts, while the storage lists the text of a *path*; a key with a
vanishing component, such as the one built for the upload `report.txt/`, is stored
under a path that is listed otherwise.

* `reconcileOrphans_spec` — what the scan does to every path;
* `reconcile_keeps_referenced_iff` — every referenced key reads as before just
  when each of them is spared;
* `reconcile_deletes_referenced` — an upload whose blob is taken for an orphan.
-/

namespace ChallengeForge

open Directory Keyed

/-- `"." + artifact_filename.rsplit(".", 1)[-1].lower()`, if the name has a dot. -/
def artifactSuffix (lower : List Char → List Char) (artifactFilename : Option String) : String :=
  match artifactFilename with
  | none => ""
  | some name =>
      if '.' ∈ name.toList then
        String.ofList ('.' :: lower (name.toList.rtakeWhile (fun c => decide (c ≠ '.'))))
      else ""

/-- `list_artifact_keys()`. -/
def Submissions.listArtifactKeys (submissions : Submissions) : List String :=
  (submissions.rows.filterMap SubmissionRow.artifactKey).map ArtifactKey.path

/-- An entry of `report.errors`: the call and what it raised. -/
structure ReportedError where
  call : String
  error : StorageError
  deriving DecidableEq, Repr

/-- `ReconcileReport`, with the keys as the storage spells them. -/
structure ReconcileReport where
  scanned : Nat
  referenced : Nat
  orphanCandidates : Nat
  deleted : List String
  missingReferenced : List String
  skippedYoung : List String
  errors : List ReportedError
  deriving DecidableEq, Repr

namespace Disk

/-- `{k for k in referenced_keys if k}`. -/
def references (referencedKeys : List String) : List String :=
  (referencedKeys.filter (fun key => decide (key ≠ ""))).dedup

/-- `mtime is not None and (clock - mtime) < grace_seconds`. -/
def young (graceSeconds clock : Rat) (mtime : Option Rat) : Bool :=
  match mtime with
  | none => false
  | some mtime => clock - mtime < graceSeconds

/-- `storage.exists(key)` of a reference, and what the report keeps of it. -/
def checkReference (disk : Disk) (report : ReconcileReport) (key : String) : ReconcileReport :=
  match blobExists disk key with
  | .ok true => report
  | .ok false => { report with missingReferenced := report.missingReferenced ++ [key] }
  | .error e => { report with errors := report.errors ++ [⟨"exists(" ++ key ++ ")", e⟩] }

/-- `storage.delete(key)` of an orphan, and what the report keeps of it. -/
def deleteOrphan (disk : Disk) (report : ReconcileReport) (key : String) :
    Disk × ReconcileReport :=
  match delete disk key with
  | .ok (disk, true) => (disk, { report with deleted := report.deleted ++ [key] })
  | .ok (disk, false) => (disk, report)
  | .error e =>
      (disk, { report with errors := report.errors ++ [⟨"delete(" ++ key ++ ")", e⟩] })

/-- One key of the listing that is not referenced. -/
def reconcileOrphan (graceSeconds clock : Rat) (deletes : Bool) (disk : Disk)
    (report : ReconcileReport) (key : String) : Except StorageError (Disk × ReconcileReport) := do
  let written ← mtime disk key
  if young graceSeconds clock written then
    return (disk, { report with skippedYoung := report.skippedYoung ++ [key] })
  else if deletes then
    return deleteOrphan disk report key
  else
    return (disk, report)

/-- One key of the listing. -/
def reconcileKey (refs : List String) (graceSeconds clock : Rat) (deletes : Bool)
    (state : Disk × ReconcileReport) (key : String) :
    Except StorageError (Disk × ReconcileReport) :=
  let (disk, report) := state
  let report := { report with scanned := report.scanned + 1 }
  if key ∈ refs then .ok (disk, report)
  else
    reconcileOrphan graceSeconds clock deletes disk
      { report with orphanCandidates := report.orphanCandidates + 1 } key

/-- `.incoming` below the root. -/
def incoming : Name := ⟨".incoming".toList, by decide⟩

/-- `Path(str(path) + ".meta")`. -/
def metaOf (path : Path) : Option Path :=
  match path.getLast? with
  | none => none
  | some name =>
      (Name.ofText? (name.text ++ ".meta".toList)).map (fun other => path.dropLast ++ [other])

/-- Unlink a staged file and its `.meta`. -/
def unlinkStaged (disk : Disk) (path : Path) : Disk :=
  match metaOf path with
  | some other => (unlinkFile (unlinkFile disk path).1 other).1
  | none => (unlinkFile disk path).1

/-- One path of the staging area. -/
def cleanupFile (graceSeconds clock : Rat) (state : Disk × List Name) (path : Path) :
    Disk × List Name :=
  match state.1.read path, path.getLast? with
  | some file, some name =>
      if endsWith name.text ".meta" ∨ clock - file.mtime < graceSeconds then state
      else (unlinkStaged state.1 path, state.2 ++ [name])
  | _, _ => state

/-- `cleanup_incoming(incoming_root)`, for a directory directly below the root. -/
def cleanupIncoming (disk : Disk) (incomingRoot : Name) (graceSeconds clock : Rat) :
    Disk × List Name :=
  ((disk.files [incomingRoot]).filter (fun path => decide (path.dropLast = [incomingRoot]))).foldl
    (cleanupFile graceSeconds clock) (disk, [])

/-- `cleanup_incoming(incoming_fn())` and what the report keeps of it. -/
def reclaimStaging (disk : Disk) (report : ReconcileReport) (graceSeconds clock : Rat) :
    Disk × ReconcileReport :=
  match disk.mkdirs [] [incoming] with
  | none => (disk, { report with errors := report.errors ++ [⟨"incoming_cleanup", .os⟩] })
  | some disk =>
      let (disk, names) := cleanupIncoming disk incoming graceSeconds clock
      (disk, { report with
        deleted := report.deleted ++
          names.map (fun name => ".incoming/" ++ String.ofList name.text) })

/-- `reconcile_orphans(storage, referenced_keys, prefix=…, grace_seconds=…, now=…,
delete=…)`, on a `LocalFilesystemStorage`. -/
def reconcileOrphans (disk : Disk) (referencedKeys : List String) (start : String)
    (graceSeconds clock : Rat) (deletes : Bool) :
    Except StorageError (Disk × ReconcileReport) := do
  let refs := references referencedKeys
  let report := refs.foldl (checkReference disk) ⟨0, refs.length, 0, [], [], [], []⟩
  let keys ← iterKeys disk start
  let (disk, report) ← keys.foldlM (reconcileKey refs graceSeconds clock deletes) (disk, report)
  if deletes then
    return reclaimStaging disk report graceSeconds clock
  return (disk, report)

/-! ## What the scan does to the disk -/

/-- The scan takes the blob at a path for an orphan past its grace window. -/
def Reclaimed (refs : List String) (graceSeconds clock : Rat) (disk : Disk) (path : Path) :
    Prop :=
  asPosix path ∉ refs ∧ young graceSeconds clock ((disk.read path).map StoredFile.mtime) = false

instance (refs : List String) (graceSeconds clock : Rat) (disk : Disk) (path : Path) :
    Decidable (Reclaimed refs graceSeconds clock disk path) :=
  inferInstanceAs (Decidable (_ ∧ _))

/-- A path whose blob is the orphan of a path, or the orphan's sidecar. -/
def GoesWith (path q : Path) : Prop := q = path ∨ sidecar path = some q

instance (path q : Path) : Decidable (GoesWith path q) := inferInstanceAs (Decidable (_ ∨ _))

section Scan

variable {refs : List String} {graceSeconds clock : Rat}

theorem deleteOrphan_read (disk : Disk) (report : ReconcileReport) {path : Path}
    (hpath : path ≠ []) (q : Path) :
    (deleteOrphan disk report (asPosix path)).1.read q =
      if GoesWith path q then none else disk.read q := by
  obtain ⟨disk', removed, hdelete, hread⟩ := delete_spec disk (resolve_asPosix hpath)
  have hfirst : (deleteOrphan disk report (asPosix path)).1 = disk' := by
    unfold deleteOrphan
    rw [hdelete]
    cases removed <;> rfl
  rw [hfirst, hread]
  rfl

theorem reconcileOrphan_spec (graceSeconds clock : Rat) (disk : Disk) (report : ReconcileReport)
    {path : Path} (hpath : path ≠ []) :
    ∃ disk' report', reconcileOrphan graceSeconds clock true disk report (asPosix path) =
        .ok (disk', report') ∧
      ∀ q, disk'.read q =
        if young graceSeconds clock ((disk.read path).map StoredFile.mtime) = false ∧
          GoesWith path q then none
        else disk.read q := by
  have hmtime : mtime disk (asPosix path) = .ok ((disk.read path).map StoredFile.mtime) := by
    rw [mtime, resolve_asPosix hpath]
    rfl
  have hrun : reconcileOrphan graceSeconds clock true disk report (asPosix path) =
      if young graceSeconds clock ((disk.read path).map StoredFile.mtime) then
        .ok (disk, { report with skippedYoung := report.skippedYoung ++ [asPosix path] })
      else .ok (deleteOrphan disk report (asPosix path)) := by
    rw [reconcileOrphan, hmtime]
    rfl
  by_cases hyoung : young graceSeconds clock ((disk.read path).map StoredFile.mtime) = true
  · rw [if_pos hyoung] at hrun
    exact ⟨disk, _, hrun, by simp [hyoung]⟩
  · rw [if_neg hyoung] at hrun
    refine ⟨(deleteOrphan disk report (asPosix path)).1,
      (deleteOrphan disk report (asPosix path)).2, hrun, ?_⟩
    intro q
    rw [deleteOrphan_read disk report hpath]
    simp [hyoung]

/-- **One listed key.**  Its blob and sidecar go if the key is reclaimed; nothing
else changes. -/
theorem reconcileKey_spec (refs : List String) (graceSeconds clock : Rat) (disk : Disk)
    (report : ReconcileReport) {path : Path} (hpath : path ≠ []) :
    ∃ disk' report', reconcileKey refs graceSeconds clock true (disk, report) (asPosix path) =
        .ok (disk', report') ∧
      ∀ q, disk'.read q =
        if Reclaimed refs graceSeconds clock disk path ∧ GoesWith path q then none
        else disk.read q := by
  by_cases href : asPosix path ∈ refs
  · refine ⟨disk, { report with scanned := report.scanned + 1 }, ?_, ?_⟩
    · simp [reconcileKey, href]
    · intro q
      simp [Reclaimed, href]
  · obtain ⟨disk', report', hrun, hread⟩ := reconcileOrphan_spec graceSeconds clock disk
      { report with
        scanned := report.scanned + 1
        orphanCandidates := report.orphanCandidates + 1 } hpath
    refine ⟨disk', report', ?_, ?_⟩
    · rw [reconcileKey, if_neg href]
      exact hrun
    · intro q
      rw [hread]
      simp [Reclaimed, href]

/-- The scan of the paths left does not depend on the blobs already gone. -/
theorem reclaimed_congr {disk disk' : Disk} {path : Path}
    (h : disk'.read path = disk.read path) :
    Reclaimed refs graceSeconds clock disk' path ↔ Reclaimed refs graceSeconds clock disk path := by
  simp [Reclaimed, h]

/-- **The scan.**  Over paths none of which is hidden or listed twice, exactly the
reclaimed blobs and their sidecars go. -/
theorem foldlM_reconcileKey (refs : List String) (graceSeconds clock : Rat) (paths : List Path)
    (disk : Disk) (report : ReconcileReport)
    (hnodup : paths.Nodup) (hshown : ∀ path ∈ paths, path ≠ [] ∧ hidden path = false) :
    ∃ disk' report',
      (paths.map asPosix).foldlM (reconcileKey refs graceSeconds clock true) (disk, report) =
        .ok (disk', report') ∧
      ∀ q, disk'.read q =
        if ∃ path ∈ paths, Reclaimed refs graceSeconds clock disk path ∧ GoesWith path q then none
        else disk.read q := by
  induction paths generalizing disk report with
  | nil => exact ⟨disk, report, rfl, by simp⟩
  | cons path rest ih =>
      obtain ⟨hfresh, hrest⟩ := List.nodup_cons.mp hnodup
      have hpath := hshown path (by simp)
      obtain ⟨mid, report₁, hone, hmid⟩ :=
        reconcileKey_spec refs graceSeconds clock disk report hpath.1
      obtain ⟨disk', report', hall, hread⟩ := ih mid report₁ hrest
        (fun p hp => hshown p (List.mem_cons_of_mem _ hp))
      -- a path still to come is neither the one just scanned nor its sidecar
      have hkept : ∀ p ∈ rest, mid.read p = disk.read p := by
        intro p hp
        have hapart : ¬ GoesWith path p := by
          rintro (rfl | hside)
          · exact hfresh hp
          · obtain ⟨side, hsome, hhidden⟩ := sidecar_hidden hpath.1
            rw [hside] at hsome
            cases hsome
            rw [(hshown p (List.mem_cons_of_mem _ hp)).2] at hhidden
            cases hhidden
        rw [hmid, if_neg (fun h => hapart h.2)]
      refine ⟨disk', report', ?_, ?_⟩
      · rw [List.map_cons, List.foldlM_cons, hone]
        exact hall
      · intro q
        rw [hread, hmid]
        have hsame : (∃ p ∈ rest, Reclaimed refs graceSeconds clock mid p ∧ GoesWith p q) ↔
            ∃ p ∈ rest, Reclaimed refs graceSeconds clock disk p ∧ GoesWith p q := by
          constructor
          · rintro ⟨p, hp, hr, hg⟩
            exact ⟨p, hp, (reclaimed_congr (hkept p hp)).mp hr, hg⟩
          · rintro ⟨p, hp, hr, hg⟩
            exact ⟨p, hp, (reclaimed_congr (hkept p hp)).mpr hr, hg⟩
        simp only [hsame, List.mem_cons, exists_eq_or_imp]
        by_cases hfirst : Reclaimed refs graceSeconds clock disk path ∧ GoesWith path q
        · simp [hfirst]
        · simp [hfirst]

/-- The name of a file's `.meta` is in the same directory. -/
theorem dropLast_metaOf {path other : Path} (h : metaOf path = some other) :
    other.dropLast = path.dropLast := by
  unfold metaOf at h
  split at h
  · cases h
  · obtain ⟨name, _, rfl⟩ := Option.map_eq_some_iff.mp h
    simp

theorem head_of_dropLast {path : Path} {name : Name} (h : path.dropLast = [name]) :
    path.head? = some name := by
  cases path with
  | nil => cases h
  | cons first rest =>
      cases rest with
      | nil => cases h
      | cons next rest =>
          rw [List.dropLast_cons_of_ne_nil (by simp)] at h
          have hfirst : first = name := by
            injection h
          rw [List.head?_cons, hfirst]

/-- Cleaning the staging area changes no path outside it. -/
theorem cleanupIncoming_read (disk : Disk) (incomingRoot : Name) {q : Path}
    (hq : q.head? ≠ some incomingRoot) :
    (cleanupIncoming disk incomingRoot graceSeconds clock).1.read q = disk.read q := by
  have hfile : ∀ (state : Disk × List Name) (path : Path), path.dropLast = [incomingRoot] →
      (cleanupFile graceSeconds clock state path).1.read q = state.1.read q := by
    intro state path hpath
    have hne : q ≠ path := by
      rintro rfl
      exact hq (head_of_dropLast hpath)
    have hstaged : (unlinkStaged state.1 path).read q = state.1.read q := by
      unfold unlinkStaged
      cases hmeta : metaOf path with
      | none => simp only [read_unlinkFile, if_neg hne]
      | some other =>
          have hother : q ≠ other := by
            rintro rfl
            exact hq (head_of_dropLast ((dropLast_metaOf hmeta).trans hpath))
          simp only [read_unlinkFile, if_neg hother, if_neg hne]
    unfold cleanupFile
    split
    · split
      · rfl
      · exact hstaged
    · rfl
  have hall : ∀ (paths : List Path) (state : Disk × List Name),
      (∀ path ∈ paths, path.dropLast = [incomingRoot]) →
      (paths.foldl (cleanupFile graceSeconds clock) state).1.read q = state.1.read q := by
    intro paths
    induction paths with
    | nil =>
        intro state _
        rfl
    | cons path rest ih =>
        intro state hpaths
        rw [List.foldl_cons, ih _ (fun p hp => hpaths p (List.mem_cons_of_mem _ hp)),
          hfile state path (hpaths path (by simp))]
  exact hall _ (disk, []) (fun path hpath => by simpa using (List.mem_filter.mp hpath).2)

theorem reclaimStaging_read (disk : Disk) (report : ReconcileReport) {q : Path}
    (hq : q.head? ≠ some incoming) :
    (reclaimStaging disk report graceSeconds clock).1.read q = disk.read q := by
  unfold reclaimStaging
  split
  · rfl
  · rename_i made hmade
    rw [← Tree.read_mkdirs hmade q]
    exact cleanupIncoming_read made incoming hq

end Scan

/-- `submissions` below the root. -/
def submissionsDir : Name := ⟨"submissions".toList, by decide⟩

theorem mem_iterPaths {disk : Disk} {base path : Path} :
    path ∈ iterPaths disk base ↔
      (base <+: path ∧ path ≠ base ∧ ∃ file, disk.read path = some file) ∧
        hidden path = false := by
  rw [iterPaths, List.mem_filter, Tree.mem_files]
  simp

/-- A reconciliation is a scan, and then the staging area. -/
theorem reconcileOrphans_of_scan {disk mid : Disk} {referencedKeys : List String}
    {graceSeconds clock : Rat} {report : ReconcileReport}
    (hscan : ((iterPaths disk [submissionsDir]).map asPosix).foldlM
      (reconcileKey (references referencedKeys) graceSeconds clock true)
      (disk, (references referencedKeys).foldl (checkReference disk)
        ⟨0, (references referencedKeys).length, 0, [], [], [], []⟩) = .ok (mid, report)) :
    reconcileOrphans disk referencedKeys "submissions/" graceSeconds clock true =
      .ok (reclaimStaging mid report graceSeconds clock) := by
  have hprefix : resolvePrefix "submissions/" = .ok [submissionsDir] := by decide +kernel
  have hkeys : iterKeys disk "submissions/" =
      .ok ((iterPaths disk [submissionsDir]).map asPosix) := by
    rw [iterKeys, hprefix]
    rfl
  simp only [reconcileOrphans, hkeys]
  exact congrArg (fun scanned => scanned >>= fun state : Disk × ReconcileReport =>
    .ok (reclaimStaging state.1 state.2 graceSeconds clock)) hscan

/-- Where the listing leads, there is a file that is not the root. -/
theorem ne_nil_of_mem_iterPaths {disk : Disk} {base path : Path}
    (h : path ∈ iterPaths disk base) : path ≠ [] := by
  obtain ⟨⟨_, _, file, hfile⟩, _⟩ := mem_iterPaths.mp h
  rintro rfl
  simp at hfile

/-- **Reconciliation.**  Outside the staging area, exactly the reclaimed blobs and
their sidecars go. -/
theorem reconcileOrphans_spec (disk : Disk) (referencedKeys : List String)
    (graceSeconds clock : Rat) :
    ∃ disk' report, reconcileOrphans disk referencedKeys "submissions/" graceSeconds clock true =
        .ok (disk', report) ∧
      ∀ q : Path, q.head? ≠ some incoming → disk'.read q =
        if ∃ path ∈ iterPaths disk [submissionsDir],
            Reclaimed (references referencedKeys) graceSeconds clock disk path ∧ GoesWith path q
          then none
        else disk.read q := by
  obtain ⟨mid, report, hscan, hread⟩ := foldlM_reconcileKey (references referencedKeys)
    graceSeconds clock (iterPaths disk [submissionsDir]) disk
    ((references referencedKeys).foldl (checkReference disk)
      ⟨0, (references referencedKeys).length, 0, [], [], [], []⟩)
    ((Tree.nodup_files _).filter _)
    (fun path hpath => ⟨ne_nil_of_mem_iterPaths hpath, (mem_iterPaths.mp hpath).2⟩)
  refine ⟨(reclaimStaging mid report graceSeconds clock).1,
    (reclaimStaging mid report graceSeconds clock).2, reconcileOrphans_of_scan hscan, ?_⟩
  intro q hq
  rw [reclaimStaging_read mid report hq, hread q]

theorem mem_references {referencedKeys : List String} {key : String} :
    key ∈ references referencedKeys ↔ key ∈ referencedKeys ∧ key ≠ "" := by
  rw [references, List.mem_dedup, List.mem_filter, decide_eq_true_eq]

/-! ## The keys the services build -/

theorem slash_not_mem_hexDigits (k n : Nat) : '/' ∉ hexDigits k n := by
  have hdigit : ∀ d < 16, Nat.digitChar d ≠ '/' := by decide
  induction k generalizing n with
  | zero => simp [hexDigits]
  | succ k ih =>
      simp only [hexDigits, List.mem_append, List.mem_singleton, not_or]
      exact ⟨ih _, Ne.symm (hdigit _ (Nat.mod_lt _ (by decide)))⟩

theorem slash_not_mem_uuidText (id : UUID) : '/' ∉ (uuidText id).toList := by
  have hslice : ∀ start stop, '/' ∉ slice (hexDigits 32 id) start stop := by
    intro start stop h
    exact slash_not_mem_hexDigits 32 id (List.mem_of_mem_drop (List.mem_of_mem_take h))
  simp [uuidText, List.intercalate_cons_cons, hslice]

theorem dash_mem_uuidText (id : UUID) : '-' ∈ (uuidText id).toList := by
  simp [uuidText, List.intercalate_cons_cons]

/-- A text with a dash has a component. -/
theorem pathParts_ne_nil {text : List Char} (h : '-' ∈ text) : pathParts text ≠ [] := by
  have hjoin : ['/'].intercalate (text.splitOn '/') = text := List.intercalate_splitOn '/'
  rw [← hjoin] at h
  rcases mem_intercalate h with hsep | ⟨part, hpart, hdash⟩
  · exact absurd hsep (by decide)
  · intro hnil
    have hkept : part ∈ pathParts text := by
      rw [pathParts, List.mem_filter]
      refine ⟨hpart, ?_⟩
      rw [decide_eq_true_eq]
      constructor
      · rintro rfl
        cases hdash
      · rintro rfl
        simp at hdash
    rw [hnil] at hkept
    cases hkept

/-- The key of an artifact, cut at its slashes. -/
theorem toList_path (key : ArtifactKey) :
    key.path.toList = "submissions".toList ++ '/' :: ((uuidText key.challengeId).toList ++
      '/' :: ((uuidText key.actorId).toList ++
        '/' :: ((uuidText key.uploadId).toList ++ key.suffix.toList))) := by
  have hroot : "submissions/".toList = "submissions".toList ++ ['/'] := by decide +kernel
  have hslash : "/".toList = ['/'] := by decide +kernel
  unfold ArtifactKey.path
  rw [String.toList_append, String.toList_append, String.toList_append, String.toList_append,
    String.toList_append, String.toList_append, hroot, hslash]
  generalize "submissions".toList = root
  simp

/-- **Artifacts lie below `submissions/`.** -/
theorem below_submissions {key : ArtifactKey} {path : Path} (h : resolve key.path = .ok path) :
    [submissionsDir] <+: path ∧ path ≠ [submissionsDir] ∧ path.head? ≠ some incoming := by
  have htext := text_of_resolve h
  rw [toList_path, pathParts, List.splitOn_append_cons_self_of_not_mem (by decide +kernel),
    List.filter_cons_of_pos (by decide +kernel)] at htext
  cases path with
  | nil => cases htext
  | cons first rest =>
      rw [List.map_cons] at htext
      injection htext with hfirst hrest
      obtain rfl : first = submissionsDir := Name.ext_text hfirst
      refine ⟨by simp, ?_, by simp; decide +kernel⟩
      intro hnil
      obtain rfl : rest = [] := by simpa using hnil
      have hdash : '-' ∈ (uuidText key.challengeId).toList ++
          '/' :: ((uuidText key.actorId).toList ++
            '/' :: ((uuidText key.uploadId).toList ++ key.suffix.toList)) :=
        List.mem_append_left _ (dash_mem_uuidText _)
      exact pathParts_ne_nil hdash hrest.symm

/-- A text before the first slash goes with the first component. -/
theorem splitOn_append {text : List Char} (h : '/' ∉ text) (rest : List Char) :
    (text ++ rest).splitOn '/' = (rest.splitOn '/').modifyHead (text ++ ·) := by
  induction text with
  | nil =>
      obtain ⟨first, others, hsplit⟩ :=
        List.exists_cons_of_ne_nil (List.splitOn_ne_nil '/' rest)
      simp [hsplit]
  | cons c text ih =>
      simp only [List.mem_cons, not_or] at h
      have hc : (c == '/') = false := by simpa using Ne.symm h.1
      rw [List.cons_append, List.splitOn_cons_eq_if_modifyHead, hc, ih h.2]
      cases rest.splitOn '/' <;> simp

/-- The components of the key of an artifact, before any vanishes. -/
theorem splitOn_path (key : ArtifactKey) {first : List Char} {rest : List (List Char)}
    (hsuffix : key.suffix.toList.splitOn '/' = first :: rest) :
    key.path.toList.splitOn '/' = ["submissions".toList, (uuidText key.challengeId).toList,
      (uuidText key.actorId).toList, (uuidText key.uploadId).toList ++ first] ++ rest := by
  rw [toList_path, List.splitOn_append_cons_self_of_not_mem (by decide +kernel),
    List.splitOn_append_cons_self_of_not_mem (slash_not_mem_uuidText _),
    List.splitOn_append_cons_self_of_not_mem (slash_not_mem_uuidText _),
    splitOn_append (slash_not_mem_uuidText _), hsuffix]
  rfl

/-- **Normal form, by file name.**  With `extension` the lower-cased text after
the last dot of the upload's name, the key is in normal form just when no
component of `extension` but the first is empty. -/
theorem inNormalForm_path_iff (key : ArtifactKey) {extension : List Char}
    (hsuffix : key.suffix.toList = '.' :: extension) (hdot : '.' ∉ extension) :
    InNormalForm key.path ↔ ∀ part ∈ (extension.splitOn '/').tail, part ≠ [] := by
  obtain ⟨first, rest, hsplit⟩ := List.exists_cons_of_ne_nil (List.splitOn_ne_nil '/' extension)
  have hdotted : key.suffix.toList.splitOn '/' = ('.' :: first) :: rest := by
    rw [hsuffix, List.splitOn_cons_eq_if_modifyHead, hsplit]
    rfl
  have hparts := splitOn_path key hdotted
  have huuid : ∀ id, (uuidText id).toList ≠ [] ∧ (uuidText id).toList ≠ ['.'] := by
    intro id
    have hdash := dash_mem_uuidText id
    constructor
    · intro h
      rw [h] at hdash
      cases hdash
    · intro h
      rw [h] at hdash
      simp at hdash
  have hundotted : ∀ part ∈ rest, part ≠ ['.'] := by
    rintro part hpart rfl
    apply hdot
    have hjoin : ['/'].intercalate (extension.splitOn '/') = extension :=
      List.intercalate_splitOn '/'
    rw [← hjoin, hsplit]
    exact mem_intercalate_of_mem (List.mem_cons_of_mem _ hpart) (by simp)
  rw [InNormalForm, hparts, hsplit, List.tail_cons]
  constructor
  · intro h part hpart
    exact (h part (List.mem_append_right _ hpart)).1
  · intro h part hpart
    rcases List.mem_append.mp hpart with hfixed | hrest
    · simp only [List.mem_cons, List.not_mem_nil, or_false] at hfixed
      have hlast : (uuidText key.uploadId).toList ++ '.' :: first ≠ [] ∧
          (uuidText key.uploadId).toList ++ '.' :: first ≠ ['.'] := by
        have hnil := (huuid key.uploadId).1
        generalize (uuidText key.uploadId).toList = id at hnil
        obtain ⟨c, text, rfl⟩ := List.exists_cons_of_ne_nil hnil
        simp
      rcases hfixed with h | h | h | h <;> rw [h]
      · decide +kernel
      · exact huuid _
      · exact huuid _
      · exact hlast
    · exact ⟨h part hrest, hundotted part hrest⟩

/-! ## Which referenced keys survive -/

/-- What spares the blob of a referenced key: the key is in normal form, or the
name its blob is listed under is referenced as well, or the blob is not listed, or
it is young; and it is not the sidecar of an orphan. -/
structure Spared (refs : List String) (graceSeconds clock : Rat) (disk : Disk) (key : String)
    (path : Path) : Prop where
  blob : InNormalForm key ∨ asPosix path ∈ refs ∨ hidden path = true ∨
    young graceSeconds clock ((disk.read path).map StoredFile.mtime) = true
  sidecar : ∀ orphan ∈ iterPaths disk [submissionsDir], sidecar orphan = some path →
    ¬ Reclaimed refs graceSeconds clock disk orphan

/-- The scan leaves a stored path alone just when it is spared. -/
theorem spared_iff {refs : List String} {graceSeconds clock : Rat} {disk : Disk}
    {key : ArtifactKey} {path : Path} (href : key.path ∈ refs)
    (hpath : resolve key.path = .ok path) (hfile : ∃ file, disk.read path = some file) :
    (¬ ∃ p ∈ iterPaths disk [submissionsDir],
        Reclaimed refs graceSeconds clock disk p ∧ GoesWith p path) ↔
      Spared refs graceSeconds clock disk key.path path := by
  obtain ⟨hbase, hne, _⟩ := below_submissions hpath
  constructor
  · intro hkept
    refine ⟨?_, fun orphan horphan hside hgone =>
      hkept ⟨orphan, horphan, hgone, Or.inr hside⟩⟩
    by_cases hhidden : hidden path = true
    · exact Or.inr (Or.inr (Or.inl hhidden))
    · have hlisted : path ∈ iterPaths disk [submissionsDir] :=
        mem_iterPaths.mpr ⟨⟨hbase, hne, hfile⟩, by simpa using hhidden⟩
      by_cases hmem : asPosix path ∈ refs
      · exact Or.inr (Or.inl hmem)
      · refine Or.inr (Or.inr (Or.inr ?_))
        by_contra hold
        exact hkept ⟨path, hlisted, ⟨hmem, by simpa using hold⟩, Or.inl rfl⟩
  · rintro ⟨hblob, hsidecar⟩ ⟨p, hp, hgone, hgoes⟩
    rcases hgoes with hsame | hside
    · rw [← hsame] at hp hgone
      rcases hblob with hnormal | hmem | hhidden | hyoung
      · rw [← (asPosix_eq_iff hpath).mpr hnormal] at href
        exact hgone.1 href
      · exact hgone.1 hmem
      · rw [(mem_iterPaths.mp hp).2] at hhidden
        cases hhidden
      · rw [hgone.2] at hyoung
        cases hyoung
    · exact hsidecar p hp hside hgone

/-- **Reconciliation keeps what is spared.**  Whatever the storage holds, the
clock says and the grace window is: every key of a submission reads as it did
before just when every one of them is spared. -/
theorem reconcile_keeps_referenced_iff (disk : Disk) (submissions : Submissions)
    (graceSeconds clock : Rat)
    (hstored : ∀ key ∈ submissions.listArtifactKeys, ∃ data, get disk key = .ok data) :
    ∃ disk' report,
      reconcileOrphans disk submissions.listArtifactKeys "submissions/" graceSeconds clock true =
        .ok (disk', report) ∧
      ((∀ key ∈ submissions.listArtifactKeys, get disk' key = get disk key) ↔
        ∀ key ∈ submissions.listArtifactKeys, ∀ path, resolve key = .ok path →
          Spared (references submissions.listArtifactKeys) graceSeconds clock disk key path) := by
  obtain ⟨disk', report, hrun, hread⟩ :=
    reconcileOrphans_spec disk submissions.listArtifactKeys graceSeconds clock
  refine ⟨disk', report, hrun, ?_⟩
  have hone : ∀ key ∈ submissions.listArtifactKeys, ∀ path, resolve key = .ok path →
      (get disk' key = get disk key ↔
        Spared (references submissions.listArtifactKeys) graceSeconds clock disk key path) := by
    intro text hkey path hpath
    obtain ⟨key, _, rfl⟩ := List.mem_map.mp hkey
    obtain ⟨data, hdata⟩ := hstored _ hkey
    obtain ⟨path', file, hpath', hfile, _⟩ := read_of_get hdata
    obtain rfl : path = path' := by
      rw [hpath] at hpath'
      injection hpath'
    have href : key.path ∈ references submissions.listArtifactKeys := by
      refine mem_references.mpr ⟨hkey, ?_⟩
      intro hempty
      rw [hempty] at hpath
      cases hpath
    rw [← spared_iff href hpath ⟨file, hfile⟩, get_of_resolve hpath, get_of_resolve hpath,
      hread path (below_submissions hpath).2.2, hfile]
    by_cases hgone : ∃ p ∈ iterPaths disk [submissionsDir],
        Reclaimed (references submissions.listArtifactKeys) graceSeconds clock disk p ∧
          GoesWith p path
    · rw [if_pos hgone]
      simp only [hgone, not_true_eq_false, iff_false]
      intro h
      cases h
    · rw [if_neg hgone]
      simp only [hgone, not_false_eq_true]
  constructor
  · intro h key hkey path hpath
    exact (hone key hkey path hpath).mp (h key hkey)
  · intro h key hkey
    obtain ⟨data, hdata⟩ := hstored key hkey
    obtain ⟨path, _, hpath, _, _⟩ := read_of_get hdata
    exact (hone key hkey path hpath).mpr (h key hkey path hpath)

/-- The key of the upload `report.txt/` of participant 2 to challenge 1. -/
def reportKey : ArtifactKey :=
  ⟨1, 2, 3, artifactSuffix (List.map Char.toLower) (some "report.txt/")⟩

/-- That key, written out. -/
def reportText : String :=
  "submissions/00000000-0000-0000-0000-000000000001/00000000-0000-0000-0000-000000000002/" ++
    "00000000-0000-0000-0000-000000000003.txt/"

theorem path_reportKey : reportKey.path = reportText := by decide +kernel

/-- One submission, with that upload. -/
def reportRow : SubmissionRow where
  id := 4
  challengeId := 1
  participantId := 2
  status := .created
  metadata := []
  artifactKey := some reportKey
  idempotencyKey := none
  requestFingerprint := none
  createdAt := 0
  updatedAt := 0

/-- One submission, with the key of `reportRow`. -/
def reportSubmissions : Submissions := ⟨[reportRow], by simp⟩

theorem listArtifactKeys_report : reportSubmissions.listArtifactKeys = [reportText] := by
  rw [← path_reportKey]
  rfl

/-- The storage after that upload. -/
def reportDisk : Disk :=
  match put Tree.empty reportText [1] "text/plain" 0 with
  | .ok (disk, _) => disk
  | .error e => e.disk

theorem put_report : ∃ result, put Tree.empty reportText [1] "text/plain" 0 = .ok result ∧
    result.1 = reportDisk := by
  have hput : (put Tree.empty reportText [1] "text/plain" 0).toBool = true := by decide +kernel
  cases hresult : put Tree.empty reportText [1] "text/plain" 0 with
  | error e =>
      rw [hresult] at hput
      cases hput
  | ok result =>
      obtain ⟨disk, key⟩ := result
      refine ⟨(disk, key), rfl, ?_⟩
      unfold reportDisk
      rw [hresult]

theorem read_report :
    ∃ path, resolve reportText = .ok path ∧ reportDisk.read path = some ⟨[1], 0⟩ := by
  obtain ⟨⟨disk, key⟩, hput, hdisk⟩ := put_report
  rw [← hdisk]
  exact read_put hput

theorem get_report : get reportDisk reportText = .ok [1] := by
  obtain ⟨path, hpath, hread⟩ := read_report
  rw [get_of_resolve hpath, hread]

/-- The upload `report.txt`: its key leads to the same path. -/
def plainKey : ArtifactKey :=
  ⟨1, 2, 3, artifactSuffix (List.map Char.toLower) (some "report.txt")⟩

/-- That key, written out. -/
def plainText : String :=
  "submissions/00000000-0000-0000-0000-000000000001/00000000-0000-0000-0000-000000000002/" ++
    "00000000-0000-0000-0000-000000000003.txt"

/-- The same submission with a key that normalising keeps. -/
def plainSubmissions : Submissions := ⟨[{ reportRow with artifactKey := some plainKey }], by simp⟩

theorem listArtifactKeys_plain : plainSubmissions.listArtifactKeys = [plainText] := by
  have hpath : plainKey.path = plainText := by decide +kernel
  rw [← hpath]
  rfl

theorem resolve_plainText : resolve plainText = resolve reportText := by
  have hsame : (resolve plainText).toOption = (resolve reportText).toOption := by decide +kernel
  obtain ⟨path, hpath, -⟩ := read_report
  rw [hpath] at hsame ⊢
  cases hplain : resolve plainText with
  | error e =>
      rw [hplain] at hsame
      cases hsame
  | ok path' =>
      rw [hplain] at hsame
      rw [Option.some.inj hsame]

/-- Long past the grace window the blob of a key in normal form is still there. -/
theorem reconcile_keeps_report :
    ∃ disk' report,
      reconcileOrphans reportDisk plainSubmissions.listArtifactKeys "submissions/" 60 1000 true =
        .ok (disk', report) ∧
      ∀ key ∈ plainSubmissions.listArtifactKeys, get disk' key = get reportDisk key := by
  have hstored : ∀ key ∈ plainSubmissions.listArtifactKeys, ∃ data,
      get reportDisk key = .ok data := by
    intro key hkey
    rw [listArtifactKeys_plain] at hkey
    obtain rfl := List.mem_singleton.mp hkey
    obtain ⟨path, hpath, hread⟩ := read_report
    exact ⟨[1], by rw [get_of_resolve (resolve_plainText.trans hpath), hread]⟩
  obtain ⟨disk', report, hrun, hkeeps⟩ :=
    reconcile_keeps_referenced_iff reportDisk plainSubmissions 60 1000 hstored
  refine ⟨disk', report, hrun, hkeeps.mpr ?_⟩
  intro key hkey path hpath
  rw [listArtifactKeys_plain] at hkey
  obtain rfl := List.mem_singleton.mp hkey
  refine ⟨Or.inl (by decide +kernel), ?_⟩
  -- a sidecar is hidden, and the name of the blob is not
  intro orphan horphan hside _
  obtain ⟨⟨hbase, -, -⟩, -⟩ := mem_iterPaths.mp horphan
  have hne : orphan ≠ [] := List.ne_nil_of_length_pos (hbase.length_le.trans_lt' (by simp))
  obtain ⟨side, hsome, hhidden⟩ := sidecar_hidden hne
  have hshown : (resolve plainText).toOption.map hidden = some false := by decide +kernel
  rw [hpath, ← Option.some.inj (hsome.symm.trans hside)] at hshown
  rw [Option.some.inj hshown] at hhidden
  cases hhidden

/-- **A referenced blob is taken for an orphan.**  The upload `report.txt/` is
stored under a path that is listed without the slash; past the grace window its
blob is deleted, while the submission still names it. -/
theorem reconcile_deletes_referenced :
    (∃ result, put Tree.empty reportKey.path [1] "text/plain" 0 = .ok result ∧
        result.1 = reportDisk) ∧
      reportSubmissions.listArtifactKeys = [reportKey.path] ∧
      get reportDisk reportKey.path = .ok [1] ∧
      ∃ disk' report,
        reconcileOrphans reportDisk reportSubmissions.listArtifactKeys "submissions/" 60 1000 true =
          .ok (disk', report) ∧
        get disk' reportKey.path = .error (.fileNotFound reportKey.path) := by
  rw [listArtifactKeys_report, path_reportKey]
  refine ⟨put_report, rfl, get_report, ?_⟩
  obtain ⟨disk', report, hrun, hread⟩ := reconcileOrphans_spec reportDisk [reportText] 60 1000
  obtain ⟨path, hpath, hfile⟩ := read_report
  have hkey : resolve reportKey.path = .ok path := by rw [path_reportKey, hpath]
  obtain ⟨hbase, hne, hhead⟩ := below_submissions hkey
  have hold : (disk'.read path) = none := by
    rw [hread path hhead, if_pos]
    refine ⟨path, mem_iterPaths.mpr ⟨⟨hbase, hne, _, hfile⟩, ?_⟩, ⟨?_, ?_⟩, Or.inl rfl⟩
    · have hhidden : (resolve reportText).toOption.map hidden = some false := by decide +kernel
      rw [hpath] at hhidden
      injection hhidden
    · rw [mem_references, List.mem_singleton]
      intro hlisted
      have hnormal := (asPosix_eq_iff hpath).mp hlisted.1
      exact absurd hnormal (by decide +kernel)
    · rw [hfile]
      decide +kernel
  exact ⟨disk', report, hrun, by rw [get_of_resolve hpath, hold]⟩

end Disk

end ChallengeForge
