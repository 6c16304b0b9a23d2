import ChallengeForge.StagedPublication
import ChallengeForge.UploadStreaming

/-!
# Uploaded artifacts

`POST /submissions/{id}/artifact` from end to end: the body is streamed to a staging file,
`attach_incoming` publishes that file under a new key and commits the row, `abort` removes
it where that fails, and old staging files are swept.

A call of the database fails with nothing applied.  Where the server applies the commit
and its acknowledgement is lost, the new upload is deleted all the same, and the row
names nothing: `ArtifactReferences` has those runs.

* `upload_settles` — whatever so fails, every committed row names the whole of an upload that
  passed its checks, or what it named before; and the staging file is gone.
-/

namespace ChallengeForge

open Directory Keyed

/-! ## The route -/

/-- `POST /submissions/{submission_id}/artifact`, with the id its staging file draws. -/
structure ArtifactPost where
  actor : Actor
  submissionId : UUID
  body : List BodyRead
  /-- `file.content_type`. -/
  contentType : Option String
  /-- The suffix of `file.filename`. -/
  suffix : String
  /-- The header `X-Content-SHA256`. -/
  contentSha256 : Option String
  stagingId : Name

/-- What fails of a request. -/
structure PostFaults where
  stream : StreamFaults
  files : Disk.Faults
  db : DbFaults
  /-- `staging_path.unlink()` in `abort`. -/
  abort : Bool

/-- What the client is answered when the stream fails. -/
def StreamError.reply : StreamError → Reply
  | .refused error => .refused error
  | .os | .source => .raised

/-- `incoming.finalized` when the request is over. -/
def ArtifactWrite.finalized (cfg : SubmissionConfig) (s : Service) (disk : Disk)
    (faults : Disk.Faults) (clock : Rat) (write : ArtifactWrite) : Bool :=
  match write.plan cfg s with
  | .ok ⟨_, some (key, blob, publication)⟩ =>
      (disk.publish faults key.path blob.contentType clock publication).isOk
  | _ => false

namespace ArtifactPost

/-- The staging file of the upload. -/
def stagingPath (post : ArtifactPost) : Path := [Disk.incoming, post.stagingId]

/-- `service.attach_incoming(actor, submission_id, incoming, …)`. -/
def attach (post : ArtifactPost) (upload : IncomingUpload) : ArtifactWrite :=
  .attachIncoming post.actor post.submissionId
    ⟨upload.data, some upload.contentType, post.suffix⟩ upload.stagingPath

/-- `attach_artifact` from end to end. -/
def run (cfg : SubmissionConfig) (s : Service) (rows : Submissions) (disk : Disk)
    (faults : PostFaults) (now : Timestamp) (clock : Rat) (post : ArtifactPost) : WriteOutcome :=
  match disk.streamToIncoming faults.stream Disk.incoming post.stagingId post.body
      cfg.artifactMaxBytes (post.contentType.getD "") post.contentSha256 clock with
  | .error (error, left) => ⟨rows, s.ingestionJobs, left.sweepIncoming clock, error.reply⟩
  | .ok (upload, staged) =>
      let left := (post.attach upload).run cfg s rows staged faults.files faults.db now clock
      let disk :=
        if left.reply.raises ∧ ¬(post.attach upload).finalized cfg s staged faults.files clock then
          left.disk.abortUpload faults.abort upload.stagingPath
        else left.disk
      { left with disk := disk.sweepIncoming clock }

end ArtifactPost

/-- The uploads of different submissions are different, and the next one is new. -/
structure UploadsOwned (s : Service) (rows : Submissions) : Prop where
  owned : ∀ row ∈ s.submissions, ∀ other ∈ rows, ∀ key key', row.artifactKey = some key →
    other.artifactKey = some key' → uuidText key.uploadId = uuidText key'.uploadId →
    row.id = other.id
  fresh : ∀ row, row ∈ s.submissions ∨ row ∈ rows → ∀ key, row.artifactKey = some key →
    uuidText key.uploadId ≠ uuidText (s.nextUuid + 1)

/-- The new upload is the whole body, and passed its checks. -/
structure Uploaded (cfg : SubmissionConfig) (s : Service) (post : ArtifactPost)
    (disk : Disk) (key : ArtifactKey) : Prop where
  drawn : key.uploadId = s.nextUuid + 1
  through : ReadsThrough post.body
  passed : Disk.bodyVerdict cfg.artifactMaxBytes post.contentSha256 (bodyBytes post.body) = none
  whole : disk.get key.path = .ok (bodyBytes post.body)

/-- What a request leaves: every committed row has the artifact it had, or the new one. -/
structure UploadSettles (cfg : SubmissionConfig) (s : Service) (rows : Submissions) (disk : Disk)
    (post : ArtifactPost) (left : WriteOutcome) : Prop where
  rows : ∀ row ∈ left.submissions, ∀ key, row.artifactKey = some key →
    (row.id = post.submissionId ∧ Uploaded cfg s post left.disk key) ∨
      (∃ other ∈ rows, other.id = row.id ∧ other.artifactKey = some key) ∧
        left.disk.get key.path = disk.get key.path
  answer : left.reply.raises = false → left.reply = .updated post.submissionId ∧
    ∀ row ∈ left.submissions, row.id = post.submissionId →
      ∃ key, row.artifactKey = some key ∧ key.uploadId = s.nextUuid + 1

section Settling

open Disk

variable {cfg : SubmissionConfig} {s : Service} {rows : Submissions} {disk : Disk}
  {post : ArtifactPost}

/-- Files of other uploads than the new one. -/
def OldUpload (s : Service) (q : Path) : Prop :=
  q.head? ≠ some incoming ∧ uploadText q ≠ some (uuidText (s.nextUuid + 1)).toList

/-- The text of an id is the id of its files. -/
theorem uploadText_ne {key : ArtifactKey} {p : Path} (hpath : resolve key.path = .ok p)
    {id : UUID} (h : uuidText key.uploadId ≠ uuidText id) :
    uploadText p ≠ some (uuidText id).toList := by
  rw [uploadText_of_resolve hpath]
  intro hsame
  exact h (String.toList_injective (Option.some.inj hsame))

/-- A compensation touches the files of its upload only. -/
theorem read_compensateDelete_of_upload {dropped : Option ArtifactKey} {q : Path}
    (h : ∀ old, dropped = some old → uploadText q ≠ some (uuidText old.uploadId).toList) :
    (compensateDelete disk dropped).read q = disk.read q := by
  cases dropped with
  | none => rfl
  | some old =>
      cases hold : resolve old.path with
      | error e =>
          have hfailed : disk.delete old.path = .error e := by
            rw [Disk.delete, hold]
            rfl
          simp only [compensateDelete, hfailed]
      | ok p =>
          have htext := uploadText_of_resolve hold
          rw [read_compensateDelete hold, if_neg]
          rintro (rfl | hsidecar)
          · exact h old rfl htext
          · exact h old rfl (uploadText_of_isSibling (Or.inr hsidecar) htext (length_uuidText _))

/-- A compensation brings nothing. -/
theorem read_of_compensateDelete {dropped : Option ArtifactKey} {q : Path} {file : StoredFile}
    (h : (compensateDelete disk dropped).read q = some file) : disk.read q = some file := by
  cases dropped with
  | none => exact h
  | some old =>
      cases hold : resolve old.path with
      | error e =>
          have hfailed : disk.delete old.path = .error e := by
            rw [Disk.delete, hold]
            rfl
          simpa only [compensateDelete, hfailed] using h
      | ok p =>
          rw [read_compensateDelete hold] at h
          split at h
          · cases h
          · exact h

theorem get_congr {left : Disk} {key : ArtifactKey}
    (h : ∀ p, resolve key.path = .ok p → left.read p = disk.read p) :
    left.get key.path = disk.get key.path := by
  cases hpath : resolve key.path with
  | error e =>
      unfold Disk.get
      rw [hpath]
      rfl
  | ok p => rw [get_of_resolve hpath, get_of_resolve hpath, h p hpath]

/-! ### The staging area -/

theorem read_unlinkStaged_of_head {staging q : Path} (hstaging : staging.dropLast = [incoming])
    (hq : q.head? ≠ some incoming) : (unlinkStaged disk staging).read q = disk.read q := by
  have hne : q ≠ staging := by
    rintro rfl
    exact hq (head_of_dropLast hstaging)
  unfold unlinkStaged
  cases hmeta : metaOf staging with
  | none => simp only [read_unlinkFile, if_neg hne]
  | some other =>
      have hother : q ≠ other := by
        rintro rfl
        exact hq (head_of_dropLast ((dropLast_metaOf hmeta).trans hstaging))
      simp only [read_unlinkFile, if_neg hother, if_neg hne]

theorem read_rmdir_getD (disk : Disk) (dir q : Path) :
    ((disk.rmdir dir).getD disk).read q = disk.read q := by
  cases hremoved : disk.rmdir dir with
  | none => rfl
  | some left => exact Tree.read_rmdir hremoved q

/-- `abort` changes the staging area only, and removes the staging file. -/
theorem abortUpload_spec (fails : Bool) (disk : Disk) {staging : Path}
    (hstaging : staging.dropLast = [incoming]) :
    (∀ q, q.head? ≠ some incoming → (abortUpload fails disk staging).read q = disk.read q) ∧
      (fails = false → (abortUpload fails disk staging).read staging = none) := by
  unfold abortUpload
  split
  · rename_i hfails
    exact ⟨fun _ _ => rfl, fun hnot => absurd (hnot.symm.trans hfails.1) Bool.false_ne_true⟩
  · constructor
    · intro q hq
      rw [read_rmdir_getD, read_unlinkStaged_of_head hstaging hq]
    · intro _
      rw [read_rmdir_getD]
      cases hleft : (unlinkStaged disk staging).read staging with
      | none => rfl
      | some file => exact absurd rfl (read_of_unlinkStaged hleft).1

/-- The sweep brings nothing, and changes the staging area only. -/
theorem sweepIncoming_spec (disk : Disk) (clock : Rat) (q : Path) :
    (q.head? ≠ some incoming → (sweepIncoming disk clock).read q = disk.read q) ∧
      (disk.read q = none → (sweepIncoming disk clock).read q = none) := by
  unfold sweepIncoming
  cases hmade : disk.mkdirs [] [incoming] with
  | none => exact ⟨fun _ => rfl, id⟩
  | some made =>
      have hbrings : ∀ (paths : List Path) (state : Disk × List Name),
          state.1.read q = none →
          (paths.foldl (cleanupFile 3600 clock) state).1.read q = none := by
        intro paths
        induction paths with
        | nil =>
            intro state hnone
            exact hnone
        | cons path rest ih =>
            intro state hnone
            refine ih _ ?_
            cases hleft : (cleanupFile 3600 clock state path).1.read q with
            | none => rfl
            | some file => exact absurd ((cleanupFile_read hleft).1.symm.trans hnone) (by simp)
      constructor
      · intro hq
        rw [cleanupIncoming_read made incoming hq, Tree.read_mkdirs hmade]
      · intro hnone
        exact hbrings _ (made, []) (by rw [Tree.read_mkdirs hmade, hnone])

/-! ### The request -/

/-- Rows that were there before, with files of other uploads than the new one. -/
theorem settles_of_rows {left : WriteOutcome} (howned : UploadsOwned s rows)
    (hrows : left.submissions = rows) (hreply : left.reply.raises = true)
    (hkept : ∀ q, OldUpload s q → left.disk.read q = disk.read q) :
    UploadSettles cfg s rows disk post left := by
  refine ⟨fun row hrow key hkey => Or.inr ?_, fun hanswer => ?_⟩
  · rw [hrows] at hrow
    refine ⟨⟨row, hrow, rfl, hkey⟩, get_congr (fun p hpath => hkept p ⟨?_, ?_⟩)⟩
    · exact (below_submissions hpath).2.2
    · exact uploadText_ne hpath (howned.fresh row (Or.inr hrow) key hkey)
  · rw [hreply] at hanswer
    cases hanswer

/-- What a commit of the row does with the new upload. -/
theorem commitAndEnqueue_edit (cfg : SubmissionConfig) (s : Service) (rows : Submissions)
    (published : Disk) {request : Request} {loaded : SubmissionRow} {payload : JsonDict}
    (hwork : request.work = .rewrite loaded payload) (db : DbFaults) (now : Timestamp) :
    (s.commitAndEnqueue cfg rows published request db now).submissions = rows ∧
        (s.commitAndEnqueue cfg rows published request db now).disk =
          compensateDelete published request.newKey ∧
        (s.commitAndEnqueue cfg rows published request db now).reply = .raised ∨
      (s.commitAndEnqueue cfg rows published request db now).submissions =
          rows.flushEdit loaded (request.edited loaded payload) now ∧
        (s.commitAndEnqueue cfg rows published request db now).disk =
          compensateDelete published request.replacedKey ∧
        ((s.commitAndEnqueue cfg rows published request db now).reply = .raised ∨
          (s.commitAndEnqueue cfg rows published request db now).reply =
            .updated loaded.id) := by
  unfold Service.commitAndEnqueue
  cases hrow : db.row with
  | true =>
      have hcommit : s.commitRow rows request true now = .error false := if_pos rfl
      rw [hcommit]
      refine Or.inl ⟨rfl, rfl, ?_⟩
      simp only [Service.failureReply, hwork]
  | false =>
      have hcommit : s.commitRow rows request false now =
          .ok (rows.flushEdit loaded (request.edited loaded payload) now, loaded.id) := by
        simp only [Service.commitRow, hwork, Bool.false_eq_true, if_false]
      have hreply : request.successReply loaded.id = .updated loaded.id := by
        simp only [Request.successReply, hwork]
      rw [hcommit]
      right
      dsimp only
      rw [hreply]
      split
      · split
        · exact ⟨rfl, rfl, Or.inr rfl⟩
        · exact ⟨rfl, rfl, Or.inl rfl⟩
      · exact ⟨rfl, rfl, Or.inr rfl⟩

/-- A request whose artifact is published. -/
theorem commitAndEnqueue_settles {published : Disk} {request : Request} {loaded : SubmissionRow}
    {payload : JsonDict} {key : ArtifactKey} {p : Path} (howned : UploadsOwned s rows)
    (hloaded : loaded ∈ s.submissions) (hid : loaded.id = post.submissionId)
    (hwork : request.work = .rewrite loaded payload) (hkey : request.newKey = some key)
    (hdrawn : key.uploadId = s.nextUuid + 1) (hpath : resolve key.path = .ok p)
    (hkept : ∀ q, OldUpload s q → published.read q = disk.read q)
    (hthrough : ReadsThrough post.body)
    (hpassed : bodyVerdict cfg.artifactMaxBytes post.contentSha256 (bodyBytes post.body) = none)
    (hwhole : ∃ mtime, published.read p = some ⟨bodyBytes post.body, mtime⟩) (db : DbFaults)
    (now : Timestamp) :
    UploadSettles cfg s rows disk post (s.commitAndEnqueue cfg rows published request db now) := by
  have hprevious : ∀ old, request.replacedKey = some old → loaded.artifactKey = some old := by
    intro old hold
    have hloadedKey := (Request.previousKey_of_replacedKey hold).1
    rwa [hwork] at hloadedKey
  rcases commitAndEnqueue_edit cfg s rows published hwork db now with
    ⟨hrows, hdisk, hreply⟩ | ⟨hrows, hdisk, hreply⟩
  · -- the commit has failed, and the new upload is given up
    refine settles_of_rows howned hrows (by rw [hreply]; rfl) (fun q hq => ?_)
    rw [hdisk, hkey, read_compensateDelete_of_upload, hkept q hq]
    rintro old ⟨⟩
    rw [hdrawn]
    exact hq.2
  · have hnew : (request.edited loaded payload).artifactKey = some key := by
      rw [Request.edited_artifactKey, hkey]
      rfl
    have hchanged : (request.edited loaded payload).artifactKey ≠ loaded.artifactKey := by
      intro hsame
      refine howned.fresh loaded (Or.inl hloaded) key (hsame ▸ hnew) ?_
      rw [hdrawn]
    have hnames : ∀ row ∈ rows, ∀ row',
        (if row.id = loaded.id then row.writeChanges loaded (request.edited loaded payload) now
          else row) = row' →
        row.id = row'.id ∧
          (row'.id = loaded.id → row'.artifactKey = some key) ∧
          (row'.id ≠ loaded.id → row' = row) := by
      rintro row - row' rfl
      split
      · rename_i hsame
        refine ⟨rfl, fun _ => ?_, fun hother => absurd hsame hother⟩
        rw [SubmissionRow.writeChanges_artifactKey, if_neg hchanged, hnew]
      · rename_i hother
        exact ⟨rfl, fun hsame => absurd hsame hother, fun _ => rfl⟩
    refine ⟨fun row' hrow' key' hkey' => ?_, fun hanswer => ⟨?_, fun row' hrow' hrowId => ?_⟩⟩
    · rw [hrows, Submissions.mem_flushEdit] at hrow'
      obtain ⟨row, hrow, hflushed⟩ := hrow'
      obtain ⟨hsameId, hedited, hrest⟩ := hnames row hrow row' hflushed
      by_cases hloadedId : row'.id = loaded.id
      · -- the row of the request has the new upload
        left
        obtain rfl : key = key' := Option.some.inj ((hedited hloadedId).symm.trans hkey')
        refine ⟨hloadedId.trans hid, hdrawn, hthrough, hpassed, ?_⟩
        obtain ⟨mtime, hread⟩ := hwhole
        rw [get_of_resolve hpath, hdisk, read_compensateDelete_of_upload, hread]
        intro old hold
        refine uploadText_ne hpath (Ne.symm ?_)
        rw [hdrawn]
        exact howned.fresh loaded (Or.inl hloaded) old (hprevious old hold)
      · -- every other row keeps its upload, which is not the replaced one
        right
        obtain rfl := hrest hloadedId
        refine ⟨⟨row', hrow, rfl, hkey'⟩, get_congr (fun q hq => ?_)⟩
        rw [hdisk, read_compensateDelete_of_upload, hkept q ⟨?_, ?_⟩]
        · exact (below_submissions hq).2.2
        · exact uploadText_ne hq (howned.fresh row' (Or.inr hrow) key' hkey')
        · intro old hold
          refine uploadText_ne hq (fun hsame => hloadedId ?_)
          exact (howned.owned loaded hloaded row' hrow old key' (hprevious old hold) hkey'
            hsame.symm).symm
    · rcases hreply with hraised | hupdated
      · rw [hraised] at hanswer
        cases hanswer
      · rw [hupdated, hid]
    · rw [hrows, Submissions.mem_flushEdit] at hrow'
      obtain ⟨row, hrow, hflushed⟩ := hrow'
      exact ⟨key, (hnames row hrow row' hflushed).2.1 (hrowId.trans hid.symm), hdrawn⟩

/-- The files of the new upload and its staging file. -/
theorem not_mem_of_oldUpload {key : ArtifactKey} {p tmp side source q : Path}
    (hdrawn : key.uploadId = s.nextUuid + 1) (hpath : resolve key.path = .ok p)
    (hsiblings : Siblings p tmp side) (hsource : source.head? = some incoming)
    (hq : OldUpload s q) : q ∉ [p, tmp, side, source] := by
  have htext := uploadText_of_resolve hpath
  rw [hdrawn] at htext
  simp only [List.mem_cons, List.not_mem_nil, or_false]
  rintro (rfl | rfl | rfl | rfl)
  · exact hq.2 htext
  · exact hq.2 (uploadText_of_isSibling hsiblings.isSibling.1 htext (length_uuidText _))
  · exact hq.2 (uploadText_of_isSibling hsiblings.isSibling.2 htext (length_uuidText _))
  · exact hq.1 hsource

theorem publish_of_refused {key contentType : String} {source : Path} {files : Disk.Faults}
    {clock : Rat} {e : StorageError} (hpath : resolve key = .error e) :
    disk.publish files key contentType clock (.staged source) = .error ⟨e, disk⟩ := by
  simp only [Disk.publish, putFromPathWith, hpath, lookup, bind, Except.bind, Except.map]

/-- The plan of an upload that passes its checks. -/
theorem plan_attach {upload : IncomingUpload} {plan : WritePlan}
    (hplan : (post.attach upload).plan cfg s = .ok plan) :
    ∃ loaded payload key blob, loaded ∈ s.submissions ∧ loaded.id = post.submissionId ∧
      key.uploadId = s.nextUuid + 1 ∧
      plan = ⟨.rewrite loaded payload, some (key, blob, .staged upload.stagingPath)⟩ := by
  simp only [ArtifactPost.attach, ArtifactWrite.plan, Service.planAttach] at hplan
  split at hplan
  · cases hplan
  · rename_i loaded payload hchecked
    cases hplan
    obtain ⟨row, hrow, hchecked⟩ := except_bind_eq_ok hchecked
    obtain ⟨payload', -, hchecked⟩ := except_bind_eq_ok hchecked
    obtain ⟨-, -, hchecked⟩ := except_bind_eq_ok hchecked
    cases hchecked
    unfold Service.getEditable at hrow
    split at hrow
    · cases hrow
    · rename_i found hfound
      split at hrow
      · cases hrow
      · split at hrow
        · cases hrow
        · cases hrow
          exact ⟨loaded, payload, _, _, Table.mem_of_find? hfound, Table.key_of_find? hfound, rfl,
            rfl⟩

/-- What happens after the publication brings nothing. -/
theorem read_of_commitAndEnqueue {published : Disk} {request : Request} {loaded : SubmissionRow}
    {payload : JsonDict} (hwork : request.work = .rewrite loaded payload) {db : DbFaults}
    {now : Timestamp} {q : Path} {file : StoredFile}
    (h : (s.commitAndEnqueue cfg rows published request db now).disk.read q = some file) :
    published.read q = some file := by
  rcases commitAndEnqueue_edit cfg s rows published hwork db now with
    ⟨-, hdisk, -⟩ | ⟨-, hdisk, -⟩
  · rw [hdisk] at h
    exact read_of_compensateDelete h
  · rw [hdisk] at h
    exact read_of_compensateDelete h

section Staged

variable {upload : IncomingUpload} {staged : Disk} {clock : Rat} {contentType : String}
  (hstaged : Staged disk incoming post.stagingId post.body cfg.artifactMaxBytes contentType
    post.contentSha256 clock upload staged)

include hstaged

theorem head_stagingPath : upload.stagingPath.head? = some incoming := by
  rw [hstaged.path]
  rfl

theorem read_staged {q : Path} (hq : OldUpload s q) : staged.read q = disk.read q := by
  refine hstaged.frame q ?_
  rintro rfl
  exact hq.1 rfl

theorem verdict_staged :
    bodyVerdict cfg.artifactMaxBytes post.contentSha256 (bodyBytes post.body) = none := by
  rw [bodyVerdict, if_neg (Nat.not_lt.mpr hstaged.within), hstaged.matched]
  rfl

variable {key : ArtifactKey} (files : Disk.Faults) (ct : String)

/-- The publication of a staged upload leaves the other uploads. -/
theorem publish_staged_leaves (hdrawn : key.uploadId = s.nextUuid + 1) :
    Leaves (fun left => ∀ q, OldUpload s q → left.read q = disk.read q)
      (staged.publish files key.path ct clock (.staged upload.stagingPath)) := by
  cases hpath : resolve key.path with
  | error e =>
      rw [publish_of_refused hpath]
      exact .error (fun q hq => read_staged hstaged hq)
  | ok p =>
      obtain ⟨tmp, side, hsiblings⟩ :=
        exists_siblings ((below_submissions hpath).1.ne_nil (List.cons_ne_nil _ _))
      refine (publish_leaves hpath hsiblings).imp (fun left hleft q hq => ?_)
      rw [← read_staged hstaged hq]
      exact hleft q (not_mem_of_oldUpload hdrawn hpath hsiblings (head_stagingPath hstaged) hq)

/-- A publication that returns has brought the whole body. -/
theorem publish_staged_ok {published : Disk}
    (hresult : staged.publish files key.path ct clock (.staged upload.stagingPath) =
      .ok published) :
    ∃ p, resolve key.path = .ok p ∧
      (∃ mtime, published.read p = some ⟨bodyBytes post.body, mtime⟩) ∧
      (files.unlinkSource = false → published.read post.stagingPath = none) := by
  cases hpath : resolve key.path with
  | error e =>
      rw [publish_of_refused hpath] at hresult
      cases hresult
  | ok p =>
      obtain ⟨tmp, side, hsiblings⟩ :=
        exists_siblings ((below_submissions hpath).1.ne_nil (List.cons_ne_nil _ _))
      have hsource : upload.stagingPath ∉ [p, tmp, side] := by
        intro hmem
        have hhead : upload.stagingPath.head? = some submissionsDir := by
          simp only [List.mem_cons, List.not_mem_nil, or_false] at hmem
          have hkeyPath : p ∈ keyPaths {key} := ⟨key, rfl, hpath⟩
          refine head_of_key hkeyPath ?_
          rcases hmem with hblob | htmp | hside
          · exact Or.inl hblob
          · exact Or.inr (htmp ▸ hsiblings.isSibling.1)
          · exact Or.inr (hside ▸ hsiblings.isSibling.2)
        exact absurd ((head_stagingPath hstaged).symm.trans hhead) (by decide)
      obtain ⟨hwhole, hgone⟩ := publish_ok hpath hsiblings hsource
        (by rw [hstaged.path, hstaged.file]) hresult
      rw [hstaged.path] at hgone
      exact ⟨p, rfl, hwhole, hgone⟩

end Staged

/-- **The attachment of a staged upload.** -/
theorem attach_settles {upload : IncomingUpload} {staged : Disk} {clock : Rat}
    {contentType : String} (howned : UploadsOwned s rows) (hthrough : ReadsThrough post.body)
    (hstaged : Staged disk incoming post.stagingId post.body cfg.artifactMaxBytes contentType
      post.contentSha256 clock upload staged) (faults : Disk.Faults) (db : DbFaults)
    (now : Timestamp) :
    UploadSettles cfg s rows disk post
        ((post.attach upload).run cfg s rows staged faults db now clock) ∧
      if (post.attach upload).finalized cfg s staged faults clock then
        faults.unlinkSource = false →
          ((post.attach upload).run cfg s rows staged faults db now clock).disk.read
            post.stagingPath = none
      else
        ((post.attach upload).run cfg s rows staged faults db now clock).reply.raises = true := by
  cases hplan : (post.attach upload).plan cfg s with
  | error reply =>
      have hrun : (post.attach upload).run cfg s rows staged faults db now clock =
          ⟨rows, s.ingestionJobs, staged, reply⟩ := by
        simp only [ArtifactWrite.run, hplan]
      have hreply : reply.raises = true := by
        simp only [ArtifactPost.attach, ArtifactWrite.plan, Service.planAttach] at hplan
        split at hplan
        · cases hplan
          rfl
        · cases hplan
      rw [hrun]
      refine ⟨settles_of_rows howned rfl hreply (fun q hq => read_staged hstaged hq), ?_⟩
      simp only [ArtifactWrite.finalized, hplan, Bool.false_eq_true, if_false]
      exact hreply
  | ok plan =>
      obtain ⟨loaded, payload, key, blob, hloaded, hid, hdrawn, rfl⟩ := plan_attach hplan
      have hfinalized : (post.attach upload).finalized cfg s staged faults clock =
          (staged.publish faults key.path blob.contentType clock
            (.staged upload.stagingPath)).isOk := by
        simp only [ArtifactWrite.finalized, hplan]
      have hleft := publish_staged_leaves hstaged faults blob.contentType hdrawn
      rw [run_of_plan hplan, hfinalized]
      cases hresult : staged.publish faults key.path blob.contentType clock
          (.staged upload.stagingPath) with
      | error failure =>
          rw [hresult] at hleft
          rw [carryOut_of_error rfl hresult]
          exact ⟨settles_of_rows howned rfl rfl hleft.of_error, rfl⟩
      | ok published =>
          rw [hresult] at hleft
          obtain ⟨p, hpath, hwhole, hgone⟩ :=
            publish_staged_ok hstaged faults blob.contentType hresult
          rw [carryOut_of_ok rfl hresult]
          refine ⟨commitAndEnqueue_settles howned hloaded hid rfl rfl hdrawn hpath hleft.of_ok
            hthrough (verdict_staged hstaged) hwhole db now, ?_⟩
          intro hunlink
          refine Option.eq_none_iff_forall_ne_some.mpr (fun file hfile => ?_)
          have hbefore := read_of_commitAndEnqueue rfl hfile
          rw [hgone hunlink] at hbefore
          cases hbefore

/-- What becomes of the staging area is of no account. -/
theorem UploadSettles.staging {left : WriteOutcome} (h : UploadSettles cfg s rows disk post left)
    {disk' : Disk} (hdisk : ∀ q, q.head? ≠ some incoming → disk'.read q = left.disk.read q) :
    UploadSettles cfg s rows disk post { left with disk := disk' } := by
  have hget : ∀ key : ArtifactKey, disk'.get key.path = left.disk.get key.path :=
    fun key => get_congr (fun p hpath => hdisk p (below_submissions hpath).2.2)
  refine ⟨fun row hrow key hkey => ?_, h.answer⟩
  rcases h.rows row hrow key hkey with ⟨hid, huploaded⟩ | ⟨hold, hsame⟩
  · exact Or.inl ⟨hid, { huploaded with whole := (hget key).trans huploaded.whole }⟩
  · exact Or.inr ⟨hold, (hget key).trans hsame⟩

end Settling

/-- **An upload settles.**  Whatever fails, every committed row names the upload it named,
which reads as before, or it is the row of the request and names the new upload, which is
the whole body; and no staging file is left, unless it cannot be unlinked. -/
theorem upload_settles (cfg : SubmissionConfig) (s : Service) (rows : Submissions) (disk : Disk)
    (faults : PostFaults) (now : Timestamp) (clock : Rat) (post : ArtifactPost)
    (howned : UploadsOwned s rows) (hnew : disk.read post.stagingPath = none) :
    UploadSettles cfg s rows disk post (post.run cfg s rows disk faults now clock) ∧
      (faults.stream.unlink = false → faults.files.unlinkSource = false → faults.abort = false →
        (post.run cfg s rows disk faults now clock).disk.read post.stagingPath = none) := by
  unfold ArtifactPost.run
  rcases Disk.streamToIncoming_spec faults.stream disk Disk.incoming post.stagingId post.body
      cfg.artifactMaxBytes (post.contentType.getD "") post.contentSha256 clock with
    ⟨upload, staged, hrun, hthrough, hstaged⟩ | ⟨error, left, hrun, hframe, hgone⟩
  · rw [hrun]
    dsimp only
    have hstagingPath : upload.stagingPath = post.stagingPath := hstaged.path
    obtain ⟨hsettles, hfinal⟩ := attach_settles howned hthrough hstaged faults.files faults.db now
    generalize (post.attach upload).run cfg s rows staged faults.files faults.db now clock = left
      at hsettles hfinal ⊢
    rw [hstagingPath]
    obtain ⟨haborted, hremoved⟩ :=
      abortUpload_spec faults.abort left.disk
        (show post.stagingPath.dropLast = [Disk.incoming] from rfl)
    split at hfinal
    · rename_i hfinalized
      rw [if_neg (fun h => h.2 hfinalized)]
      refine ⟨hsettles.staging (fun q hq => (sweepIncoming_spec left.disk clock q).1 hq), ?_⟩
      intro _ hunlink _
      exact (sweepIncoming_spec left.disk clock _).2 (hfinal hunlink)
    · rename_i hfinalized
      rw [if_pos ⟨hfinal, hfinalized⟩]
      refine ⟨hsettles.staging (fun q hq => ?_), fun _ _ habort => ?_⟩
      · rw [(sweepIncoming_spec _ clock q).1 hq, haborted q hq]
      · exact (sweepIncoming_spec _ clock _).2 (hremoved habort)
  · rw [hrun]
    dsimp only
    constructor
    · refine settles_of_rows howned rfl ?_ (fun q hq => ?_)
      · cases error <;> rfl
      · rw [(sweepIncoming_spec left clock q).1 hq.1]
        refine hframe q ?_
        rintro rfl
        exact hq.1 rfl
    · intro hunlink _ _
      refine (sweepIncoming_spec left clock _).2 ?_
      rcases hgone hunlink with hnone | rfl
      · exact hnone
      · exact hnew

/-! ## An upload in two chunks -/

/-- The submission of participant 2, without an artifact. -/
def draftService : Service :=
  { emptyService with
    submissions := ⟨[{ Disk.reportRow with artifactKey := none }], by simp⟩
    nextUuid := 10 }

/-- A post of five bytes. -/
def helloPost : ArtifactPost where
  actor := ⟨2, .participant⟩
  submissionId := 4
  body := helloBody
  contentType := some "text/plain"
  suffix := ".txt"
  contentSha256 := none
  stagingId := helloId

theorem uploadsOwned_draft : UploadsOwned draftService draftService.submissions := by
  have hnone : ∀ row ∈ draftService.submissions, row.artifactKey = none := by
    intro row hrow
    obtain rfl : row = { Disk.reportRow with artifactKey := none } := List.mem_singleton.mp hrow
    rfl
  constructor
  · intro row hrow _ _ key _ hkey
    rw [hnone row hrow] at hkey
    cases hkey
  · intro row hrow key hkey
    rw [hnone row (or_self_iff.mp hrow)] at hkey
    cases hkey

/-- What that request leaves, where nothing fails. -/
def helloOutcome : WriteOutcome :=
  helloPost.run defaultConfig draftService draftService.submissions Tree.empty
    ⟨⟨false, false, false⟩, .clear, ⟨false, false⟩, false⟩ 10 10

/-- `upload_settles` of that request: its row names the five bytes. -/
theorem upload_settles_hello : ∃ row ∈ helloOutcome.submissions, row.id = 4 ∧
    ∃ key, row.artifactKey = some key ∧
      helloOutcome.disk.get key.path = .ok [104, 101, 108, 108, 111] := by
  obtain ⟨hsettles, -⟩ := upload_settles defaultConfig draftService draftService.submissions
    Tree.empty ⟨⟨false, false, false⟩, .clear, ⟨false, false⟩, false⟩ 10 10 helloPost
    uploadsOwned_draft rfl
  obtain ⟨row, hfound⟩ := Option.isSome_iff_exists.mp
    (show (helloOutcome.submissions.find? 4).isSome = true by decide +kernel)
  have hrow : row ∈ helloOutcome.submissions := Table.mem_of_find? hfound
  have hid : row.id = 4 := Table.key_of_find? hfound
  obtain ⟨-, hnamed⟩ := hsettles.answer (by decide +kernel)
  obtain ⟨key, hkey, hdrawn⟩ := hnamed row hrow hid
  refine ⟨row, hrow, hid, key, hkey, ?_⟩
  rcases hsettles.rows row hrow key hkey with ⟨-, huploaded⟩ | ⟨⟨other, hother, -, hnames⟩, -⟩
  · exact huploaded.whole
  · exact absurd (congrArg uuidText hdrawn)
      (uploadsOwned_draft.fresh other (Or.inr hother) key hnames)

end ChallengeForge
