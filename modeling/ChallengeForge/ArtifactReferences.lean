import ChallengeForge.RequestProgress

/-!
# Artifact references

The blob is written before the row that names it, and deleted again when the
commit of that row raises.  A commit may also raise after the server has
applied it; the compensating delete then removes the blob of a committed key.

* `KeysDistinct` — who may name an artifact key: at most one row, at most one
  request as its new key, and a key that is not committed yet by nobody else;
* `no_dangling_reference` — over every run in which no compensating delete hits
  a key that a row carries, every committed key has its blob; and those deletes
  are the only steps that break it;
* `dangling_reference` — a lost acknowledgement is enough for one.
-/

namespace ChallengeForge

open Keyed Labelled

namespace Service

variable {cfg : SubmissionConfig} {s s' : Service}

/-- Every artifact key a row carries has its blob in the store. -/
def NoDangling (s : Service) : Prop :=
  ∀ row ∈ s.submissions, ∀ key, row.artifactKey = some key →
    s.storage.blobExists (.artifact key) = true

/-- A compensating delete goes through only while no row carries the key. -/
def compensatesUnreferenced : Condition Service ServiceAction := fun s a =>
  match a with
  | .compensate id outcome => outcome ≠ .failed → ∀ request ∈ s.requests, request.id = id →
      ∀ row ∈ s.submissions, request.newKey = none ∨ row.artifactKey ≠ request.newKey
  | _ => True

instance (s : Service) (a : ServiceAction) : Decidable (compensatesUnreferenced s a) :=
  match a with
  | .compensate .. => inferInstanceAs (Decidable (_ → _))
  | .create .. | .updateCreated .. | .attachIncoming .. | .submit .. | .cancel ..
  | .publish .. | .commit .. | .drop .. | .enqueue .. | .die .. => isTrue trivial

/-- Who names an artifact key. -/
structure KeysDistinct (s : Service) : Prop where
  /-- The counter is past every key of a row. -/
  rowFresh : ∀ row ∈ s.submissions, ∀ key, row.artifactKey = some key →
    key.uploadId < s.nextUuid
  /-- The counter is past every key a request has drawn. -/
  newFresh : ∀ request ∈ s.requests, ∀ key, request.newKey = some key →
    key.uploadId < s.nextUuid
  /-- The counter is past every key a request has loaded. -/
  loadedFresh : ∀ request ∈ s.requests, ∀ key, request.work.previousKey = some key →
    key.uploadId < s.nextUuid
  /-- A key is on one row at most. -/
  rowUnique : ∀ row ∈ s.submissions, ∀ row' ∈ s.submissions, ∀ key,
    row.artifactKey = some key → row'.artifactKey = some key → row.id = row'.id
  /-- A key is drawn by one request at most. -/
  newUnique : ∀ request ∈ s.requests, ∀ other ∈ s.requests, ∀ key,
    request.newKey = some key → other.newKey = some key → request.id = other.id
  /-- A key that is still to be committed is on no row and was loaded by nobody. -/
  pending : ∀ request ∈ s.requests, request.phase.pending = true →
    ∀ key, request.newKey = some key →
      (∀ row ∈ s.submissions, row.artifactKey ≠ some key) ∧
      ∀ other ∈ s.requests, other.work.previousKey ≠ some key
  /-- A loaded key can only still be on the row it was loaded from. -/
  loadedRow : ∀ request ∈ s.requests, ∀ loaded metadata,
    request.work = .rewrite loaded metadata → ∀ key, loaded.artifactKey = some key →
      ∀ row ∈ s.submissions, row.artifactKey = some key → row.id = loaded.id
  /-- A blob that is about to be dropped has been replaced. -/
  replaced : ∀ request ∈ s.requests, ∀ submissionId, request.phase = .dropping submissionId →
    ∀ key, request.replacedKey = some key → ∀ row ∈ s.submissions, row.artifactKey ≠ some key

/-- A request after a step is a request from before it, up to its phase. -/
theorem origin_of_mem_proceed {request other : Request} {phase : Option Phase} {reply : Reply}
    (hrequest : request ∈ s.requests)
    (hother : other ∈ (s.proceed request phase reply).requests) :
    ∃ origin ∈ s.requests, origin.id = other.id ∧ origin.work = other.work ∧
      origin.upload = other.upload := by
  rcases (mem_proceed hrequest).mp hother with ⟨hmem, -⟩ | ⟨next, -, rfl⟩
  · exact ⟨other, hmem, rfl, rfl, rfl⟩
  · exact ⟨request, hrequest, rfl, rfl, rfl⟩

namespace KeysDistinct

/-- Fewer names, and a counter that has moved on. -/
theorem mono (h : s.KeysDistinct)
    (hrows : ∀ row' ∈ s'.submissions, ∃ row ∈ s.submissions,
      row.id = row'.id ∧ row.artifactKey = row'.artifactKey)
    (hrequests : ∀ request ∈ s'.requests, request ∈ s.requests)
    (huuid : s.nextUuid ≤ s'.nextUuid) : s'.KeysDistinct where
  rowFresh := by
    intro row' hrow' key hkey
    obtain ⟨row, hrow, -, hsame⟩ := hrows row' hrow'
    exact (h.rowFresh row hrow key (hsame.trans hkey)).trans_le huuid
  newFresh := fun request hrequest key hkey =>
    (h.newFresh request (hrequests request hrequest) key hkey).trans_le huuid
  loadedFresh := fun request hrequest key hkey =>
    (h.loadedFresh request (hrequests request hrequest) key hkey).trans_le huuid
  rowUnique := by
    intro a ha b hb key hka hkb
    obtain ⟨a', ha', hida, hsamea⟩ := hrows a ha
    obtain ⟨b', hb', hidb, hsameb⟩ := hrows b hb
    rw [← hida, ← hidb]
    exact h.rowUnique a' ha' b' hb' key (hsamea.trans hka) (hsameb.trans hkb)
  newUnique := fun a ha b hb => h.newUnique a (hrequests a ha) b (hrequests b hb)
  pending := by
    intro request hrequest hpending key hkey
    obtain ⟨hrow, hloaded⟩ := h.pending request (hrequests request hrequest) hpending key hkey
    constructor
    · intro row' hrow' hcarries
      obtain ⟨row, hmem, -, hsame⟩ := hrows row' hrow'
      exact hrow row hmem (hsame.trans hcarries)
    · exact fun other hother => hloaded other (hrequests other hother)
  loadedRow := by
    intro request hrequest loaded metadata hwork key hkey row' hrow' hcarries
    obtain ⟨row, hrow, hid, hsame⟩ := hrows row' hrow'
    rw [← hid]
    exact h.loadedRow request (hrequests request hrequest) loaded metadata hwork key hkey row
      hrow (hsame.trans hcarries)
  replaced := by
    intro request hrequest submissionId hphase key hkey row' hrow' hcarries
    obtain ⟨row, hrow, -, hsame⟩ := hrows row' hrow'
    exact h.replaced request (hrequests request hrequest) submissionId hphase key hkey row hrow
      (hsame.trans hcarries)

/-- A request starts, with a key that nobody has named. -/
theorem start {work : Work} {upload : Option (ArtifactKey × Blob)} (h : s.KeysDistinct)
    (hstart : s.startRequest work upload = some s')
    (hloaded : ∀ loaded metadata, work = .rewrite loaded metadata → loaded ∈ s.submissions)
    (hfresh : ∀ key blob, upload = some (key, blob) → key.uploadId = s.nextUuid + 1) :
    s'.KeysDistinct := by
  obtain ⟨hmem, hsub, -, -, huuid⟩ := mem_startRequest hstart
  have hdrawn : ∀ key, upload.map Prod.fst = some key → key.uploadId = s.nextUuid + 1 := by
    intro key hkey
    obtain ⟨⟨key', blob⟩, hupload, rfl⟩ := Option.map_eq_some_iff.mp hkey
    exact hfresh key' blob hupload
  have hold : ∀ key, work.previousKey = some key →
      ∃ loaded ∈ s.submissions, loaded.artifactKey = some key := by
    intro key hkey
    cases work with
    | insert new => cases hkey
    | rewrite loaded metadata => exact ⟨loaded, hloaded loaded metadata rfl, hkey⟩
  have hlt : ∀ id : UUID, id < s.nextUuid → id < s'.nextUuid := by
    intro id hid
    rw [huuid]
    exact Nat.lt_add_right 2 hid
  have hpast : ∀ key : ArtifactKey, key.uploadId = s.nextUuid + 1 →
      ¬ key.uploadId < s.nextUuid := by
    intro key hid
    rw [hid]
    exact Nat.not_lt.mpr (Nat.le_succ _)
  constructor
  case rowFresh =>
    intro row hrow key hkey
    exact hlt _ (h.rowFresh row (hsub ▸ hrow) key hkey)
  case newFresh =>
    intro request hrequest key hkey
    rcases (hmem request).mp hrequest with hbefore | rfl
    · exact hlt _ (h.newFresh request hbefore key hkey)
    · rw [hdrawn key hkey, huuid]
      exact Nat.lt_succ_self _
  case loadedFresh =>
    intro request hrequest key hkey
    rcases (hmem request).mp hrequest with hbefore | rfl
    · exact hlt _ (h.loadedFresh request hbefore key hkey)
    · obtain ⟨loaded, hrow, hcarries⟩ := hold key hkey
      exact hlt _ (h.rowFresh loaded hrow key hcarries)
  case rowUnique =>
    rw [hsub]
    exact h.rowUnique
  case newUnique =>
    intro a ha b hb key hka hkb
    rcases (hmem a).mp ha with ha | rfl <;> rcases (hmem b).mp hb with hb | rfl
    · exact h.newUnique a ha b hb key hka hkb
    · exact absurd (h.newFresh a ha key hka) (hpast key (hdrawn key hkb))
    · exact absurd (h.newFresh b hb key hkb) (hpast key (hdrawn key hka))
    · rfl
  case pending =>
    intro request hrequest hpending key hkey
    rcases (hmem request).mp hrequest with hbefore | rfl
    · obtain ⟨hrow, hnot⟩ := h.pending request hbefore hpending key hkey
      refine ⟨hsub ▸ hrow, fun other hother => ?_⟩
      rcases (hmem other).mp hother with hother | rfl
      · exact hnot other hother
      · intro hprevious
        obtain ⟨loaded, hmemLoaded, hcarries⟩ := hold key hprevious
        exact hrow loaded hmemLoaded hcarries
    · have hnew := hpast key (hdrawn key hkey)
      refine ⟨fun row hrow hcarries => hnew (h.rowFresh row (hsub ▸ hrow) key hcarries),
        fun other hother hprevious => ?_⟩
      rcases (hmem other).mp hother with hother | rfl
      · exact hnew (h.loadedFresh other hother key hprevious)
      · obtain ⟨loaded, hmemLoaded, hcarries⟩ := hold key hprevious
        exact hnew (h.rowFresh loaded hmemLoaded key hcarries)
  case loadedRow =>
    intro request hrequest loaded metadata hwork key hkey row hrow hcarries
    rcases (hmem request).mp hrequest with hbefore | rfl
    · exact h.loadedRow request hbefore loaded metadata hwork key hkey row (hsub ▸ hrow) hcarries
    · exact h.rowUnique row (hsub ▸ hrow) loaded (hloaded loaded metadata hwork) key hcarries hkey
  case replaced =>
    intro request hrequest submissionId hphase key hkey
    rw [hsub]
    rcases (hmem request).mp hrequest with hbefore | rfl
    · exact h.replaced request hbefore submissionId hphase key hkey
    · dsimp only at hphase
      split at hphase <;> cases hphase

/-- A request moves on, and with its commit a row may take over its new key. -/
theorem move {request : Request} {phase : Option Phase} {reply : Reply} {mid : Service}
    (h : s.KeysDistinct) (target : UUID) (hrequest : request ∈ s.requests)
    (hrequests : mid.requests = s.requests) (huuid : s.nextUuid ≤ mid.nextUuid)
    (hrows : ∀ row' ∈ mid.submissions, ∀ key, row'.artifactKey = some key →
      (∃ row ∈ s.submissions, row.id = row'.id ∧ row.artifactKey = some key) ∨
        request.phase.pending = true ∧ request.newKey = some key ∧ row'.id = target)
    (hpending : ∀ next, phase = some next → next.pending = true →
      request.phase.pending = true ∧ mid.submissions = s.submissions)
    (hdropping : ∀ submissionId, phase = some (.dropping submissionId) →
      ∀ key, request.replacedKey = some key →
        ∀ row ∈ mid.submissions, row.artifactKey ≠ some key) :
    (mid.proceed request phase reply).KeysDistinct := by
  have hmid : request ∈ mid.requests := hrequests ▸ hrequest
  have horigin : ∀ other ∈ (mid.proceed request phase reply).requests,
      ∃ origin ∈ s.requests, origin.id = other.id ∧ origin.work = other.work ∧
        origin.newKey = other.newKey := by
    intro other hother
    obtain ⟨origin, horig, hid, hwork, hupload⟩ := origin_of_mem_proceed hmid hother
    exact ⟨origin, hrequests ▸ horig, hid, hwork, by rw [Request.newKey, Request.newKey, hupload]⟩
  -- a key that another request has still to commit, or has loaded, is not the one written here
  have hothers : ∀ other ∈ s.requests, other.id ≠ request.id → ∀ key,
      other.newKey = some key → request.newKey ≠ some key :=
    fun other hother hne key hkey hnew =>
      hne (h.newUnique other hother request hrequest key hkey hnew)
  constructor
  case rowFresh =>
    intro row' hrow' key hkey
    rw [proceed_submissions] at hrow'
    rw [proceed_nextUuid]
    rcases hrows row' hrow' key hkey with ⟨row, hrow, -, hsame⟩ | ⟨-, hnew, -⟩
    · exact (h.rowFresh row hrow key hsame).trans_le huuid
    · exact (h.newFresh request hrequest key hnew).trans_le huuid
  case newFresh =>
    intro other hother key hkey
    obtain ⟨origin, horig, -, -, hnew⟩ := horigin other hother
    rw [proceed_nextUuid]
    exact (h.newFresh origin horig key (hnew.trans hkey)).trans_le huuid
  case loadedFresh =>
    intro other hother key hkey
    obtain ⟨origin, horig, -, hwork, -⟩ := horigin other hother
    rw [proceed_nextUuid]
    exact (h.loadedFresh origin horig key (by rw [hwork, hkey])).trans_le huuid
  case rowUnique =>
    intro a ha b hb key hka hkb
    rw [proceed_submissions] at ha hb
    rcases hrows a ha key hka with ⟨a', ha', hida, hsamea⟩ | ⟨hpend, hnew, hida⟩ <;>
      rcases hrows b hb key hkb with ⟨b', hb', hidb, hsameb⟩ | ⟨hpend', hnew', hidb⟩
    · rw [← hida, ← hidb]
      exact h.rowUnique a' ha' b' hb' key hsamea hsameb
    · exact absurd hsamea ((h.pending request hrequest hpend' key hnew').1 a' ha')
    · exact absurd hsameb ((h.pending request hrequest hpend key hnew).1 b' hb')
    · rw [hida, hidb]
  case newUnique =>
    intro a ha b hb key hka hkb
    obtain ⟨a', ha', hida, -, hnewa⟩ := horigin a ha
    obtain ⟨b', hb', hidb, -, hnewb⟩ := horigin b hb
    rw [← hida, ← hidb]
    exact h.newUnique a' ha' b' hb' key (hnewa.trans hka) (hnewb.trans hkb)
  case pending =>
    intro other hother hpend key hkey
    have hloaded : (∀ other ∈ s.requests, other.work.previousKey ≠ some key) →
        ∀ other ∈ (mid.proceed request phase reply).requests,
          other.work.previousKey ≠ some key := by
      intro hnone other hother
      obtain ⟨origin, horig, -, hwork, -⟩ := horigin other hother
      rw [← hwork]
      exact hnone origin horig
    rw [proceed_submissions]
    rcases (mem_proceed hmid).mp hother with ⟨hbefore, hne⟩ | ⟨next, hnext, rfl⟩
    · rw [hrequests] at hbefore
      obtain ⟨hrow, hnone⟩ := h.pending other hbefore hpend key hkey
      refine ⟨fun row' hrow' hcarries => ?_, hloaded hnone⟩
      rcases hrows row' hrow' key hcarries with ⟨row, hmem, -, hsame⟩ | ⟨-, hnew, -⟩
      · exact hrow row hmem hsame
      · exact hothers other hbefore hne key hkey hnew
    · obtain ⟨hpend', hsub⟩ := hpending next hnext hpend
      obtain ⟨hrow, hnone⟩ := h.pending request hrequest hpend' key hkey
      exact ⟨hsub ▸ hrow, hloaded hnone⟩
  case loadedRow =>
    intro other hother loaded metadata hwork key hkey row' hrow' hcarries
    rw [proceed_submissions] at hrow'
    obtain ⟨origin, horig, -, hsame, -⟩ := horigin other hother
    rcases hrows row' hrow' key hcarries with ⟨row, hrow, hid, hrowKey⟩ | ⟨hpend, hnew, -⟩
    · rw [← hid]
      exact h.loadedRow origin horig loaded metadata (hsame.trans hwork) key hkey row hrow hrowKey
    · refine absurd ?_ ((h.pending request hrequest hpend key hnew).2 origin horig)
      rw [hsame, hwork]
      exact hkey
  case replaced =>
    intro other hother submissionId hphase key hkey row' hrow' hcarries
    rw [proceed_submissions] at hrow'
    rcases (mem_proceed hmid).mp hother with ⟨hbefore, -⟩ | ⟨next, hnext, rfl⟩
    · rw [hrequests] at hbefore
      rcases hrows row' hrow' key hcarries with ⟨row, hrow, -, hsame⟩ | ⟨hpend, hnew, -⟩
      · exact h.replaced other hbefore submissionId hphase key hkey row hrow hsame
      · exact (h.pending request hrequest hpend key hnew).2 other hbefore
          (Request.previousKey_of_replacedKey hkey).1
    · obtain rfl : next = .dropping submissionId := hphase
      exact hdropping submissionId hnext key hkey row' hrow' hcarries

end KeysDistinct

/-- The invariant: keys are named as they should be, the committed ones have
their blob, and so do those about to be committed. -/
structure Intact (s : Service) : Prop where
  keys : s.KeysDistinct
  present : s.NoDangling
  published : ∀ request ∈ s.requests, request.phase = .committing →
    ∀ key, request.newKey = some key → s.storage.blobExists (.artifact key) = true

/-- A request moves on, over a store that still has the blobs it needs. -/
theorem Intact.move {request : Request} {phase : Option Phase} {reply : Reply} {mid : Service}
    (h : s.Intact) (hrequest : request ∈ s.requests) (hrequests : mid.requests = s.requests)
    (hkeys : (mid.proceed request phase reply).KeysDistinct)
    (hrows : ∀ row ∈ mid.submissions, ∀ key, row.artifactKey = some key →
      (∃ old ∈ s.submissions, old.artifactKey = some key) ∨
        request.phase = .committing ∧ request.newKey = some key)
    (hstore : ∀ key, s.storage.blobExists (.artifact key) = true →
      (∃ row ∈ mid.submissions, row.artifactKey = some key) ∨
        (∃ other ∈ s.requests, other.id ≠ request.id ∧ other.phase = .committing ∧
          other.newKey = some key) → mid.storage.blobExists (.artifact key) = true)
    (hnext : ∀ next, phase = some next → next = .committing → ∀ key,
      request.newKey = some key → mid.storage.blobExists (.artifact key) = true) :
    (mid.proceed request phase reply).Intact := by
  have hmid : request ∈ mid.requests := hrequests ▸ hrequest
  refine ⟨hkeys, ?_, ?_⟩
  · intro row hrow key hkey
    rw [proceed_submissions] at hrow
    rw [proceed_storage]
    refine hstore key ?_ (Or.inl ⟨row, hrow, hkey⟩)
    rcases hrows row hrow key hkey with ⟨old, hold, hsame⟩ | ⟨hphase, hnew⟩
    · exact h.present old hold key hsame
    · exact h.published request hrequest hphase key hnew
  · intro other hother hphase key hkey
    rw [proceed_storage]
    rcases (mem_proceed hmid).mp hother with ⟨hbefore, hne⟩ | ⟨next, hnext', rfl⟩
    · rw [hrequests] at hbefore
      exact hstore key (h.published other hbefore hphase key hkey)
        (Or.inr ⟨other, hbefore, hne, hphase, hkey⟩)
    · exact hnext next hnext' hphase key hkey

/-- A request moves on without a write to the rows. -/
theorem Intact.pass {request : Request} {phase : Option Phase} {reply : Reply} {mid : Service}
    (h : s.Intact) (hrequest : request ∈ s.requests) (hrequests : mid.requests = s.requests)
    (hsub : mid.submissions = s.submissions) (huuid : s.nextUuid ≤ mid.nextUuid)
    (hphase : ∀ next, phase = some next →
      next.pending = false ∧ ∀ submissionId, next ≠ .dropping submissionId)
    (hstore : ∀ key, s.storage.blobExists (.artifact key) = true →
      (∃ row ∈ s.submissions, row.artifactKey = some key) ∨
        (∃ other ∈ s.requests, other.id ≠ request.id ∧ other.phase = .committing ∧
          other.newKey = some key) → mid.storage.blobExists (.artifact key) = true) :
    (mid.proceed request phase reply).Intact := by
  refine h.move hrequest hrequests ?_ ?_ (hsub ▸ hstore) ?_
  · refine h.keys.move 0 hrequest hrequests huuid ?_ ?_ ?_
    · exact fun row hrow key hkey => Or.inl ⟨row, hsub ▸ hrow, rfl, hkey⟩
    · intro next hnext hpending
      rw [(hphase next hnext).1] at hpending
      cases hpending
    · exact fun submissionId hnext => absurd rfl ((hphase _ hnext).2 submissionId)
  · exact fun row hrow key hkey => Or.inl ⟨row, hsub ▸ hrow, hkey⟩
  · intro next hnext hcommitting
    have hpending := (hphase next hnext).1
    rw [hcommitting] at hpending
    cases hpending

/-- The commit of a row: it may now carry the new key of its request. -/
theorem Intact.write {request : Request} {outcome : CallOutcome} {reply : Reply}
    {submissionId : UUID} {submissions : Submissions} {nextUuid : UUID} (h : s.Intact)
    (hrequest : request ∈ s.requests) (hphase : request.phase = .committing)
    (huuid : s.nextUuid ≤ nextUuid)
    (hrows : ∀ row' ∈ submissions, ∀ key, row'.artifactKey = some key →
      (∃ row ∈ s.submissions, row.id = row'.id ∧ row.artifactKey = some key) ∨
        request.newKey = some key ∧ row'.id = submissionId)
    (hreplaced : ∀ key, request.replacedKey = some key →
      ∀ row ∈ submissions, row.artifactKey ≠ some key) :
    ({ s with submissions := submissions, nextUuid := nextUuid }.proceed request
      (request.afterWrite cfg outcome submissionId) reply).Intact := by
  have hpending : request.phase.pending = true := by rw [hphase]; rfl
  refine h.move hrequest rfl ?_ ?_ (fun _ hexists _ => hexists) ?_
  · refine h.keys.move submissionId hrequest rfl huuid ?_ ?_ (fun _ _ => hreplaced)
    · exact fun row hrow key hkey =>
        (hrows row hrow key hkey).imp_right (fun hnew => ⟨hpending, hnew⟩)
    · intro next hnext hnextPending
      rcases Request.afterWrite_cases hnext with rfl | rfl | rfl <;> cases hnextPending
  · intro row hrow key hkey
    rcases hrows row hrow key hkey with ⟨old, hold, -, hsame⟩ | ⟨hnew, -⟩
    · exact Or.inl ⟨old, hold, hsame⟩
    · exact Or.inr ⟨hphase, hnew⟩
  · intro next hnext hcommitting
    rcases Request.afterWrite_cases hnext with rfl | rfl | rfl <;> cases hcommitting

/-- A request starts, and publishes its artifact before it commits the key. -/
theorem Intact.start {work : Work} {upload : Option (ArtifactKey × Blob)} (h : s.Intact)
    (hstart : s.startRequest work upload = some s')
    (hloaded : ∀ loaded metadata, work = .rewrite loaded metadata → loaded ∈ s.submissions)
    (hfresh : ∀ key blob, upload = some (key, blob) → key.uploadId = s.nextUuid + 1) :
    s'.Intact := by
  obtain ⟨hmem, hsub, -, hstorage, -⟩ := mem_startRequest hstart
  refine ⟨h.keys.start hstart hloaded hfresh, ?_, ?_⟩
  · intro row hrow key hkey
    rw [hstorage]
    exact h.present row (hsub ▸ hrow) key hkey
  · intro request hrequest hphase key hkey
    rw [hstorage]
    rcases (hmem request).mp hrequest with hbefore | rfl
    · exact h.published request hbefore hphase key hkey
    · obtain ⟨artifact, hupload, -⟩ := Option.map_eq_some_iff.mp hkey
      simp only at hphase hupload
      simp [hupload] at hphase

/-- A row leaves CREATED and keeps its artifact. -/
theorem Intact.transition {row : SubmissionRow} {submissionId participantId : UUID}
    {target : SubmissionStatus} {now : Timestamp} (h : s.Intact)
    (htransition : s.submissions.transitionIfCreated submissionId participantId target now =
      some (row, s'.submissions))
    (hstorage : s'.storage = s.storage) (hrequests : s'.requests = s.requests)
    (huuid : s.nextUuid ≤ s'.nextUuid) : s'.Intact := by
  have hrows : ∀ row' ∈ s'.submissions, ∃ row ∈ s.submissions,
      row.id = row'.id ∧ row.artifactKey = row'.artifactKey :=
    fun _ hrow' => Submissions.origin_of_transition htransition hrow'
  refine ⟨h.keys.mono hrows (fun _ hrequest => hrequests ▸ hrequest) huuid, ?_, ?_⟩
  · intro row' hrow' key hkey
    obtain ⟨row, hrow, -, hsame⟩ := hrows row' hrow'
    rw [hstorage]
    exact h.present row hrow key (hsame.trans hkey)
  · rw [hrequests, hstorage]
    exact h.published

/-- A request publishes its artifact, and commits only if that succeeded. -/
theorem Intact.publish {request : Request} {key : ArtifactKey} {blob : Blob}
    {outcome : CallOutcome} {reply : Reply} (h : s.Intact) (hrequest : request ∈ s.requests)
    (hphase : request.phase = .publishing) (hupload : request.upload = some (key, blob)) :
    ({ s with
        storage :=
          if outcome.applied then s.storage.put (.artifact key) blob
          else s.storage }.proceed request
      (if outcome = CallOutcome.ok then some .committing else none) reply).Intact := by
  have hnew : request.newKey = some key := by rw [Request.newKey, hupload]; rfl
  have hkeep : ∀ other : ArtifactKey, s.storage.blobExists (.artifact other) = true →
      (if outcome.applied then s.storage.put (.artifact key) blob
        else s.storage).blobExists (.artifact other) = true := by
    intro other hexists
    split
    · exact Storage.blobExists_put_of hexists
    · exact hexists
  refine h.move hrequest rfl ?_ ?_ (fun other hexists _ => hkeep other hexists) ?_
  · refine h.keys.move 0 hrequest rfl le_rfl ?_ ?_ ?_
    · exact fun row hrow key hkey => Or.inl ⟨row, hrow, rfl, hkey⟩
    · exact fun _ _ _ => ⟨by rw [hphase]; rfl, rfl⟩
    · intro submissionId hnext
      split at hnext <;> cases hnext
  · exact fun row hrow key hkey => Or.inl ⟨row, hrow, hkey⟩
  · intro next hnext _ key' hkey'
    obtain rfl : key = key' := Option.some.inj (hnew.symm.trans hkey')
    split at hnext
    · rename_i hok
      simp [hok, CallOutcome.applied]
    · cases hnext

/-- A flush replaces the key the request has loaded. -/
theorem replaced_of_flush {request : Request} {loaded : SubmissionRow} {metadata : JsonDict}
    {now : Timestamp} (hkeys : s.KeysDistinct) (hrequest : request ∈ s.requests)
    (hwork : request.work = .rewrite loaded metadata) {key : ArtifactKey}
    (hreplaced : request.replacedKey = some key) :
    ∀ row ∈ s.submissions.flushEdit loaded (request.edited loaded metadata) now,
      row.artifactKey ≠ some key := by
  intro row' hrow' hkey
  obtain ⟨hprevious, new, hnew, hne⟩ := Request.previousKey_of_replacedKey hreplaced
  have hloaded : loaded.artifactKey = some key := by
    rw [hwork] at hprevious
    exact hprevious
  obtain ⟨row, hrow, rfl⟩ := Submissions.mem_flushEdit.mp hrow'
  by_cases hid : row.id = loaded.id
  · -- the row the key was loaded from has been given the new one
    rw [if_pos hid, SubmissionRow.writeChanges_artifactKey, Request.edited_artifactKey,
      hnew, Option.some_or, hloaded, if_neg (by simpa using hne)] at hkey
    exact hne (Option.some.inj hkey)
  · rw [if_neg hid] at hkey
    exact hid (hkeys.loadedRow request hrequest loaded metadata hwork key hloaded row hrow hkey)

/-- A request deletes a blob that no row and no commit to come refers to. -/
theorem Intact.delete {request : Request} {key : Option ArtifactKey} {outcome : CallOutcome}
    {phase : Option Phase} {reply : Reply} (h : s.Intact) (hrequest : request ∈ s.requests)
    (hphase : ∀ next, phase = some next →
      next.pending = false ∧ ∀ submissionId, next ≠ .dropping submissionId)
    (hspared : ∀ k, key = some k → outcome ≠ .failed →
      (∀ row ∈ s.submissions, row.artifactKey ≠ some k) ∧
        ∀ other ∈ s.requests, other.id ≠ request.id → other.phase = .committing →
          other.newKey ≠ some k) :
    ((s.deleteArtifact key outcome).proceed request phase reply).Intact := by
  refine h.pass hrequest (by simp) (by simp) (by simp) hphase ?_
  intro k hexists hneeded
  by_cases hfailed : outcome = .failed
  · simpa [deleteArtifact, hfailed, CallOutcome.applied] using hexists
  · rw [blobExists_deleteArtifact, hexists]
    intro hkey
    obtain ⟨hrows, hothers⟩ := hspared k hkey hfailed
    rcases hneeded with ⟨row, hrow, hcarries⟩ | ⟨other, hother, hne, hcommitting, hsame⟩
    · exact hrows row hrow hcarries
    · exact hothers other hother hne hcommitting hsame

/-- One step keeps the references intact, if no compensating delete hits a key
that a row carries. -/
theorem Intact.step {a : ServiceAction} (h : s.Intact) (hok : compensatesUnreferenced s a)
    (hstep : s.step cfg a = some s') : s'.Intact := by
  cases step_effect hstep with
  | answered reply =>
      refine ⟨h.keys.mono ?_ (fun _ hrequest => hrequest) (Nat.le_succ _), h.present, h.published⟩
      exact fun row hrow => ⟨row, hrow, rfl, rfl⟩
  | started hstart hloaded hfresh => exact h.start hstart hloaded hfresh
  | transitioned htransition htarget hjobs hstorage hrequests huuid =>
      exact h.transition htransition hstorage hrequests huuid
  | published hrequest hphase hupload => exact h.publish hrequest hphase hupload
  | @rejected request outcome now integrity hrequest hphase hnot =>
      refine h.pass hrequest rfl rfl le_rfl ?_ (fun _ hexists _ => hexists)
      intro next hnext
      cases hnext
      exact ⟨rfl, fun _ => by simp⟩
  | @inserted request outcome now new submissions hrequest hphase happlied hwork hadd =>
      refine h.write hrequest hphase (Nat.le_succ _) ?_ ?_
      · intro row hrow key hkey
        rcases (Submissions.mem_of_add hadd).mp hrow with hold | rfl
        · exact Or.inl ⟨row, hold, rfl, hkey⟩
        · exact Or.inr ⟨hkey, rfl⟩
      · intro key hreplaced
        have hprevious := (Request.previousKey_of_replacedKey hreplaced).1
        rw [hwork] at hprevious
        cases hprevious
  | @flushed request outcome now loaded metadata hrequest hphase happlied hwork =>
      refine h.write hrequest hphase le_rfl ?_
        (fun _ hreplaced => replaced_of_flush h.keys hrequest hwork hreplaced)
      intro row' hrow' key hkey
      obtain ⟨row, hrow, rfl⟩ := Submissions.mem_flushEdit.mp hrow'
      rcases Submissions.artifactKey_of_flush hkey with hold | ⟨hid, hedited, hchanged⟩
      · refine Or.inl ⟨row, hrow, ?_, hold⟩
        split <;> rfl
      · refine Or.inr ⟨Request.newKey_of_edited hedited hchanged, ?_⟩
        rw [if_pos hid]
        exact hid
  | @compensated request outcome integrity reply hrequest hphase =>
      refine h.delete hrequest (fun _ hnext => by cases hnext) ?_
      intro key hnew happlied
      constructor
      · intro row hrow hcarries
        rcases hok happlied request hrequest rfl row hrow with hnone | hdiffer
        · rw [hnew] at hnone
          cases hnone
        · exact hdiffer (hcarries.trans hnew.symm)
      · intro other hother hne _ hsame
        exact hne (h.keys.newUnique other hother request hrequest key hsame hnew)
  | @dropped request outcome submissionId hrequest hphase =>
      refine h.delete hrequest ?_ ?_
      · intro next hnext
        unfold Request.afterDrop at hnext
        split at hnext <;> cases hnext
        exact ⟨rfl, fun _ => by simp⟩
      · intro key hreplaced _
        refine ⟨h.keys.replaced request hrequest submissionId hphase key hreplaced, ?_⟩
        intro other hother _ hcommitting hsame
        have hpending : other.phase.pending = true := by rw [hcommitting]; rfl
        exact (h.keys.pending other hother hpending key hsame).2 request hrequest
          (Request.previousKey_of_replacedKey hreplaced).1
  | enqueued reply hrequest hkey hjobs =>
      exact h.pass hrequest rfl rfl (Nat.le_succ _) (fun _ hnext => by cases hnext)
        (fun _ hexists _ => hexists)
  | unqueued hrequest hkey hnot =>
      exact h.pass hrequest rfl rfl le_rfl (fun _ hnext => by cases hnext)
        (fun _ hexists _ => hexists)
  | @died request hrequest =>
      have hover : (s.proceed request none .raised).Intact :=
        h.pass hrequest rfl rfl le_rfl (fun _ hnext => by cases hnext)
          (fun _ hexists _ => hexists)
      refine ⟨hover.keys.mono (fun row hrow => ⟨row, hrow, rfl, rfl⟩) (fun _ hmem => hmem) le_rfl,
        hover.present, hover.published⟩

/-- A compensating delete of a key that a row carries leaves the row dangling. -/
theorem compensatesUnreferenced_of_noDangling {a : ServiceAction}
    (hstep : s.step cfg a = some s') (hnone : s'.NoDangling) : compensatesUnreferenced s a := by
  cases a with
  | compensate id outcome =>
      intro happlied request hrequest hid row hrow
      obtain ⟨found, hfound, hstep⟩ := Option.bind_eq_some_iff.mp hstep
      obtain ⟨hmem, hfoundId⟩ := Table.find?_eq_some_iff.mp hfound
      obtain rfl := Table.eq_of_key_eq hmem hrequest (hfoundId.trans hid.symm)
      obtain ⟨integrity, -, rfl⟩ := compensate_eq_some hstep
      cases hkey : found.newKey with
      | none => exact Or.inl rfl
      | some key =>
          refine Or.inr (fun hcarries => ?_)
          have hexists := hnone row (by simpa using hrow) key hcarries
          rw [proceed_storage, hkey, not_blobExists_deleteArtifact happlied] at hexists
          cases hexists
  | _ => trivial

/-- **No dangling reference.**  In every run in which no compensating delete hits
a key that a row carries, every committed artifact key has its blob; and from
every state of such a run, a step keeps this exactly when it is no such delete. -/
theorem no_dangling_reference
    (hreach : (submissionService cfg).Reach compensatesUnreferenced s) :
    s.NoDangling ∧
      ∀ a s', s.step cfg a = some s' → (s'.NoDangling ↔ compensatesUnreferenced s a) := by
  have hintact : s.Intact := by
    refine hreach.invariant ?_ (fun s a t hs hok hstep => hs.step hok hstep)
    intro s hstart
    obtain rfl : s = emptyService := hstart
    refine ⟨⟨?_, ?_, ?_, ?_, ?_, ?_, ?_, ?_⟩, ?_, ?_⟩ <;>
      exact fun row hrow => absurd hrow (Table.not_mem_empty row)
  exact ⟨hintact.present, fun a s' hstep =>
    ⟨compensatesUnreferenced_of_noDangling hstep, fun hok => (hintact.step hok hstep).present⟩⟩

/-- An artifact is attached at creation and replaced later. -/
def replaceRun : List ServiceAction :=
  [.create participant 1 none none (some textUpload) (.ok ()),
   .publish 0 .ok, .commit 0 .ok 10, .enqueue 0 .ok 20,
   .attachIncoming participant 2 textUpload,
   .publish 4 .ok, .commit 4 .ok 30, .drop 4 .ok, .enqueue 4 .ok 40]

/-- The commit of a creation is applied, but its acknowledgement is lost. -/
def lostCommitRun : List ServiceAction :=
  [.create participant 1 none none (some textUpload) (.ok ()),
   .publish 0 .ok, .commit 0 .lost 10, .compensate 0 .ok]

/-- `no_dangling_reference` after a replace: the row carries the second key. -/
theorem no_dangling_reference_replaced :
    ∃ s, (submissionService defaultConfig).Reach compensatesUnreferenced s ∧
      (∃ row ∈ s.submissions, row.artifactKey = some ⟨1, 7, 5, ".txt"⟩) ∧ s.NoDangling := by
  obtain ⟨s, hreach, htest⟩ : ∃ s,
      (submissionService defaultConfig).Reach compensatesUnreferenced s ∧
      s.submissions.rows.any (fun row => row.artifactKey = some ⟨1, 7, 5, ".txt"⟩) = true :=
    System.reach_of_test emptyService replaceRun _ rfl (by decide)
  obtain ⟨row, hrow, hkey⟩ := List.any_eq_true.mp htest
  exact ⟨s, hreach, ⟨row, hrow, of_decide_eq_true hkey⟩, (no_dangling_reference hreach).1⟩

/-- **A dangling reference.**  The row carries the key, and the blob is gone. -/
theorem dangling_reference :
    ∃ s, (submissionService defaultConfig).Reach always s ∧
      ∃ row ∈ s.submissions, ∃ key, row.artifactKey = some key ∧
        s.storage.blobExists (.artifact key) = false := by
  obtain ⟨s, hreach, htest⟩ : ∃ s, (submissionService defaultConfig).Reach always s ∧
      s.submissions.rows.any (fun row => row.artifactKey.any (fun key =>
        !s.storage.blobExists (.artifact key))) = true :=
    System.reach_of_test emptyService lostCommitRun _ rfl (by decide)
  obtain ⟨row, hrow, hkey⟩ := List.any_eq_true.mp htest
  obtain ⟨key, hkey, hgone⟩ := (Option.any_eq_true ..).mp hkey
  exact ⟨s, hreach, row, hrow, key, hkey, by simpa using hgone⟩

end Service

end ChallengeForge
