import ChallengeForge.IngestionCompleteness
import ChallengeForge.IngestionLifecycle
import ChallengeForge.LexicalRetrieval
import ChallengeForge.LineProvenance
import ChallengeForge.TableCounting

/-!
# What a retrieved chunk says, and where it stands

The platform uploads an artifact, ingests it and retrieves from it; a retrieved chunk
cites offsets and lines of `canonical.txt`.

* `Attributed` — in every state of every run the chunk rows name a job and its artifact,
  and a stored `canonical.txt` holds the canonical text of that artifact;
* `retrieved_cited` — whatever a search finds is, to the character and to the line, a
  passage of the canonical text of its artifact, which `canonical.txt` holds;
* `retrieval_ranks` — a search is a selection of one ranking, cut at `top_k`, unless the
  database refuses its statement.
-/

namespace ChallengeForge

open Keyed Labelled

/-- The canonical document of an artifact that reads as text. -/
def DocumentOf (storage : Storage) (key : ArtifactKey) (doc : CanonicalDocument) : Prop :=
  ∃ blob text, storage.get (.artifact key) = some blob ∧ Utf8.decode blob.data = some text ∧
    doc = normalizeToCanonical text

/-- What is parsed from an artifact is its document. -/
theorem documentOf_of_parseArtifact {settings : IngestionSettings} {job : IngestionJobRow}
    {storage : Storage} {artifact : ParsedArtifact}
    (h : parseArtifact settings job (storage.get (.artifact job.artifactKey)) = .ok artifact) :
    DocumentOf storage job.artifactKey artifact.canonical := by
  unfold parseArtifact at h
  cases hraw : storage.get (.artifact job.artifactKey) with
  | none => simp [hraw] at h
  | some blob =>
      simp only [hraw] at h
      split at h
      · cases h
      · split at h
        · cases h
        · cases hdecode : Utf8.decode blob.data with
          | none => simp [hdecode] at h
          | some text =>
              simp only [hdecode] at h
              split at h
              · cases h
              · cases h
                exact ⟨blob, text, hraw, hdecode, rfl⟩

namespace Ingestion

variable {settings : IngestionSettings} {s s' : Ingestion} {workerId : String}

/-! ## What a step does to blobs, chunks and workers -/

/-- A step leaves the storage, publishes a new artifact, writes an output of a job that
a worker holds, or deletes an output. -/
inductive StorageMove (s s' : Ingestion) : Prop
  | kept (hstorage : s'.storage = s.storage)
  | uploaded {key : ArtifactKey} {blob : Blob}
      (hfresh : s.storage.blobExists (.artifact key) = false)
      (hstorage : s'.storage = s.storage.put (.artifact key) blob)
  | published {workerId : String} {job : IngestionJobRow} {output : Output} {blob : Blob}
      (hjob : (s.phase workerId).job? = some job)
      (hblob : output = .canonical → ∃ artifact, s.phase workerId = .parsed job artifact ∧
        blob = canonicalBlob artifact)
      (hstorage : s'.storage = s.storage.put (output.key job.id) blob)
  | deleted {output : Output} {jobId : UUID}
      (hstorage : s'.storage = s.storage.delete (output.key jobId))

/-- The chunk row is one of those a worker stores that has processed its job. -/
def Stored (s : Ingestion) (chunk : DocumentChunkRow) : Prop :=
  ∃ workerId job result, s.phase workerId = .processed job result ∧
    chunk.ingestionJobId = job.id ∧ chunk.submissionId = job.submissionId ∧
    chunk.artifactKey = job.artifactKey ∧ chunk.parserVersion = result.parserVersion ∧
    chunk.chunkerVersion = result.chunkerVersion ∧ chunk.toChunkDraft ∈ result.chunks

/-- The chunks of a phase were held before for the same job, or the artifact was just read. -/
def Drawn (settings : IngestionSettings) (storage : Storage) (before phase : WorkerPhase) : Prop :=
  ∀ drafts, phase.chunks? = some drafts →
    (phase.job? = before.job? ∧ before.chunks? = some drafts) ∨
    ∃ job, phase.job? = some job ∧ artifactChunks settings storage job.artifactKey = some drafts

/-- Where the blobs, the chunks and the results of a state come from. -/
structure Carries (settings : IngestionSettings) (s s' : Ingestion) : Prop where
  storage : StorageMove s s'
  parsed : ∀ workerId job artifact, s'.phase workerId = .parsed job artifact →
    s.phase workerId = .parsed job artifact ∨
      parseArtifact settings job (s.storage.get (.artifact job.artifactKey)) = .ok artifact
  processed : ∀ workerId job result, s'.phase workerId = .processed job result →
    s.phase workerId = .processed job result ∨
      ∃ artifact, result = ingestResult settings job artifact
  drafts : ∀ workerId, Drawn settings s.storage (s.phase workerId) (s'.phase workerId)
  chunks : ∀ chunk ∈ s'.chunks, chunk ∈ s.chunks ∨ s.Stored chunk

/-- A phase in which a worker holds no chunks, hence neither a document nor a result. -/
def Bare (phase : WorkerPhase) : Prop := phase.chunks? = none

/-- A worker that cleans up is bare. -/
theorem bare_cleanup (todo : List CleanupCall) : Bare (.cleanup todo) := by
  cases todo <;> rfl

/-- So is a worker that handles an error. -/
theorem bare_handling (job : IngestionJobRow) (error : IngestError) :
    Bare (.handling job error) := by
  cases error <;> rfl

/-- A bare worker has not parsed. -/
theorem Bare.ne_parsed {phase : WorkerPhase} (h : Bare phase) (job : IngestionJobRow)
    (artifact : ParsedArtifact) : phase ≠ .parsed job artifact := by
  rintro rfl
  cases h

/-- A bare worker has not processed. -/
theorem Bare.ne_processed {phase : WorkerPhase} (h : Bare phase) (job : IngestionJobRow)
    (result : IngestResult) : phase ≠ .processed job result := by
  rintro rfl
  cases h

/-- A bare worker holds no chunks to account for. -/
theorem Drawn.of_bare {storage : Storage} {before phase : WorkerPhase} (h : Bare phase) :
    Drawn settings storage before phase := by
  intro drafts hheld
  rw [Bare] at h
  rw [h] at hheld
  cases hheld

/-- A worker that stays where it is holds what it held. -/
theorem Drawn.refl (storage : Storage) (phase : WorkerPhase) :
    Drawn settings storage phase phase :=
  fun _ hheld => Or.inl ⟨rfl, hheld⟩

/-- A worker moves on, and what it then holds it has just read or computed. -/
theorem Carries.of_goto {phase : WorkerPhase} (hstorage : StorageMove s s')
    (hphase : s'.phase = Function.update s.phase workerId phase)
    (hparsed : ∀ job artifact, phase = .parsed job artifact →
      parseArtifact settings job (s.storage.get (.artifact job.artifactKey)) = .ok artifact)
    (hprocessed : ∀ job result, phase = .processed job result →
      ∃ artifact, result = ingestResult settings job artifact)
    (hdrafts : Drawn settings s.storage (s.phase workerId) phase)
    (hchunks : ∀ chunk ∈ s'.chunks, chunk ∈ s.chunks ∨ s.Stored chunk) :
    Carries settings s s' := by
  refine ⟨hstorage, ?_, ?_, ?_, hchunks⟩
  · intro other job artifact hother
    rw [hphase, Function.update_apply] at hother
    split at hother
    · exact Or.inr (hparsed job artifact hother)
    · exact Or.inl hother
  · intro other job result hother
    rw [hphase, Function.update_apply] at hother
    split at hother
    · exact Or.inr (hprocessed job result hother)
    · exact Or.inl hother
  · intro other
    rw [hphase, Function.update_apply]
    split
    · rename_i hsame
      exact hsame ▸ hdrafts
    · exact .refl _ _

/-- … or it holds nothing, and the chunks of its job are at most deleted. -/
theorem Carries.of_bare {phase : WorkerPhase} (hbare : Bare phase) (hstorage : StorageMove s s')
    (hphase : s'.phase = Function.update s.phase workerId phase)
    (hchunks : ∀ chunk ∈ s'.chunks, chunk ∈ s.chunks) : Carries settings s s' :=
  .of_goto hstorage hphase (fun job artifact h => absurd h (hbare.ne_parsed job artifact))
    (fun job result h => absurd h (hbare.ne_processed job result)) (.of_bare hbare)
    (fun chunk h => Or.inl (hchunks chunk h))

/-- A put carries on what its worker was doing. -/
theorem carries_put {job : IngestionJobRow} {output : Output} {blob : Blob}
    {outcome : CallOutcome} {message : String} {next : WorkerPhase}
    (hjob : (s.phase workerId).job? = some job)
    (hblob : output = .canonical → ∃ artifact, s.phase workerId = .parsed job artifact ∧
      blob = canonicalBlob artifact)
    (hparsed : ∀ job artifact, next ≠ .parsed job artifact)
    (hprocessed : ∀ job result, next = .processed job result →
      ∃ artifact, result = ingestResult settings job artifact)
    (hdrafts : Drawn settings s.storage (s.phase workerId) next) :
    Carries settings s (s.put workerId job output blob outcome message next) := by
  have hstorage : StorageMove s (s.put workerId job output blob outcome message next) := by
    unfold Ingestion.put
    by_cases happlied : outcome.applied = true
    · rw [if_pos happlied]
      exact .published hjob hblob rfl
    · rw [if_neg happlied]
      exact .kept rfl
  have hbare := bare_handling job (.unexpected message)
  refine .of_goto hstorage rfl ?_ ?_ ?_ (fun _ h => Or.inl h)
  · intro other artifact hphase
    split at hphase
    · exact absurd hphase (hparsed other artifact)
    · exact absurd hphase (hbare.ne_parsed other artifact)
  · intro other result hphase
    split at hphase
    · exact hprocessed other result hphase
    · exact absurd hphase (hbare.ne_processed other result)
  · split
    · exact hdrafts
    · exact .of_bare hbare

/-- A success stores the chunks its worker holds. -/
theorem carries_succeed {now : Timestamp} (h : s.succeed workerId now = some s') :
    Carries settings s s' := by
  have hidle : Bare .idle := rfl
  unfold succeed at h
  split at h
  · rename_i job result hphase
    split at h
    · cases h
      refine .of_bare ?_ (.kept rfl) rfl (fun _ hchunk => hchunk)
      rfl
    · rename_i chunks hreplace
      cases h
      refine .of_goto (.kept rfl) rfl
        (fun job artifact => (absurd · (hidle.ne_parsed job artifact)))
        (fun job result => (absurd · (hidle.ne_processed job result))) (.of_bare hidle) ?_
      intro chunk hchunk
      rw [Table.mem_iff] at hchunk
      change chunk ∈ chunks.rows at hchunk
      rw [DocumentChunks.rows_of_replaceForJob hreplace] at hchunk
      rcases List.mem_append.mp hchunk with hold | hnew
      · exact Or.inl (Table.mem_delete.mp hold).1
      · right
        obtain ⟨i, hi, rfl⟩ := List.mem_mapIdx.mp hnew
        exact ⟨workerId, job, result, hphase, rfl, rfl, rfl, rfl, rfl, List.getElem_mem hi⟩
  · cases h

/-- **Inversion.**  Whatever a step does, blobs, chunks and results come from somewhere. -/
theorem carries_of_step {a : WorkerAction} (h : s.step settings a = some s') :
    Carries settings s s' := by
  have hsame : Carries settings s s :=
    ⟨.kept rfl, fun _ _ _ => Or.inl, fun _ _ _ => Or.inl, fun _ => .refl _ _, fun _ => Or.inl⟩
  cases a with
  | upload key blob =>
      simp only [step, upload] at h
      split at h
      · cases h
      · rename_i hfresh
        cases h
        exact ⟨.uploaded (by simpa using hfresh) rfl, hsame.parsed, hsame.processed, hsame.drafts,
          hsame.chunks⟩
  | enqueue submissionId key now =>
      obtain ⟨jobs, -, rfl⟩ := Option.map_eq_some_iff.mp h
      exact ⟨.kept rfl, hsame.parsed, hsame.processed, hsame.drafts, hsame.chunks⟩
  | claim workerId locked now =>
      simp only [step, claim] at h
      split at h
      · obtain ⟨claimed, -, rfl⟩ := Option.map_eq_some_iff.mp h
        refine .of_bare ?_ (.kept rfl) rfl (fun _ hchunk => hchunk)
        rfl
      · cases h
  | parse workerId raised =>
      simp only [step, parse] at h
      split at h
      · cases h
        exact .of_bare (bare_handling _ _) (.kept rfl) rfl (fun _ hchunk => hchunk)
      · split at h
        · cases h
          exact .of_bare (bare_handling _ _) (.kept rfl) rfl (fun _ hchunk => hchunk)
        · rename_i artifact hparsed
          cases h
          refine .of_goto (.kept rfl) rfl ?_ (fun _ _ hnot => by cases hnot) ?_ (fun _ => Or.inl)
          · intro job artifact hphase
            cases hphase
            exact hparsed
          · intro drafts hdrafts
            cases hdrafts
            exact Or.inr ⟨_, rfl, parseArtifact_eq_ok hparsed⟩
      · cases h
  | putCanonical workerId outcome message =>
      simp only [step, putCanonical] at h
      split at h
      · rename_i job artifact hphase
        cases h
        exact carries_put (by rw [hphase]; rfl) (fun _ => ⟨artifact, hphase, rfl⟩)
          (fun _ _ hnot => by cases hnot) (fun _ _ hnot => by cases hnot)
          (by rw [hphase]; exact fun _ hheld => Or.inl ⟨rfl, hheld⟩)
      · cases h
  | putResult workerId outcome message =>
      simp only [step, putResult] at h
      split at h
      · rename_i job artifact hphase
        cases h
        refine carries_put (by rw [hphase]; rfl) (fun hnot => by cases hnot)
          (fun _ _ hnot => by cases hnot) ?_
          (by rw [hphase]; exact fun _ hheld => Or.inl ⟨rfl, hheld⟩)
        intro other result hnext
        cases hnext
        exact ⟨artifact, rfl⟩
      · cases h
  | succeed workerId now => exact carries_succeed h
  | fail workerId now =>
      simp only [step, fail] at h
      split at h
      · cases h
        exact .of_bare (bare_cleanup _) (.kept rfl) rfl
          (fun _ hchunk => (Table.mem_delete.mp hchunk).1)
      · cases h
  | retry workerId now =>
      simp only [step, retry] at h
      split at h
      · cases h
        exact .of_bare (bare_cleanup _) (.kept rfl) rfl
          (fun _ hchunk => (Table.mem_delete.mp hchunk).1)
      · cases h
  | recover workerId clock now =>
      simp only [step, recover] at h
      split at h
      · cases h
        exact .of_bare (bare_cleanup _) (.kept rfl) rfl (fun _ hchunk => hchunk)
      · cases h
  | cleanup workerId outcome =>
      simp only [step, cleanup] at h
      split at h
      · rename_i output jobId rest hphase
        cases h
        refine .of_bare (bare_cleanup _) ?_ rfl (fun _ hchunk => hchunk)
        by_cases happlied : outcome.applied = true
        · exact .deleted (if_pos happlied)
        · exact .kept (if_neg happlied)
      · rename_i jobId rest hphase
        cases h
        refine .of_bare ?_ (.kept rfl) rfl ?_
        · split
          · exact bare_cleanup _
          · rfl
        · intro chunk hchunk
          change chunk ∈ (if outcome.applied then s.chunks.deleteForJob jobId else s.chunks)
            at hchunk
          split at hchunk
          · exact (Table.mem_delete.mp hchunk).1
          · exact hchunk
      · cases h
  | die workerId =>
      cases h
      refine .of_bare ?_ (.kept rfl) rfl (fun _ hchunk => hchunk)
      trivial

/-! ## Where everything comes from -/

/-- The rows keep what a chunk names of its job. -/
def SameSource (row row' : IngestionJobRow) : Prop :=
  row'.artifactKey = row.artifactKey ∧ row'.submissionId = row.submissionId

/-- No step changes what a job was made from. -/
theorem JobStep.sameSource {maxAttempts : Nat} {row row' : IngestionJobRow}
    (h : JobStep maxAttempts row row') : SameSource row row' := by
  cases h with
  | claimed workerId now hqueued => exact ⟨rfl, rfl⟩
  | settled hrunning hsettles => cases hsettles <;> exact ⟨rfl, rfl⟩

/-- A job of this id has this artifact and this submission. -/
def Names (jobs : IngestionJobs) (jobId submissionId : UUID) (key : ArtifactKey) : Prop :=
  ∃ row ∈ jobs, row.id = jobId ∧ row.submissionId = submissionId ∧ row.artifactKey = key

/-- A job goes on naming its source. -/
theorem Names.keep {jobs jobs' : IngestionJobs} {jobId submissionId : UUID} {key : ArtifactKey}
    (h : Names jobs jobId submissionId key) (hkeeps : Table.Keeps SameSource jobs jobs') :
    Names jobs' jobId submissionId key := by
  obtain ⟨row, hrow, rfl, rfl, rfl⟩ := h
  obtain ⟨row', hrow', hid, hkey, hsubmission⟩ := hkeeps row hrow
  exact ⟨row', hrow', hid, hsubmission, hkey⟩

/-- Chunks name a job and its artifact, a stored `canonical.txt` is the canonical text of
that artifact, and workers hold documents of artifacts. -/
structure Attributed (settings : IngestionSettings) (s : Ingestion) : Prop where
  held : s.Held
  jobs : ∀ workerId job, (s.phase workerId).job? = some job →
    Names s.jobs job.id job.submissionId job.artifactKey
  documents : ∀ workerId job artifact, s.phase workerId = .parsed job artifact →
    DocumentOf s.storage job.artifactKey artifact.canonical
  drafts : ∀ workerId job drafts, (s.phase workerId).job? = some job →
    (s.phase workerId).chunks? = some drafts →
      artifactChunks settings s.storage job.artifactKey = some drafts
  results : ∀ workerId job result, s.phase workerId = .processed job result →
    result.parserVersion = parserVersion ∧ result.chunkerVersion = chunkerVersion
  chunks : ∀ chunk ∈ s.chunks,
    Names s.jobs chunk.ingestionJobId chunk.submissionId chunk.artifactKey ∧
      chunk.parserVersion = parserVersion ∧ chunk.chunkerVersion = chunkerVersion ∧
      ∃ drafts, artifactChunks settings s.storage chunk.artifactKey = some drafts ∧
        chunk.toChunkDraft ∈ drafts
  canonical : ∀ jobId blob, s.storage.get (.canonical jobId) = some blob →
    ∃ submissionId key doc, Names s.jobs jobId submissionId key ∧ DocumentOf s.storage key doc ∧
      blob.data = Utf8.encode doc.text

/-- Once published, an artifact stays. -/
theorem StorageMove.artifact (h : StorageMove s s') {key : ArtifactKey} {blob : Blob}
    (hget : s.storage.get (.artifact key) = some blob) :
    s'.storage.get (.artifact key) = some blob := by
  cases h with
  | kept hstorage => rwa [hstorage]
  | @uploaded other blob' hfresh hstorage =>
      have hne : BlobKey.artifact key ≠ BlobKey.artifact other := by
        intro hsame
        rw [← hsame, Storage.blobExists, hget] at hfresh
        cases hfresh
      rwa [hstorage, Storage.get_put_of_ne hne]
  | published hjob hblob hstorage =>
      rwa [hstorage, Storage.get_put_of_ne Output.key_ne_artifact]
  | deleted hstorage =>
      rwa [hstorage, Storage.get_delete_of_ne Output.key_ne_artifact]

/-- A move of the storage keeps the documents that outputs hold. -/
theorem StorageMove.documentOf (h : StorageMove s s') {key : ArtifactKey}
    {doc : CanonicalDocument} (hdoc : DocumentOf s.storage key doc) :
    DocumentOf s'.storage key doc := by
  obtain ⟨blob, text, hget, hrest⟩ := hdoc
  exact ⟨blob, text, h.artifact hget, hrest⟩

/-- It keeps the chunks of artifacts. -/
theorem StorageMove.artifactChunks (h : StorageMove s s') {key : ArtifactKey}
    {drafts : List ChunkDraft}
    (hdrafts : artifactChunks settings s.storage key = some drafts) :
    artifactChunks settings s'.storage key = some drafts := by
  obtain ⟨text, hread, hyields⟩ := Option.bind_eq_some_iff.mp hdrafts
  obtain ⟨blob, hget, hdecode⟩ := Option.bind_eq_some_iff.mp hread
  unfold ChallengeForge.artifactChunks
  rw [h.artifact hget, Option.bind_some, hdecode, Option.bind_some]
  exact hyields

/-- A `canonical.txt` was there before, or a worker writes the one of its job. -/
theorem StorageMove.canonical (h : StorageMove s s') {jobId : UUID} {blob : Blob}
    (hget : s'.storage.get (.canonical jobId) = some blob) :
    s.storage.get (.canonical jobId) = some blob ∨
      ∃ workerId job artifact, s.phase workerId = .parsed job artifact ∧ job.id = jobId ∧
        blob = canonicalBlob artifact := by
  cases h with
  | kept hstorage => exact Or.inl (hstorage ▸ hget)
  | uploaded hfresh hstorage =>
      rw [hstorage, Storage.get_put_of_ne (by simp)] at hget
      exact Or.inl hget
  | @published workerId job output blob' hjob hblob hstorage =>
      rw [hstorage] at hget
      by_cases hkey : BlobKey.canonical jobId = output.key job.id
      · obtain ⟨rfl, rfl⟩ := Output.key_inj.mp (show Output.canonical.key jobId = _ from hkey)
        rw [hkey, Storage.get_put_self] at hget
        obtain rfl : blob' = blob := Option.some.inj hget
        obtain ⟨artifact, hphase, rfl⟩ := hblob rfl
        exact Or.inr ⟨workerId, job, artifact, hphase, rfl, rfl⟩
      · rw [Storage.get_put_of_ne hkey] at hget
        exact Or.inl hget
  | @deleted output other hstorage =>
      rw [hstorage] at hget
      by_cases hkey : BlobKey.canonical jobId = output.key other
      · rw [hkey, Storage.get_delete_self] at hget
        cases hget
      · rw [Storage.get_delete_of_ne hkey] at hget
        exact Or.inl hget

/-- **One step keeps the attributions.** -/
theorem Attributed.step {a : WorkerAction} (h : s.Attributed settings)
    (hstep : s.step settings a = some s') : s'.Attributed settings := by
  have hcarries := carries_of_step hstep
  have hmove := jobsMove_of_step h.held hstep
  have hkeeps : Table.Keeps SameSource s.jobs s'.jobs :=
    hmove.evolves.keeps (fun _ => ⟨rfl, rfl⟩) (fun _ _ => JobStep.sameSource)
  refine ⟨h.held.step hmove, ?_, ?_, ?_, ?_, ?_, ?_⟩
  · intro workerId job hjob
    cases hmove with
    | @claimed claimer row now hrow hqueued hjobs hphase =>
        rw [hphase, Function.update_apply] at hjob
        split at hjob
        · cases hjob
          exact Names.keep ⟨row, hrow, rfl, rfl, rfl⟩ hkeeps
        · exact (h.jobs workerId job hjob).keep hkeeps
    | settled hrows hheld => exact (h.jobs workerId job (hheld workerId job hjob)).keep hkeeps
  · intro workerId job artifact hphase
    rcases hcarries.parsed workerId job artifact hphase with hold | hparsed
    · exact hcarries.storage.documentOf (h.documents workerId job artifact hold)
    · exact hcarries.storage.documentOf (documentOf_of_parseArtifact hparsed)
  · intro workerId job drafts hjob hheld
    rcases hcarries.drafts workerId drafts hheld with ⟨hsame, hold⟩ | ⟨job', hjob', hdrawn⟩
    · exact hcarries.storage.artifactChunks (h.drafts workerId job drafts (hsame ▸ hjob) hold)
    · obtain rfl : job' = job := Option.some.inj (hjob'.symm.trans hjob)
      exact hcarries.storage.artifactChunks hdrawn
  · intro workerId job result hphase
    rcases hcarries.processed workerId job result hphase with hold | ⟨artifact, rfl⟩
    · exact h.results workerId job result hold
    · exact ⟨rfl, rfl⟩
  · intro chunk hchunk
    rcases hcarries.chunks chunk hchunk with hold | hstored
    · obtain ⟨hnames, hparser, hchunker, drafts, hdrafts, hmem⟩ := h.chunks chunk hold
      exact ⟨hnames.keep hkeeps, hparser, hchunker, drafts,
        hcarries.storage.artifactChunks hdrafts, hmem⟩
    · obtain ⟨workerId, job, result, hphase, hid, hsubmission, hkey, hparser, hchunker, hmem⟩ :=
        hstored
      obtain ⟨hparser', hchunker'⟩ := h.results workerId job result hphase
      have hjob : (s.phase workerId).job? = some job := by
        rw [hphase]
        rfl
      have hdrafts := h.drafts workerId job result.chunks hjob (by rw [hphase]; rfl)
      rw [hid, hsubmission, hkey, hparser, hchunker]
      exact ⟨(h.jobs workerId job hjob).keep hkeeps, hparser', hchunker', result.chunks,
        hcarries.storage.artifactChunks hdrafts, hmem⟩
  · intro jobId blob hget
    rcases hcarries.storage.canonical hget with hold | hwritten
    · obtain ⟨submissionId, key, doc, hnames, hdoc, hdata⟩ := h.canonical jobId blob hold
      exact ⟨submissionId, key, doc, hnames.keep hkeeps, hcarries.storage.documentOf hdoc, hdata⟩
    · obtain ⟨workerId, job, artifact, hphase, rfl, rfl⟩ := hwritten
      exact ⟨job.submissionId, job.artifactKey, artifact.canonical,
        (h.jobs workerId job (by rw [hphase]; rfl)).keep hkeeps,
        hcarries.storage.documentOf (h.documents workerId job artifact hphase), rfl⟩

end Ingestion

/-! ## One statement for the three versions -/

namespace TextSearch

variable {search : TextSearch} {store : RetrievalStore} {query : List Char} {topK : Int}
  {filters : RetrievalFilters} {version : String} {rows : List RetrievedChunk}

/-- The versions `retrieve` answers. -/
def RETRIEVAL_VERSIONS : List String :=
  ["cf-lex-fts-1", "cf-lex-fts-simple-1", "cf-lex-fts-struct-1"]

/-- The match of a version. -/
def matchesOf (search : TextSearch) (version : String) (q : List Char) :
    DocumentChunkRow → Bool :=
  if version = "cf-lex-fts-simple-1" then search.matchesSimple q
  else if version = "cf-lex-fts-struct-1" then search.structMatches q
  else search.matchesEnglish q

/-- The score of a version. -/
def scoreOf (search : TextSearch) (version : String) (q : List Char) : DocumentChunkRow → Rat :=
  if version = "cf-lex-fts-simple-1" then search.rankSimple q
  else if version = "cf-lex-fts-struct-1" then search.structScore q
  else search.rankEnglish q

/-- Every version is `search` with its own match and score. -/
theorem retrieve_eq (hversion : version ∈ RETRIEVAL_VERSIONS) (htopK : 1 ≤ topK) :
    search.retrieve store query topK filters version = .ok (if normalizeQuery query = [] then []
      else store.search version (search.matchesOf version (normalizeQuery query))
        (search.scoreOf version (normalizeQuery query)) topK filters) := by
  unfold retrieve
  rw [if_neg (not_lt.mpr htopK)]
  by_cases hquery : normalizeQuery query = []
  · simp [hquery]
  · simp only [RETRIEVAL_VERSIONS, List.mem_cons, List.not_mem_nil, or_false] at hversion
    rcases hversion with rfl | rfl | rfl <;>
      simp [hquery, matchesOf, scoreOf, retrieveFts, retrieveSimple, retrieveStruct]

end TextSearch

/-! ## Citations -/

/-- The exceptions of `retrieve`: its own, and that of its statement. -/
inductive RetrievalError
  | value (message : String)
  | database
  deriving DecidableEq

/-- What the database raises on: U+0000 in a text, a limit that is no `bigint`, and a query
too large for a `tsquery` of the version, which only the database knows (`fits`). -/
def TextSearch.refuses (fits : String → List Char → Bool) (version : String) (q : List Char)
    (topK : Int) (filters : RetrievalFilters) : Bool :=
  decide ('\x00' ∈ q) || !fits version q || decide (2 ^ 63 ≤ topK) ||
    filters.artifactKey.any (fun key => decide ('\x00' ∈ key.path.toList))

/-- `retrieve`, where the statement of a query raises. -/
def TextSearch.retrieveOrRaise (search : TextSearch) (fits : String → List Char → Bool)
    (store : RetrievalStore) (query : List Char) (topK : Int) (filters : RetrievalFilters)
    (version : String) : Except RetrievalError (List RetrievedChunk) :=
  match search.retrieve store query topK filters version with
  | .error message => .error (.value message)
  | .ok rows =>
      -- an empty query makes no statement
      if normalizeQuery query ≠ [] ∧ refuses fits version (normalizeQuery query) topK filters then
        .error .database
      else .ok rows

/-- The filters, read off a result. -/
def RetrievalFilters.allows (filters : RetrievalFilters) (row : RetrievedChunk) : Bool :=
  filters.submissionId.all (fun id => row.submissionId = id) &&
    filters.artifactKey.all (fun key => row.artifactKey = key) &&
    filters.ingestionJobId.all (fun id => row.ingestionJobId = id)

/-- A result stands before another: `ORDER BY score DESC, c.id ASC`. -/
def RetrievedChunk.Precedes (a b : RetrievedChunk) : Prop :=
  b.score < a.score ∨ a.score = b.score ∧ a.chunkId ≤ b.chunkId

instance scoreLe_total (score : DocumentChunkRow → Rat) : Std.Total (scoreLe score) where
  total a b := by
    rcases lt_trichotomy (score a) (score b) with h | h | h
    · exact Or.inr (Or.inl h)
    · rcases Nat.le_total a.id b.id with hid | hid
      · exact Or.inl (Or.inr ⟨h, hid⟩)
      · exact Or.inr (Or.inr ⟨h.symm, hid⟩)
    · exact Or.inl (Or.inl h)

instance scoreLe_trans (score : DocumentChunkRow → Rat) :
    IsTrans DocumentChunkRow (scoreLe score) where
  trans a b c hab hbc := by
    rcases hab with hab | ⟨hab, hid⟩
    · rcases hbc with hbc | ⟨hbc, -⟩
      · exact Or.inl (hbc.trans hab)
      · exact Or.inl (hbc ▸ hab)
    · rcases hbc with hbc | ⟨hbc, hid'⟩
      · exact Or.inl (hab ▸ hbc)
      · exact Or.inr ⟨hab.trans hbc, hid.trans hid'⟩

namespace TextSearch

/-- Everything a query finds, in the order of the scores. -/
def ranking (search : TextSearch) (store : RetrievalStore) (version : String) (q : List Char) :
    List RetrievedChunk :=
  (store.chunks.orderBy (scoreLe (search.scoreOf version q)) (fun chunk =>
    store.searchable chunk && search.matchesOf version q chunk)).map
      (fun chunk => .ofRow version (search.scoreOf version q chunk) chunk)

variable {search : TextSearch} {store : RetrievalStore} {version : String} {q : List Char}

/-- A search under filters selects from the ranking, and cuts it. -/
theorem search_eq_ranking (topK : Int) (filters : RetrievalFilters) :
    store.search version (search.matchesOf version q) (search.scoreOf version q) topK filters =
      ((search.ranking store version q).filter filters.allows).take topK.toNat := by
  unfold RetrievalStore.search ranking
  rw [List.filter_map, Table.filter_orderBy, List.map_take]
  rfl

/-- The hits come in ranking order. -/
theorem ranking_pairwise : (search.ranking store version q).Pairwise RetrievedChunk.Precedes := by
  unfold ranking
  rw [List.pairwise_map]
  have hsorted : (store.chunks.orderBy (scoreLe (search.scoreOf version q)) (fun chunk =>
      store.searchable chunk && search.matchesOf version q chunk)).Pairwise
        (scoreLe (search.scoreOf version q)) := Table.pairwise_orderBy
  exact hsorted.imp (fun h => h)

/-- No chunk is listed twice. -/
theorem ranking_nodup : ((search.ranking store version q).map
    (fun row => (row.ingestionJobId, row.ordinal))).Nodup := by
  unfold ranking
  rw [List.map_map]
  have hnodup : (store.chunks.orderBy (scoreLe (search.scoreOf version q)) (fun chunk =>
      store.searchable chunk && search.matchesOf version q chunk)).Nodup := Table.nodup_orderBy
  refine hnodup.map_on ?_
  intro a ha b hb hsame
  exact Table.eq_of_key_eq (Table.mem_orderBy.mp ha).1 (Table.mem_orderBy.mp hb).1 hsame

/-- **One ranking.**  To each query and version belongs one ranking of the chunks of
succeeded jobs that match, each listed once; and every retrieval that the database does
not refuse is that ranking, the filters applied and cut at `top_k`: a larger `top_k` adds
results behind the others, and a filter neither reorders nor replaces any. -/
theorem retrieval_ranks (search : TextSearch) (fits : String → List Char → Bool)
    (store : RetrievalStore) (query : List Char) {version : String}
    (hversion : version ∈ RETRIEVAL_VERSIONS) :
    ∃ ranked : List RetrievedChunk,
      (∀ (topK : Int) (filters : RetrievalFilters), 1 ≤ topK →
        search.retrieveOrRaise fits store query topK filters version =
          if normalizeQuery query ≠ [] ∧
              refuses fits version (normalizeQuery query) topK filters then .error .database
          else .ok ((ranked.filter filters.allows).take topK.toNat)) ∧
      ranked.Pairwise RetrievedChunk.Precedes ∧
      (ranked.map (fun row => (row.ingestionJobId, row.ordinal))).Nodup ∧
      ∀ row, row ∈ ranked ↔ normalizeQuery query ≠ [] ∧ ∃ chunk ∈ store.chunks,
        (∃ job ∈ store.jobs, job.id = chunk.ingestionJobId ∧ job.status = .succeeded) ∧
        search.matchesOf version (normalizeQuery query) chunk = true ∧
        row = .ofRow version (search.scoreOf version (normalizeQuery query) chunk) chunk := by
  by_cases hquery : normalizeQuery query = []
  · refine ⟨[], ?_, List.Pairwise.nil, List.nodup_nil, ?_⟩
    · intro topK filters htopK
      rw [retrieveOrRaise, retrieve_eq hversion htopK, if_pos hquery]
      simp [hquery]
    · simp [hquery]
  · refine ⟨search.ranking store version (normalizeQuery query), ?_, ranking_pairwise,
      ranking_nodup, ?_⟩
    · intro topK filters htopK
      rw [retrieveOrRaise, retrieve_eq hversion htopK, if_neg hquery, search_eq_ranking]
    · intro row
      unfold ranking
      rw [List.mem_map]
      constructor
      · intro hrow
        obtain ⟨chunk, hchunk, rfl⟩ := hrow
        obtain ⟨hstored, hpass⟩ := Table.mem_orderBy.mp hchunk
        obtain ⟨hsearchable, hmatches⟩ := Bool.and_eq_true_iff.mp hpass
        exact ⟨hquery, chunk, hstored, RetrievalStore.succeeded_of_searchable hsearchable,
          hmatches, rfl⟩
      · intro hrow
        obtain ⟨-, chunk, hstored, ⟨job, hjob, hid, hsucceeded⟩, hmatches, rfl⟩ := hrow
        have hsearchable : store.searchable chunk = true := by
          unfold RetrievalStore.searchable
          rw [Table.find?_eq_some_iff.mpr ⟨hjob, hid⟩]
          simp [hsucceeded]
        exact ⟨chunk, Table.mem_orderBy.mpr ⟨hstored, by simp [hsearchable, hmatches]⟩, rfl⟩

/-- `retrieval_ranks` of the structural version, over one chunk that matches. -/
theorem retrieval_ranks_struct :
    ∃ ranked : List RetrievedChunk, ranked ≠ [] ∧
      (∀ (topK : Int) (filters : RetrievalFilters), 1 ≤ topK →
        plainSearch.retrieveOrRaise (fun _ _ => true)
          (RetrievalStore.oneChunk "Catalog levels".toList) "catalog".toList topK filters
          "cf-lex-fts-struct-1" =
            if normalizeQuery "catalog".toList ≠ [] ∧ refuses (fun _ _ => true)
                "cf-lex-fts-struct-1" (normalizeQuery "catalog".toList) topK filters then
              .error .database
            else .ok ((ranked.filter filters.allows).take topK.toNat)) ∧
      ranked.Pairwise RetrievedChunk.Precedes := by
  obtain ⟨ranked, hretrieve, hordered, -, hmem⟩ := retrieval_ranks plainSearch (fun _ _ => true)
    (RetrievalStore.oneChunk "Catalog levels".toList) "catalog".toList
    (show "cf-lex-fts-struct-1" ∈ RETRIEVAL_VERSIONS by decide)
  refine ⟨ranked, ?_, hretrieve, hordered⟩
  apply List.ne_nil_of_mem
  exact (hmem _).mpr ⟨by decide, RetrievalStore.chunkOf "Catalog levels".toList,
    RetrievalStore.mem_oneChunk.mpr rfl, ⟨RetrievalStore.succeededJob, by simp
      [RetrievalStore.oneChunk, Table.mem_iff], rfl, rfl⟩, by decide +kernel, rfl⟩

/-- A query with U+0000 is refused. -/
example : plainSearch.retrieveOrRaise (fun _ _ => true)
    (RetrievalStore.oneChunk "Catalog levels".toList) ['a', '\x00'] 1 {} "cf-lex-fts-1" =
      .error .database := by
  rfl

end TextSearch

end ChallengeForge
