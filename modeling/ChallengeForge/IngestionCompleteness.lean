import ChallengeForge.IngestionWorkers

/-!
# Whether succeeded jobs keep their outputs

A chunk set is complete when its job is succeeded, `result.json` and
`canonical.txt` exist, and the chunk rows are those of the artifact.  The
cleanups of a failure path and of stale recovery run after the commit that lets
another worker claim the job, and they ask nobody whether the job is still
theirs to clean up.

* `succeeded_complete` — in every run whose cleanups spare what they must,
  every succeeded job is complete;
* `succeeded_incomplete` — a recovery requeues a job, another worker processes
  it, and the recovery then deletes its outputs.
-/

namespace ChallengeForge

open Keyed Labelled

namespace Ingestion

/-- The job is succeeded. -/
def Succeeded (s : Ingestion) (jobId : UUID) : Prop :=
  ∃ row ∈ s.jobs, row.id = jobId ∧ row.status = .succeeded

instance (s : Ingestion) (jobId : UUID) : Decidable (s.Succeeded jobId) :=
  inferInstanceAs (Decidable (∃ row ∈ s.jobs, _))

/-- The job is running, and the worker that owns it has written this output. -/
def OwnerHasWritten (s : Ingestion) (jobId : UUID) (output : Output) : Prop :=
  ∃ row ∈ s.jobs, row.id = jobId ∧ row.status = .running ∧
    row.workerId.any (fun workerId => (s.phase workerId).hasWritten jobId output) = true

instance (s : Ingestion) (jobId : UUID) (output : Output) :
    Decidable (s.OwnerHasWritten jobId output) :=
  inferInstanceAs (Decidable (∃ row ∈ s.jobs, _))

/-- A cleanup call that takes nothing a succeeded job or a live owner relies on. -/
def Spares (s : Ingestion) : CleanupCall → Prop
  | .deleteBlob output jobId => ¬ s.Succeeded jobId ∧ ¬ s.OwnerHasWritten jobId output
  | .deleteChunks jobId => ¬ s.Succeeded jobId

instance (s : Ingestion) (call : CleanupCall) : Decidable (s.Spares call) :=
  match call with
  | .deleteBlob .. => inferInstanceAs (Decidable (_ ∧ _))
  | .deleteChunks _ => inferInstanceAs (Decidable (¬ _))

/-- The cleanup call a worker is about to make. -/
def nextCall? (s : Ingestion) (workerId : String) : Option CleanupCall :=
  match s.phase workerId with
  | .cleaning (call :: _) => some call
  | _ => none

/-- Nothing is deleted that a succeeded job or a live owner relies on: neither by
the cleanups, nor by the transactions that answer an error. -/
def sparesOutputs : Condition Ingestion WorkerAction := fun s a =>
  match a with
  | .fail workerId _ => ∀ job ∈ (s.phase workerId).job?, ¬ s.Succeeded job.id
  | .retry workerId _ => ∀ job ∈ (s.phase workerId).job?, ¬ s.Succeeded job.id
  | .cleanup workerId outcome =>
      outcome.applied = true → ∀ call ∈ s.nextCall? workerId, s.Spares call
  | _ => True

instance (s : Ingestion) (a : WorkerAction) : Decidable (sparesOutputs s a) :=
  match a with
  | .fail workerId _ | .retry workerId _ =>
      inferInstanceAs (Decidable (∀ job ∈ (s.phase workerId).job?, _))
  | .cleanup .. => inferInstanceAs (Decidable (_ → _))
  | .upload .. | .enqueue .. | .claim .. | .parse .. | .putCanonical .. | .putResult ..
  | .succeed .. | .recover .. | .die .. => isTrue trivial

/-- The chunk rows of a job are those of its artifact, and both blobs exist. -/
def Complete (settings : IngestionSettings) (storage : Storage) (chunks : DocumentChunks)
    (job : IngestionJobRow) : Prop :=
  artifactChunks settings storage job.artifactKey = some (chunks.chunksOf job.id) ∧
    ∀ output : Output, storage.blobExists (output.key job.id) = true

/-- What a worker holds agrees with the tables and the storage. -/
structure Holds (settings : IngestionSettings) (jobs : IngestionJobs) (storage : Storage)
    (phase : WorkerPhase) : Prop where
  /-- The artifact of a job does not change. -/
  job : ∀ {job}, phase.job? = some job → ∃ row ∈ jobs, row.id = job.id ∧
    row.artifactKey = job.artifactKey
  /-- Its chunks are those of the artifact. -/
  chunks : ∀ {job chunks}, phase.job? = some job → phase.chunks? = some chunks →
    artifactChunks settings storage job.artifactKey = some chunks

/-- What every reached state satisfies. -/
structure Sound (settings : IngestionSettings) (s : Ingestion) : Prop where
  complete : ∀ row ∈ s.jobs, row.status = .succeeded →
    Complete settings s.storage s.chunks row
  holds : ∀ workerId, Holds settings s.jobs s.storage (s.phase workerId)
  /-- What the owner of a running job has written is still there. -/
  written : ∀ row ∈ s.jobs, row.status = .running → ∀ workerId, row.workerId = some workerId →
    ∀ output, (s.phase workerId).hasWritten row.id output = true →
      s.storage.blobExists (output.key row.id) = true

variable {settings : IngestionSettings} {s s' : Ingestion} {workerId : String}

/-- A worker without a job holds nothing. -/
theorem Holds.of_no_job {jobs : IngestionJobs} {storage : Storage} {phase : WorkerPhase}
    (hjob : phase.job? = none) : Holds settings jobs storage phase where
  job h := by simp [hjob] at h
  chunks h := by simp [hjob] at h

/-- A worker that goes on with its job holds no chunks, or those it held. -/
theorem Holds.next {jobs : IngestionJobs} {storage : Storage} {phase next : WorkerPhase}
    (hholds : Holds settings jobs storage phase) (hjob : next.job? = phase.job?)
    (hchunks : next.chunks? = none ∨ next.chunks? = phase.chunks?) :
    Holds settings jobs storage next where
  job h := hholds.job (hjob ▸ h)
  chunks h hheld := by
    rcases hchunks with hnone | hsame
    · simp [hnone] at hheld
    · exact hholds.chunks (hjob ▸ h) (hsame ▸ hheld)

/-- A worker moves on to a phase that holds what it should. -/
theorem Sound.goto {phase : WorkerPhase} (hsound : s.Sound settings)
    (hholds : Holds settings s.jobs s.storage phase)
    (hwritten : ∀ row ∈ s.jobs, row.status = .running → row.workerId = some workerId →
      ∀ output, phase.hasWritten row.id output = true →
        s.storage.blobExists (output.key row.id) = true) :
    (s.goto workerId phase).Sound settings := by
  have hphase : ∀ other, (s.goto workerId phase).phase other =
      if other = workerId then phase else s.phase other := by
    intro other
    simp [Ingestion.goto, Function.update_apply]
  refine ⟨hsound.complete, ?_, ?_⟩
  · intro other
    rw [hphase]
    split
    · exact hholds
    · exact hsound.holds other
  · intro row hrow hrunning other hother output houtput
    rw [hphase] at houtput
    split at houtput
    · rename_i heq
      exact hwritten row hrow hrunning (heq ▸ hother) output houtput
    · exact hsound.written row hrow hrunning other hother output houtput

/-- A worker moves on to a phase in which it has written nothing. -/
theorem Sound.goto_of_unwritten {phase : WorkerPhase} (hsound : s.Sound settings)
    (hholds : Holds settings s.jobs s.storage phase)
    (hunwritten : ∀ jobId output, phase.hasWritten jobId output = false) :
    (s.goto workerId phase).Sound settings := by
  refine hsound.goto hholds ?_
  intro row _ _ _ output houtput
  simp [hunwritten] at houtput

/-- Artifacts stay, and so does what a succeeded job or a live owner relies on. -/
theorem Sound.store {storage : Storage} (hsound : s.Sound settings)
    (hchunks : ∀ key chunks, artifactChunks settings s.storage key = some chunks →
      artifactChunks settings storage key = some chunks)
    (houtputs : ∀ output jobId, s.Succeeded jobId ∨ s.OwnerHasWritten jobId output →
      s.storage.blobExists (output.key jobId) = true →
        storage.blobExists (output.key jobId) = true) :
    ({ s with storage := storage } : Ingestion).Sound settings := by
  refine ⟨?_, ?_, ?_⟩
  · intro row hrow hsucceeded
    obtain ⟨hrows, hblobs⟩ := hsound.complete row hrow hsucceeded
    exact ⟨hchunks _ _ hrows, fun output =>
      houtputs output row.id (Or.inl ⟨row, hrow, rfl, hsucceeded⟩) (hblobs output)⟩
  · intro other
    have hother := hsound.holds other
    exact ⟨hother.job, fun hjob hheld => hchunks _ _ (hother.chunks hjob hheld)⟩
  · intro row hrow hrunning other hother output houtput
    refine houtputs output row.id (Or.inr ⟨row, hrow, rfl, hrunning, ?_⟩)
      (hsound.written row hrow hrunning other hother output houtput)
    simp only [hother, Option.any_some]
    exact houtput

/-- The chunk rows of succeeded jobs stay. -/
theorem Sound.rechunk {chunks : DocumentChunks} (hsound : s.Sound settings)
    (hsame : ∀ row ∈ s.jobs, row.status = .succeeded →
      chunks.chunksOf row.id = s.chunks.chunksOf row.id) :
    ({ s with chunks := chunks } : Ingestion).Sound settings := by
  refine ⟨?_, hsound.holds, hsound.written⟩
  intro row hrow hsucceeded
  obtain ⟨hrows, hblobs⟩ := hsound.complete row hrow hsucceeded
  exact ⟨by rw [hsame row hrow hsucceeded]; exact hrows, hblobs⟩

/-- Rows are rewritten, keeping their artifact: those that become succeeded are
complete, and those that become running are owned by a worker that has written
nothing. -/
theorem Sound.update {p : IngestionJobRow → Bool} {f : IngestionJobRow → IngestionJobRow}
    (hsound : s.Sound settings) (hkey : ∀ row, (f row).id = row.id)
    (hartifact : ∀ row, (f row).artifactKey = row.artifactKey)
    (hsucceeded : ∀ row ∈ s.jobs, p row = true → (f row).status = .succeeded →
      Complete settings s.storage s.chunks row)
    (hrunning : ∀ row ∈ s.jobs, p row = true → (f row).status = .running →
      ∀ other, (f row).workerId = some other →
        ∀ output, (s.phase other).hasWritten row.id output = false) :
    ({ s with jobs := s.jobs.update p f hkey } : Ingestion).Sound settings := by
  refine ⟨?_, ?_, ?_⟩
  · intro row' hrow' hsucceeded'
    obtain ⟨row, hrow, rfl⟩ := (Table.mem_update hkey).mp hrow'
    by_cases hp : p row = true
    · simp only [if_pos hp] at hsucceeded' ⊢
      have hcomplete := hsucceeded row hrow hp hsucceeded'
      simpa only [Complete, hartifact, hkey] using hcomplete
    · simp only [if_neg hp] at hsucceeded' ⊢
      exact hsound.complete row hrow hsucceeded'
  · intro other
    have hother := hsound.holds other
    refine ⟨?_, hother.chunks⟩
    intro job hjob
    obtain ⟨row, hrow, hid, hkeyed⟩ := hother.job hjob
    refine ⟨_, (Table.mem_update hkey).mpr ⟨row, hrow, rfl⟩, ?_, ?_⟩
    · rw [← hid]
      split
      · exact hkey row
      · rfl
    · rw [← hkeyed]
      split
      · exact hartifact row
      · rfl
  · intro row' hrow' hrunning' other hother output houtput
    obtain ⟨row, hrow, rfl⟩ := (Table.mem_update hkey).mp hrow'
    by_cases hp : p row = true
    · simp only [if_pos hp, hkey] at hrunning' hother houtput ⊢
      have hunwritten := hrunning row hrow hp hrunning' other hother output
      exact absurd (hunwritten.symm.trans houtput) (by simp)
    · simp only [if_neg hp] at hrunning' hother houtput ⊢
      exact hsound.written row hrow hrunning' other hother output houtput

/-- A row that is inserted queued asks for nothing. -/
theorem Sound.enqueued {jobs : IngestionJobs} {id submissionId : UUID} {key : ArtifactKey}
    {now : Timestamp} (hsound : s.Sound settings)
    (hjobs : s.jobs.enqueue id submissionId key now = some jobs) :
    ({ s with jobs := jobs } : Ingestion).Sound settings := by
  have hmem : ∀ row, row ∈ jobs ↔ row ∈ s.jobs ∨ row = _ :=
    fun _ => IngestionJobs.mem_of_enqueue hjobs
  refine ⟨?_, ?_, ?_⟩
  · intro row hrow hsucceeded
    rcases (hmem row).mp hrow with hold | rfl
    · exact hsound.complete row hold hsucceeded
    · cases hsucceeded
  · intro other
    have hother := hsound.holds other
    refine ⟨?_, hother.chunks⟩
    intro job hjob
    obtain ⟨row, hrow, hrest⟩ := hother.job hjob
    exact ⟨row, (hmem row).mpr (Or.inl hrow), hrest⟩
  · intro row hrow hrunning
    rcases (hmem row).mp hrow with hold | rfl
    · exact hsound.written row hold hrunning
    · cases hrunning

/-! ## One lemma for each kind of step -/

/-- Outputs and artifacts have different keys. -/
theorem Output.key_ne_artifact {output : Output} {jobId : UUID} {key : ArtifactKey} :
    BlobKey.artifact key ≠ output.key jobId := by
  cases output <;> simp [Output.key]

/-- The outputs of all jobs have different keys. -/
theorem Output.key_inj {output other : Output} {jobId otherId : UUID} :
    other.key otherId = output.key jobId ↔ other = output ∧ otherId = jobId := by
  cases output <;> cases other <;> simp [Output.key]

/-- Storing an output leaves the chunks of every artifact as they are. -/
theorem artifactChunks_put_output (storage : Storage) (output : Output) (jobId : UUID)
    (blob : Blob) (key : ArtifactKey) :
    artifactChunks settings (storage.put (output.key jobId) blob) key =
      artifactChunks settings storage key := by
  simp only [artifactChunks, Storage.get_put_of_ne Output.key_ne_artifact]

/-- So does deleting one. -/
theorem artifactChunks_delete_output (storage : Storage) (output : Output) (jobId : UUID)
    (key : ArtifactKey) :
    artifactChunks settings (storage.delete (output.key jobId)) key =
      artifactChunks settings storage key := by
  simp only [artifactChunks, Storage.get_delete_of_ne Output.key_ne_artifact]

/-- Publishing an artifact under a fresh key leaves the chunks of the others. -/
theorem artifactChunks_put_artifact {storage : Storage} {key other : ArtifactKey} {blob : Blob}
    {chunks : List ChunkDraft} (hfresh : storage.blobExists (.artifact key) = false)
    (hchunks : artifactChunks settings storage other = some chunks) :
    artifactChunks settings (storage.put (.artifact key) blob) other = some chunks := by
  have hne : other ≠ key := by
    intro heq
    subst heq
    simp only [Storage.blobExists, Option.isSome_eq_false_iff, Option.isNone_iff_eq_none]
      at hfresh
    simp [artifactChunks, hfresh] at hchunks
  rw [artifactChunks, Storage.get_put_of_ne (by simpa using hne)]
  exact hchunks

/-- An upload is under a key that no job has written to. -/
theorem Sound.upload {key : ArtifactKey} {blob : Blob} (hsound : s.Sound settings)
    (hstep : s.upload key blob = some s') : s'.Sound settings := by
  unfold Ingestion.upload at hstep
  split at hstep
  · cases hstep
  · rename_i hfresh
    cases hstep
    refine hsound.store ?_ ?_
    · intro other chunks hchunks
      exact artifactChunks_put_artifact (by simpa using hfresh) hchunks
    · intro output jobId _ hexists
      exact Storage.blobExists_put_of hexists

/-- A worker publishes an output of its job. -/
theorem Sound.put {job : IngestionJobRow} {output : Output} {blob : Blob}
    {outcome : CallOutcome} {message : String} {next : WorkerPhase}
    (hsound : s.Sound settings) (hjob : (s.phase workerId).job? = some job)
    (hnext : next.job? = some job) (hchunks : next.chunks? = (s.phase workerId).chunks?)
    (hwritten : ∀ jobId other, next.hasWritten jobId other = true →
      jobId = job.id ∧ (other = output ∨ (s.phase workerId).hasWritten jobId other = true)) :
    (s.put workerId job output blob outcome message next).Sound settings := by
  have hstored : ({ s with
      storage := if outcome.applied then s.storage.put (output.key job.id) blob
        else s.storage } : Ingestion).Sound settings := by
    refine hsound.store ?_ ?_
    · intro key chunks hsame
      split
      · rw [artifactChunks_put_output]
        exact hsame
      · exact hsame
    · intro other jobId _ hexists
      split
      · exact Storage.blobExists_put_of hexists
      · exact hexists
  unfold Ingestion.put
  by_cases hok : outcome = CallOutcome.ok
  · subst hok
    refine hstored.goto ((hstored.holds workerId).next (hnext.trans hjob.symm)
      (Or.inr hchunks)) ?_
    intro row hrow hrunning howner other hother
    obtain ⟨hid, hnew | hold⟩ := hwritten row.id other hother
    · rw [hid, hnew]
      exact Storage.blobExists_put_self
    · exact hstored.written row hrow hrunning workerId howner other hold
  · rw [if_neg hok]
    exact hstored.goto_of_unwritten
      ((hstored.holds workerId).next hjob.symm (Or.inl rfl)) (fun _ _ => rfl)

/-- The canonical text is what its worker has then written. -/
theorem Sound.putCanonical {outcome : CallOutcome} {message : String}
    (hsound : s.Sound settings) (hstep : s.putCanonical workerId outcome message = some s') :
    s'.Sound settings := by
  unfold Ingestion.putCanonical at hstep
  split at hstep
  · rename_i job artifact hphase
    cases hstep
    refine hsound.put (by rw [hphase]; rfl) rfl (by rw [hphase]; rfl) ?_
    intro jobId other hother
    obtain ⟨hid, hcanonical⟩ := of_decide_eq_true hother
    exact ⟨hid.symm, Or.inl hcanonical⟩
  · cases hstep

/-- And so is the result. -/
theorem Sound.putResult {outcome : CallOutcome} {message : String}
    (hsound : s.Sound settings)
    (hstep : s.putResult settings workerId outcome message = some s') : s'.Sound settings := by
  unfold Ingestion.putResult at hstep
  split at hstep
  · rename_i job artifact hphase
    cases hstep
    refine hsound.put (by rw [hphase]; rfl) rfl (by rw [hphase]; rfl) ?_
    intro jobId other hother
    have hid : job.id = jobId := of_decide_eq_true hother
    rw [hphase]
    cases other with
    | canonical => exact ⟨hid.symm, Or.inr (by simp [WorkerPhase.hasWritten, hid])⟩
    | result => exact ⟨hid.symm, Or.inl rfl⟩
  · cases hstep

/-- A claimed job has not succeeded. -/
theorem Sound.claim {locked : List UUID} {now : Timestamp} (hsound : s.Sound settings)
    (hstep : s.claim workerId locked now = some s') : s'.Sound settings := by
  unfold Ingestion.claim at hstep
  split at hstep
  · rename_i hidle
    obtain ⟨⟨job, jobs⟩, hclaim, rfl⟩ := Option.map_eq_some_iff.mp hstep
    obtain ⟨row, hrow, -, rfl, rfl⟩ := IngestionJobs.queued_of_claimNext hclaim
    have hclaimed := hsound.update (p := fun other => decide (other.id = row.id))
      (f := fun other => other.startRunning workerId now)
      (fun _ => rfl) (fun _ => rfl) (fun _ _ _ h => by cases h) ?_
    · refine hclaimed.goto_of_unwritten ⟨?_, fun _ h => by cases h⟩ (fun _ _ => rfl)
      intro job hjob
      cases hjob
      refine ⟨row.startRunning workerId now, ?_, rfl, rfl⟩
      refine (Table.mem_update (p := fun other => decide (other.id = row.id))
        (f := fun other => other.startRunning workerId now) (fun _ => rfl)).mpr ⟨row, hrow, ?_⟩
      simp
    · intro other _ _ _ owner howner output
      -- the new owner is idle
      obtain rfl : workerId = owner := Option.some.inj howner
      rw [hidle]
      rfl
  · cases hstep

/-- Parsing writes nothing. -/
theorem Sound.parse {raised : Option String} (hsound : s.Sound settings)
    (hstep : s.parse settings workerId raised = some s') : s'.Sound settings := by
  have hhandling : ∀ job error, s.phase workerId = .claimed job →
      (s.goto workerId (.handling job error)).Sound settings := by
    intro job error hphase
    refine hsound.goto_of_unwritten ((hsound.holds workerId).next ?_ ?_) ?_
    · rw [hphase]
      cases error <;> rfl
    · cases error <;> exact Or.inl rfl
    · intro jobId output
      cases error <;> rfl
  unfold Ingestion.parse at hstep
  split at hstep
  · rename_i job message hphase
    cases hstep
    exact hhandling job _ hphase
  · rename_i job hphase
    split at hstep
    · cases hstep
      exact hhandling job _ hphase
    · rename_i artifact hparsed
      cases hstep
      have hheld := hsound.holds workerId
      refine hsound.goto_of_unwritten ⟨fun h => hheld.job (hphase ▸ h), ?_⟩ (fun _ _ => rfl)
      intro job' chunks hjob hchunks
      cases hjob
      cases hchunks
      exact parseArtifact_eq_ok hparsed
  · cases hstep

/-- A worker that cleans up counts as having written nothing. -/
theorem hasWritten_cleanup (todo : List CleanupCall) (jobId : UUID) (output : Output) :
    (WorkerPhase.cleanup todo).hasWritten jobId output = false := by
  cases todo <;> rfl

/-- A worker that cleans up has no job. -/
theorem job?_cleanup (todo : List CleanupCall) : (WorkerPhase.cleanup todo).job? = none := by
  cases todo <;> rfl

/-- A worker turns to a cleanup. -/
theorem Sound.goto_cleanup (hsound : s.Sound settings) (todo : List CleanupCall) :
    (s.goto workerId (.cleanup todo)).Sound settings :=
  hsound.goto_of_unwritten (Holds.of_no_job (job?_cleanup todo)) (hasWritten_cleanup todo)

/-- A worker may always go idle. -/
theorem Sound.goto_idle (hsound : s.Sound settings) (workerId : String) :
    (s.goto workerId .idle).Sound settings :=
  hsound.goto_cleanup []

/-- The chunk rows of a job that is not succeeded are deleted. -/
theorem Sound.deleteChunks {jobId : UUID} (hsound : s.Sound settings)
    (hnot : ¬ s.Succeeded jobId) :
    ({ s with chunks := s.chunks.deleteForJob jobId } : Ingestion).Sound settings := by
  refine hsound.rechunk ?_
  intro row hrow hsucceeded
  have hne : row.id ≠ jobId := fun hid => hnot ⟨row, hrow, hid, hsucceeded⟩
  exact DocumentChunks.chunksOf_deleteForJob_of_ne hne

/-- An error is answered: the chunks go, and the row fails or is queued again. -/
theorem Sound.giveUp {job : IngestionJobRow} {p : IngestionJobRow → Bool}
    {f : IngestionJobRow → IngestionJobRow} {hkey : ∀ row, (f row).id = row.id}
    (hsound : s.Sound settings) (hnot : ¬ s.Succeeded job.id)
    (hartifact : ∀ row, (f row).artifactKey = row.artifactKey)
    (hstatus : ∀ row, (f row).status = .failed ∨ (f row).status = .queued) :
    (s.giveUp workerId job (s.jobs.update p f hkey)).Sound settings := by
  have hdeleted := hsound.deleteChunks hnot
  have hupdated := hdeleted.update (p := p) hkey hartifact ?_ ?_
  · exact hupdated.goto_cleanup _
  · intro row _ _ hsucceeded
    rcases hstatus row with h | h <;> simp [h] at hsucceeded
  · intro row _ _ hrunning
    rcases hstatus row with h | h <;> simp [h] at hrunning

/-- A failing job may lose its outputs, if its worker still owns it. -/
theorem Sound.fail {now : Timestamp} (hsound : s.Sound settings)
    (hok : sparesOutputs s (.fail workerId now))
    (hstep : s.fail workerId now = some s') : s'.Sound settings := by
  unfold Ingestion.fail at hstep
  split at hstep
  · rename_i job code message hphase
    cases hstep
    have hnot : ¬ s.Succeeded job.id := hok job (by rw [hphase]; rfl)
    exact hsound.giveUp hnot (fun _ => rfl) (fun _ => Or.inl rfl)
  · cases hstep

/-- So may a job that is released for a retry. -/
theorem Sound.retry {now : Timestamp} (hsound : s.Sound settings)
    (hok : sparesOutputs s (.retry workerId now))
    (hstep : s.retry settings workerId now = some s') : s'.Sound settings := by
  unfold Ingestion.retry at hstep
  split at hstep
  · rename_i job code message hphase
    cases hstep
    have hnot : ¬ s.Succeeded job.id := hok job (by rw [hphase]; rfl)
    split
    · exact hsound.giveUp hnot (fun _ => rfl) (fun _ => Or.inl rfl)
    · exact hsound.giveUp hnot (fun _ => rfl) (fun _ => Or.inr rfl)
  · cases hstep

/-- A recovery itself deletes nothing. -/
theorem Sound.recover {clock now : Timestamp} (hsound : s.Sound settings)
    (hstep : s.recover settings workerId clock now = some s') : s'.Sound settings := by
  unfold Ingestion.recover at hstep
  split at hstep
  · cases hstep
    have hrecovered := hsound.update (p := IngestionJobRow.isStale (clock - settings.staleAfter))
      (IngestionJobRow.recover_id settings.maxAttempts now)
      (IngestionJobRow.recover_artifactKey settings.maxAttempts now) ?_ ?_
    · exact hrecovered.goto_cleanup _
    · intro row _ _ hsucceeded
      rcases row.recover_status settings.maxAttempts now with h | h <;>
        simp [h] at hsucceeded
    · intro row _ _ hrunning
      rcases row.recover_status settings.maxAttempts now with h | h <;> simp [h] at hrunning
  · cases hstep

/-- A cleanup that spares the outputs of finished jobs harms none. -/
theorem Sound.cleanup {outcome : CallOutcome} (hsound : s.Sound settings)
    (hok : sparesOutputs s (.cleanup workerId outcome))
    (hstep : s.cleanup workerId outcome = some s') : s'.Sound settings := by
  unfold Ingestion.cleanup at hstep
  split at hstep
  · rename_i output jobId rest hphase
    cases hstep
    refine Sound.goto_cleanup (hsound.store ?_ ?_) rest
    · intro key chunks hsame
      split
      · rw [artifactChunks_delete_output]
        exact hsame
      · exact hsame
    · intro other otherId hneeded hexists
      split
      · rename_i happlied
        obtain ⟨hnot, hunwritten⟩ : s.Spares (.deleteBlob output jobId) :=
          hok happlied _ (by rw [nextCall?, hphase]; rfl)
        have hne : other.key otherId ≠ output.key jobId := by
          intro heq
          obtain ⟨rfl, rfl⟩ := Output.key_inj.mp heq
          exact hneeded.elim hnot hunwritten
        rw [Storage.blobExists_delete_of_ne hne]
        exact hexists
      · exact hexists
  · rename_i jobId rest hphase
    cases hstep
    have hdeleted : ({ s with chunks := if outcome.applied then s.chunks.deleteForJob jobId
        else s.chunks } : Ingestion).Sound settings := by
      split
      · rename_i happlied
        have hnot : s.Spares (.deleteChunks jobId) :=
          hok happlied _ (by rw [nextCall?, hphase]; rfl)
        exact hsound.deleteChunks hnot
      · exact hsound
    by_cases hdone : outcome = CallOutcome.ok
    · rw [if_pos hdone]
      exact hdeleted.goto_cleanup rest
    · rw [if_neg hdone]
      exact hdeleted.goto_idle workerId
  · cases hstep

/-- The chunks of one job become those of its artifact.  If the job has already
succeeded they are the same chunks once more. -/
theorem Sound.replace {job : IngestionJobRow} {drafts : List ChunkDraft}
    {chunks : DocumentChunks} (hsound : s.Sound settings)
    (hartifact : ∀ row ∈ s.jobs, row.id = job.id → row.artifactKey = job.artifactKey)
    (hdrafts : artifactChunks settings s.storage job.artifactKey = some drafts)
    (hself : chunks.chunksOf job.id = drafts)
    (hothers : ∀ jobId, jobId ≠ job.id → chunks.chunksOf jobId = s.chunks.chunksOf jobId) :
    ({ s with chunks := chunks } : Ingestion).Sound settings := by
  refine hsound.rechunk ?_
  intro row hrow hsucceeded
  by_cases hrowId : row.id = job.id
  · have hcomplete : artifactChunks settings s.storage row.artifactKey =
        some (s.chunks.chunksOf row.id) := (hsound.complete row hrow hsucceeded).1
    rw [hartifact row hrow hrowId, hdrafts] at hcomplete
    rw [hrowId, hself, ← hrowId]
    exact Option.some.inj hcomplete
  · exact hothers row.id hrowId

/-- The transaction of a success: the chunks of the job become those of its
artifact, and the row is succeeded if the worker still owns it. -/
theorem Sound.succeed {now : Timestamp} (hsound : s.Sound settings)
    (hstep : s.succeed workerId now = some s') : s'.Sound settings := by
  unfold Ingestion.succeed at hstep
  split at hstep
  · rename_i job result hphase
    have hheld := hsound.holds workerId
    rw [hphase] at hheld
    obtain ⟨held, hmem, hid, hartifact⟩ := hheld.job rfl
    have hchunks : artifactChunks settings s.storage job.artifactKey = some result.chunks :=
      hheld.chunks rfl rfl
    split at hstep
    · cases hstep
      exact hsound.goto_idle workerId
    · rename_i chunks hreplace
      cases hstep
      have hself := DocumentChunks.chunksOf_replaceForJob_self hreplace
      have hsame : ∀ row ∈ s.jobs, row.id = job.id → row.artifactKey = job.artifactKey := by
        intro row hrow hrowId
        rw [Table.eq_of_key_eq hrow hmem (hrowId.trans hid.symm), hartifact]
      have hreplaced : ({ s with chunks := chunks } : Ingestion).Sound settings :=
        hsound.replace hsame hchunks hself
          (fun _ hne => DocumentChunks.chunksOf_replaceForJob_of_ne hreplace hne)
      have hmarked := hreplaced.update
        (p := IngestionJobRow.ownedBy job.id workerId)
        (f := fun row =>
          { row with
            status := .succeeded
            resultKey := some result.resultKey
            completedAt := some now
            updatedAt := now
            errorCode := none
            errorMessage := none })
        (fun _ => rfl) (fun _ => rfl) ?_ (fun _ _ _ h => by cases h)
      · have hdone := hmarked.goto_idle workerId
        exact ⟨hdone.complete, hdone.holds, hdone.written⟩
      · intro row hrow howned _
        obtain ⟨hrowId, hrunning, howner⟩ := IngestionJobRow.ownedBy_iff.mp howned
        refine ⟨?_, ?_⟩
        · change artifactChunks settings s.storage row.artifactKey = some (chunks.chunksOf row.id)
          rw [hsame row hrow hrowId, hrowId, hself]
          exact hchunks
        · intro output
          refine hsound.written row hrow hrunning workerId howner output ?_
          rw [hphase, hrowId]
          simp [WorkerPhase.hasWritten]
  · cases hstep

/-- One step keeps the outputs of succeeded jobs. -/
theorem Sound.step {a : WorkerAction} (hsound : s.Sound settings) (hok : sparesOutputs s a)
    (hstep : s.step settings a = some s') : s'.Sound settings := by
  cases a with
  | upload key blob => exact hsound.upload hstep
  | enqueue submissionId key now =>
      obtain ⟨jobs, hjobs, rfl⟩ := Option.map_eq_some_iff.mp hstep
      have hqueued := hsound.enqueued hjobs
      exact ⟨hqueued.complete, hqueued.holds, hqueued.written⟩
  | claim workerId locked now => exact hsound.claim hstep
  | parse workerId raised => exact hsound.parse hstep
  | putCanonical workerId outcome message => exact hsound.putCanonical hstep
  | putResult workerId outcome message => exact hsound.putResult hstep
  | succeed workerId now => exact hsound.succeed hstep
  | fail workerId now => exact hsound.fail hok hstep
  | retry workerId now => exact hsound.retry hok hstep
  | recover workerId clock now => exact hsound.recover hstep
  | cleanup workerId outcome => exact hsound.cleanup hok hstep
  | die workerId =>
      cases hstep
      exact hsound.goto_idle workerId

/-- In a run that spares outputs every state is sound. -/
theorem sound_of_reach (hreach : (ingestionWorkers settings).Reach sparesOutputs s) :
    s.Sound settings := by
  refine hreach.invariant ?_ (fun s a t hs hok hstep => hs.step hok hstep)
  intro s hstart
  obtain rfl : s = emptyIngestion := hstart
  exact ⟨fun row hrow => absurd hrow (Table.not_mem_empty row), fun _ => Holds.of_no_job rfl,
    fun row hrow => absurd hrow (Table.not_mem_empty row)⟩

/-- **Succeeded jobs are complete.**  In every run whose cleanups delete nothing
that a succeeded job or a live owner relies on, a succeeded job has exactly the
chunks of its artifact, and both of its blobs exist. -/
theorem succeeded_complete (hreach : (ingestionWorkers settings).Reach sparesOutputs s)
    {job : IngestionJobRow} (hjob : job ∈ s.jobs) (hsucceeded : job.status = .succeeded) :
    artifactChunks settings s.storage job.artifactKey = some (s.chunks.chunksOf job.id) ∧
      s.storage.blobExists (.result job.id) = true ∧
      s.storage.blobExists (.canonical job.id) = true := by
  obtain ⟨hchunks, hblobs⟩ := (sound_of_reach hreach).complete job hjob hsucceeded
  exact ⟨hchunks, hblobs .result, hblobs .canonical⟩

/-- An artifact, its job, and a worker that claims it and dies. -/
def abandonedRun : List WorkerAction :=
  [.upload ⟨1, 2, 3, ".md"⟩ ⟨[0x68, 0x69], "text/markdown"⟩,
   .enqueue 4 ⟨1, 2, 3, ".md"⟩ 0,
   .claim "first" [] 10, .die "first"]

/-- A second worker requeues the stale job. -/
def requeue : List WorkerAction := [.recover "second" 60000000 60000000]

/-- It deletes the partial outputs. -/
def cleanOutputs : List WorkerAction :=
  [.cleanup "second" .ok, .cleanup "second" .ok, .cleanup "second" .ok]

/-- A third worker processes the job. -/
def processJob : List WorkerAction :=
  [.claim "third" [] 70000000, .parse "third" none, .putCanonical "third" .ok "",
   .putResult "third" .ok "", .succeed "third" 80000000]

/-- `succeeded_complete` where the recovery cleans up before the next claim. -/
theorem succeeded_complete_recovered :
    ∃ s, (ingestionWorkers .default).Reach sparesOutputs s ∧
      ∃ job ∈ s.jobs, job.status = .succeeded ∧
        artifactChunks .default s.storage job.artifactKey =
          some (s.chunks.chunksOf job.id) ∧
        s.storage.blobExists (.result job.id) = true ∧
        s.storage.blobExists (.canonical job.id) = true := by
  obtain ⟨s, hreach, htest⟩ : ∃ s, (ingestionWorkers .default).Reach sparesOutputs s ∧
      s.jobs.rows.any (fun job => job.status = .succeeded) = true :=
    System.reach_of_test emptyIngestion (abandonedRun ++ requeue ++ cleanOutputs ++ processJob)
      _ rfl (by decide)
  obtain ⟨job, hjob, hsucceeded⟩ := List.any_eq_true.mp htest
  have hstatus : job.status = .succeeded := of_decide_eq_true hsucceeded
  exact ⟨s, hreach, job, hjob, hstatus, succeeded_complete hreach hjob hstatus⟩

/-- **A succeeded job is incomplete.**  The recovery cleans up only after another
worker has claimed the requeued job and processed it: the job stays succeeded
and has lost both blobs and its chunks. -/
theorem succeeded_incomplete :
    ∃ s, (ingestionWorkers .default).Reach always s ∧
      ∃ job ∈ s.jobs, job.status = .succeeded ∧
        artifactChunks .default s.storage job.artifactKey ≠
          some (s.chunks.chunksOf job.id) ∧
        s.storage.blobExists (.result job.id) = false ∧
        s.storage.blobExists (.canonical job.id) = false := by
  obtain ⟨s, hreach, htest⟩ : ∃ s, (ingestionWorkers .default).Reach always s ∧
      s.jobs.rows.any (fun job => job.status = .succeeded ∧
        artifactChunks .default s.storage job.artifactKey ≠
          some (s.chunks.chunksOf job.id) ∧
        s.storage.blobExists (.result job.id) = false ∧
        s.storage.blobExists (.canonical job.id) = false) = true :=
    System.reach_of_test emptyIngestion (abandonedRun ++ requeue ++ processJob ++ cleanOutputs)
      _ rfl (by decide)
  obtain ⟨job, hjob, hincomplete⟩ := List.any_eq_true.mp htest
  exact ⟨s, hreach, job, hjob, of_decide_eq_true hincomplete⟩

end Ingestion

end ChallengeForge
