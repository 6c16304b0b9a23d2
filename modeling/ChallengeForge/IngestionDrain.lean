import ChallengeForge.IngestionCompleteness
import ChallengeForge.IngestionLifecycle
import ChallengeForge.LostOwnership
import ChallengeForge.TableCounting

/-!
# One idle worker drains the ingestion queue

Safety says that no job ends wrongly; this module says that every job can end.  From any
state the workers reach, whoever died or hangs in it, one idle worker by itself, without
a fault, brings every job to an end: it recovers what is RUNNING, and then claims and
processes job after job.

The database refuses chunks that hold U+0000.  Then the exception ends the worker; started
again, it waits until the job is stale.

How each job ends is no accident of the run: it is the job's `fate`, a function of its
row and of its artifact alone (`ingestion_drains`).  The induction is on the attempts
that are left; `round` is one turn of `run_once`, with the recovery of its job where the
commit is refused.
-/

namespace ChallengeForge

open Keyed Labelled

/-- The job a cleanup call is about. -/
def CleanupCall.jobId : CleanupCall → UUID
  | .deleteBlob _ jobId => jobId
  | .deleteChunks jobId => jobId

/-- How a QUEUED job with these attempts ends, by its artifact. -/
def verdict (settings : IngestionSettings) (attempts : Nat) (raw : Option Blob) :
    IngestionStatus :=
  match raw with
  | none => .failed
  | some blob =>
      if poisonPrefix.isPrefixOf blob.data then .failed
      else if transientPrefix.isPrefixOf blob.data ∧ attempts = 0 ∧ settings.maxAttempts ≤ 1 then
        .failed
      else
        match Utf8.decode blob.data with
        | none => .failed
        | some text =>
            match chunkHybrid (normalizeToCanonical text) settings.chunkMaxChars with
            | .error _ => .failed
            | .ok chunks => if chunks.all ChunkDraft.storable then .succeeded else .failed

/-- How a job ends. -/
def fate (settings : IngestionSettings) (storage : Storage) (job : IngestionJobRow) :
    IngestionStatus :=
  match job.status with
  | .queued => verdict settings job.attemptCount (storage.get (.artifact job.artifactKey))
  | .running =>
      if settings.maxAttempts ≤ job.attemptCount then .failed
      else verdict settings job.attemptCount (storage.get (.artifact job.artifactKey))
  | .succeeded => .succeeded
  | .failed => .failed

/-- What one turn makes of a QUEUED job. -/
def roundStatus (settings : IngestionSettings) (job : IngestionJobRow) (raw : Option Blob) :
    IngestionStatus :=
  match parseArtifact settings job raw with
  | .ok artifact =>
      if artifact.chunks.all ChunkDraft.storable then .succeeded
      else if settings.maxAttempts ≤ job.attemptCount then .failed else .queued
  | .error (.deterministic _ _) => .failed
  | .error _ => if settings.maxAttempts ≤ job.attemptCount then .failed else .queued

/-- A verdict is final. -/
theorem verdict_terminal (settings : IngestionSettings) (attempts : Nat) (raw : Option Blob) :
    (verdict settings attempts raw).terminal := by
  unfold verdict IngestionStatus.terminal
  split
  · exact Or.inr rfl
  · split_ifs
    · exact Or.inr rfl
    · exact Or.inr rfl
    · split
      · exact Or.inr rfl
      · split
        · exact Or.inr rfl
        · split_ifs <;> simp

/-- A turn ends the job as its verdict says, or requeues it and leaves the verdict. -/
theorem roundStatus_cases (settings : IngestionSettings) (job : IngestionJobRow)
    (raw : Option Blob) {attempts : Nat} (hattempts : job.attemptCount = attempts + 1) :
    roundStatus settings job raw = verdict settings attempts raw ∨
      roundStatus settings job raw = .queued ∧ attempts + 1 < settings.maxAttempts ∧
        verdict settings (attempts + 1) raw = verdict settings attempts raw := by
  unfold roundStatus parseArtifact verdict
  cases raw with
  | none => exact Or.inl rfl
  | some blob =>
      dsimp only
      by_cases hpoison : poisonPrefix.isPrefixOf blob.data = true
      · simp [hpoison]
      · by_cases htransient : transientPrefix.isPrefixOf blob.data = true ∧ job.attemptCount < 2
        · -- only the first attempt is transient
          have hfirst : attempts = 0 := by omega
          subst hfirst
          by_cases hlast : settings.maxAttempts ≤ 1
          · left
            simp [hpoison, htransient.1, hattempts, hlast]
          · right
            simp [hpoison, htransient.1, hattempts, hlast]
            omega
        · have hlater : ¬ (transientPrefix.isPrefixOf blob.data = true ∧ attempts = 0 ∧
              settings.maxAttempts ≤ 1) := by
            rintro ⟨hstarts, hzero, -⟩
            exact htransient ⟨hstarts, by omega⟩
          rw [if_neg hpoison, if_neg htransient, if_neg hpoison, if_neg hlater]
          cases hdecode : Utf8.decode blob.data with
          | none => exact Or.inl rfl
          | some text =>
              obtain ⟨chunks, hchunks⟩ := chunkHybrid_isOk settings (normalizeToCanonical text)
              by_cases hstorable : chunks.all ChunkDraft.storable = true
              · left
                simp [hchunks, hstorable]
              · -- a refused commit uses up the attempts
                by_cases hlast : settings.maxAttempts ≤ attempts + 1
                · left
                  simp [hchunks, hstorable, hattempts, hlast]
                · right
                  simp [hpoison, hchunks, hstorable, hattempts, hlast]
                  omega

namespace Ingestion

variable {settings : IngestionSettings} {s s' t : Ingestion} {w : String}

/-- The database will refuse what the worker is about to commit. -/
def Refused (s : Ingestion) (w : String) : Prop :=
  ∃ job result, s.phase w = .processed job result ∧
    result.chunks.all ChunkDraft.storable = false

/-- One worker alone, without a fault: no other step, no lock held by another claim, no
failed call.  A commit is made where the database takes it, and elsewhere its exception
ends the worker; it dies of nothing else. -/
def solo (w : String) : Condition Ingestion WorkerAction
  | _, .claim v locked _ => v = w ∧ locked = []
  | _, .parse v raised => v = w ∧ raised = none
  | _, .putCanonical v outcome _ | _, .putResult v outcome _ => v = w ∧ outcome = .ok
  | s, .succeed v _ => v = w ∧ ¬ s.Refused w
  | s, .die v => v = w ∧ s.Refused w
  | _, .fail v _ | _, .retry v _ | _, .recover v _ _ => v = w
  | _, .cleanup v outcome => v = w ∧ outcome = .ok
  | _, .upload .. | _, .enqueue .. => False

/-- … and nothing is deleted that a succeeded job or a live owner relies on. -/
def soloSparing (w : String) : Condition Ingestion WorkerAction :=
  fun s a => solo w s a ∧ sparesOutputs s a

/-- The worker gets from one state to another by itself; the artifacts stay. -/
structure Alone (settings : IngestionSettings) (w : String) (s s' : Ingestion) : Prop where
  path : (ingestionWorkers settings).Path (soloSparing w) s s'
  artifacts : ∀ key, s'.storage.get (.artifact key) = s.storage.get (.artifact key)

/-- The worker may do nothing. -/
theorem Alone.refl (s : Ingestion) : Alone settings w s s :=
  ⟨System.Path.refl s, fun _ => rfl⟩

/-- Its stretches can be joined. -/
theorem Alone.trans (h : Alone settings w s s') (h' : Alone settings w s' t) :
    Alone settings w s t :=
  ⟨h.path.trans h'.path, fun key => (h'.artifacts key).trans (h.artifacts key)⟩

/-- One step of its own that spares the outputs and the artifacts is a stretch. -/
theorem Alone.single {a : WorkerAction} (hsolo : solo w s a) (hspares : sparesOutputs s a)
    (hstep : s.step settings a = some s')
    (hartifacts : ∀ key, s'.storage.get (.artifact key) = s.storage.get (.artifact key)) :
    Alone settings w s s' :=
  ⟨System.Path.single ⟨hsolo, hspares⟩ hstep, hartifacts⟩

/-- The worker alone stays within what all workers reach. -/
theorem Alone.reach (h : Alone settings w s s')
    (hreach : (ingestionWorkers settings).Reach always s) :
    (ingestionWorkers settings).Reach always s' :=
  hreach.path (h.path.imp (fun _ _ _ => trivial))

/-- The worker is in the phase it went to. -/
@[simp] theorem goto_phase_self (s : Ingestion) (w : String) (phase : WorkerPhase) :
    (s.goto w phase).phase w = phase := by
  simp [goto]

/-- Going to a phase leaves the jobs alone. -/
@[simp] theorem goto_jobs (s : Ingestion) (w : String) (phase : WorkerPhase) :
    (s.goto w phase).jobs = s.jobs := rfl

/-- No job is RUNNING. -/
def NoneRunning (s : Ingestion) : Prop := ∀ row ∈ s.jobs, row.status ≠ .running

/-! ## Cleanups -/

/-- A worker finishes its cleanup, of jobs that did not succeed. -/
theorem clean : ∀ (todo : List CleanupCall) (s : Ingestion),
    s.phase w = WorkerPhase.cleanup todo → s.NoneRunning →
    (∀ call ∈ todo, ¬ s.Succeeded call.jobId) →
    ∃ s', Alone settings w s s' ∧ s'.phase w = .idle ∧ s'.jobs = s.jobs := by
  intro todo
  induction todo with
  | nil =>
      intro s hphase _ _
      exact ⟨s, Alone.refl s, hphase, rfl⟩
  | cons call rest ih =>
      intro s hphase hnone hfailed
      have hphase : s.phase w = .cleaning (call :: rest) := hphase
      have hnot : ¬ s.Succeeded call.jobId := hfailed call List.mem_cons_self
      have howner : ∀ jobId output, ¬ s.OwnerHasWritten jobId output := by
        intro jobId output howns
        obtain ⟨row, hrow, -, hrunning, -⟩ := howns
        exact hnone row hrow hrunning
      have hspares : sparesOutputs s (.cleanup w .ok) := by
        intro _ next hnext
        obtain rfl : call = next := by simpa [nextCall?, hphase] using hnext
        cases call with
        | deleteBlob output jobId => exact ⟨hnot, howner jobId output⟩
        | deleteChunks jobId => exact hnot
      obtain ⟨s₁, hstep, hjobs, hart, hphase₁⟩ : ∃ s₁,
          s.step settings (.cleanup w .ok) = some s₁ ∧ s₁.jobs = s.jobs ∧
          (∀ key, s₁.storage.get (.artifact key) = s.storage.get (.artifact key)) ∧
          s₁.phase w = WorkerPhase.cleanup rest := by
        cases call with
        | deleteBlob output jobId =>
            have hstep : s.step settings (.cleanup w .ok) = some ({ s with
                storage := s.storage.delete (output.key jobId) }.goto w (.cleanup rest)) := by
              simp only [step, cleanup, hphase]
              rfl
            refine ⟨_, hstep, rfl, ?_, goto_phase_self _ _ _⟩
            intro key
            exact Storage.get_delete_of_ne Output.key_ne_artifact
        | deleteChunks jobId =>
            have hstep : s.step settings (.cleanup w .ok) = some ({ s with
                chunks := s.chunks.deleteForJob jobId }.goto w (.cleanup rest)) := by
              simp only [step, cleanup, hphase]
              rfl
            exact ⟨_, hstep, rfl, fun _ => rfl, goto_phase_self _ _ _⟩
      obtain ⟨s', halone, hidle, hjobs'⟩ := ih s₁ hphase₁
        (by rw [NoneRunning, hjobs]; exact hnone)
        (by
          intro other hother
          rw [Succeeded, hjobs]
          exact hfailed other (List.mem_cons_of_mem call hother))
      exact ⟨s', (Alone.single (a := .cleanup w .ok) ⟨rfl, rfl⟩ hspares hstep hart).trans halone,
        hidle, hjobs'.trans hjobs⟩

/-! ## Stale recovery -/

/-- Every RUNNING job is stale at this time. -/
def AllStale (settings : IngestionSettings) (s : Ingestion) (clock : Timestamp) : Prop :=
  ∀ row ∈ s.jobs, row.status = .running → row.isStale (clock - settings.staleAfter) = true

/-- That time comes. -/
theorem exists_allStale (hrows : ∀ row ∈ s.jobs, JobCoherent settings.maxAttempts row) :
    ∃ clock, s.AllStale settings clock := by
  obtain ⟨latest, hlatest⟩ := s.jobs.exists_le (fun row => row.startedAt.getD 0)
  obtain ⟨clock, hclock⟩ : ∃ clock : Timestamp, latest < clock - settings.staleAfter :=
    ⟨latest + settings.staleAfter + 1, Int.lt_sub_right_of_add_lt (Int.lt_succ _)⟩
  refine ⟨clock, ?_⟩
  intro row hrow hrunning
  have hcoherent := hrows row hrow
  simp only [JobCoherent, hrunning] at hcoherent
  obtain ⟨started, hstarted⟩ := Option.ne_none_iff_exists'.mp hcoherent.2.1
  have hle := hlatest row hrow
  simp only [hstarted, Option.getD_some] at hle
  simp [IngestionJobRow.isStale, hrunning, hstarted, hle.trans_lt hclock]

/-- What recovery makes of a row at such a time. -/
def recovered (settings : IngestionSettings) (clock : Timestamp) (row : IngestionJobRow) :
    IngestionJobRow :=
  if row.status = .running then row.recover settings.maxAttempts clock else row

/-- A recovered job keeps its id. -/
theorem recovered_id (clock : Timestamp) (row : IngestionJobRow) :
    (recovered settings clock row).id = row.id := by
  unfold recovered
  split
  · exact IngestionJobRow.recover_id settings.maxAttempts clock row
  · rfl

/-- A recovered job is not running. -/
theorem recovered_not_running (clock : Timestamp) (row : IngestionJobRow) :
    (recovered settings clock row).status ≠ .running := by
  unfold recovered
  split
  · rcases row.recover_status settings.maxAttempts clock with hs | hs <;> simp [hs]
  · assumption

/-- The transaction of stale recovery at such a time, and the cleanup it leaves. -/
theorem recover_step {clock : Timestamp} (hidle : s.phase w = .idle)
    (hstale : s.AllStale settings clock) :
    ∃ s' todo, Alone settings w s s' ∧ s'.phase w = WorkerPhase.cleanup todo ∧
      s'.jobs.rows = s.jobs.rows.map (recovered settings clock) ∧
      ∀ call ∈ todo, ∃ row ∈ s.jobs, call.jobId = row.id ∧
        (recovered settings clock row).status = .queued := by
  have hrow : ∀ row ∈ s.jobs, (if row.isStale (clock - settings.staleAfter) then
      row.recover settings.maxAttempts clock else row) = recovered settings clock row := by
    intro row hrow
    unfold recovered
    by_cases hrunning : row.status = .running
    · rw [if_pos (hstale row hrow hrunning), if_pos hrunning]
    · simp [IngestionJobRow.isStale, hrunning]
  have hstep : s.step settings (.recover w clock clock) = some ({ s with
      jobs := (s.jobs.recoverStaleRunning (clock - settings.staleAfter) settings.maxAttempts
        clock).2 }.goto w (.cleanup ((((s.jobs.recoverStaleRunning (clock - settings.staleAfter)
          settings.maxAttempts clock).1.filter (fun job : IngestionJobRow =>
            decide (job.status = IngestionStatus.queued))).map
              IngestionJobRow.id).flatMap cleanupJobOutputs))) := by
    simp only [step, recover, hidle]
  refine ⟨_, _, Alone.single (a := .recover w clock clock) rfl trivial hstep (fun _ => rfl),
    goto_phase_self _ _ _, ?_, ?_⟩
  · exact List.map_congr_left hrow
  · intro call hcall
    obtain ⟨jobId, hjobId, hcall⟩ := List.mem_flatMap.mp hcall
    obtain ⟨job, hjob, rfl⟩ := List.mem_map.mp hjobId
    obtain ⟨hjob, hqueued⟩ := List.mem_filter.mp hjob
    obtain ⟨row, hread, rfl⟩ := List.mem_map.mp hjob
    obtain ⟨hmem, hrowStale⟩ := Table.mem_orderBy.mp hread
    have hbecomes := hrow row hmem
    rw [if_pos hrowStale] at hbecomes
    refine ⟨row, hmem, ?_, hbecomes ▸ of_decide_eq_true hqueued⟩
    rw [← IngestionJobRow.recover_id settings.maxAttempts clock row]
    simp only [cleanupJobOutputs, cleanupPartialResult, List.mem_append, List.mem_cons,
      List.not_mem_nil, or_false] at hcall
    rcases hcall with (rfl | rfl) | rfl <;> rfl

/-- An idle worker waits until every RUNNING job is stale, and recovers them all. -/
theorem recoverAll (hrows : ∀ row ∈ s.jobs, JobCoherent settings.maxAttempts row)
    (hidle : s.phase w = .idle) :
    ∃ s' clock, Alone settings w s s' ∧ s'.phase w = .idle ∧ s'.NoneRunning ∧
      s'.jobs.rows = s.jobs.rows.map (recovered settings clock) := by
  obtain ⟨clock, hstale⟩ := exists_allStale hrows
  obtain ⟨s₁, todo, halone, hphase, hjobs, htodo⟩ := recover_step hidle hstale
  have hnone : s₁.NoneRunning := by
    intro row' hrow'
    rw [Table.mem_iff, hjobs] at hrow'
    obtain ⟨row, -, rfl⟩ := List.mem_map.mp hrow'
    exact recovered_not_running clock row
  obtain ⟨s', halone', hidle', hjobs'⟩ := clean todo s₁ hphase hnone (by
    intro call hcall hsucceeded
    obtain ⟨row', hrow', hid, hstatus⟩ := hsucceeded
    obtain ⟨row, hrow, hcallId, hqueued⟩ := htodo call hcall
    have hmem : recovered settings clock row ∈ s₁.jobs := by
      rw [Table.mem_iff, hjobs]
      exact List.mem_map_of_mem hrow
    obtain rfl : row' = recovered settings clock row :=
      Table.eq_of_key_eq hrow' hmem ((hid.trans hcallId).trans (recovered_id clock row).symm)
    rw [hqueued] at hstatus
    cases hstatus)
  refine ⟨s', clock, halone.trans halone', hidle', ?_, by rw [hjobs', hjobs]⟩
  rw [NoneRunning, hjobs']
  exact hnone

/-! ## One turn of the worker -/

/-- The job is the one that runs, and the worker owns it. -/
structure Sole (w : String) (s : Ingestion) (job : IngestionJobRow) : Prop where
  mem : job ∈ s.jobs
  running : job.status = .running
  owned : job.workerId = some w
  only : ∀ row ∈ s.jobs, row.status = .running → row.id = job.id

section Sole

variable {job job' : IngestionJobRow}

/-- A job that is running has not succeeded. -/
theorem Sole.not_succeeded (h : Sole w s job) : ¬ s.Succeeded job.id := by
  intro hsucceeded
  obtain ⟨row, hrow, hid, hstatus⟩ := hsucceeded
  obtain rfl : row = job := Table.eq_of_key_eq hrow h.mem hid
  rw [h.running] at hstatus
  cases hstatus

/-- What the worker gives up has not succeeded. -/
theorem Sole.spares (h : Sole w s job) (hjob : (s.phase w).job? = some job) :
    ∀ held ∈ (s.phase w).job?, ¬ s.Succeeded held.id := by
  intro held hheld
  obtain rfl : job = held := Option.some.inj (hjob.symm.trans hheld)
  exact h.not_succeeded

/-- A state with the same rows has the same sole job. -/
theorem Sole.of_jobs_eq (h : Sole w s job) (hjobs : s'.jobs = s.jobs) : Sole w s' job :=
  ⟨hjobs ▸ h.mem, h.running, h.owned, hjobs ▸ h.only⟩

/-- The write that the worker guards exchanges the row of its job. -/
theorem Sole.replaces {f : IngestionJobRow → IngestionJobRow} (h : Sole w s job)
    (hid : ∀ row, (f row).id = row.id) :
    Table.Replaces s.jobs (s.jobs.update (IngestionJobRow.ownedBy job.id w) f hid) job (f job) := by
  apply Table.Replaces.of_update hid h.mem
  · exact IngestionJobRow.ownedBy_iff.mpr ⟨rfl, h.running, h.owned⟩
  · intro row _ howned
    exact (IngestionJobRow.ownedBy_iff.mp howned).1

/-- What becomes of a row, apart from the columns that no one asks for here. -/
def Turns (status : IngestionStatus) (job job' : IngestionJobRow) : Prop :=
  job'.artifactKey = job.artifactKey ∧ job'.attemptCount = job.attemptCount ∧
    job'.status = status

/-- The sole owner's success takes effect. -/
theorem Sole.markSucceeded (h : Sole w s job) (resultKey : BlobKey) (now : Timestamp) :
    ∃ job', Table.Replaces s.jobs (s.jobs.markSucceeded job.id w resultKey now) job job' ∧
      Turns .succeeded job job' :=
  ⟨_, h.replaces (by intro row; rfl), rfl, rfl, rfl⟩

/-- So does its failure. -/
theorem Sole.markFailed (h : Sole w s job) (code message : String) (now : Timestamp) :
    ∃ job', Table.Replaces s.jobs (s.jobs.markFailed job.id w code message now) job job' ∧
      Turns .failed job job' :=
  ⟨_, h.replaces (by intro row; rfl), rfl, rfl, rfl⟩

/-- And so does its release. -/
theorem Sole.releaseForRetry (h : Sole w s job) (code message : String) (delay : Int)
    (now : Timestamp) :
    ∃ job', Table.Replaces s.jobs (s.jobs.releaseForRetry job.id w code message delay now)
        job job' ∧ Turns .queued job job' :=
  ⟨_, h.replaces (by intro row; rfl), rfl, rfl, rfl⟩

/-- Once that row is exchanged no job is RUNNING. -/
theorem Sole.noneRunning (h : Sole w s job) (hreplaces : Table.Replaces s.jobs s'.jobs job job')
    (hnot : job'.status ≠ .running) : s'.NoneRunning := by
  intro row hrow hrunning
  rcases hreplaces.mem_iff.mp hrow with rfl | ⟨hold, hne⟩
  · exact hnot hrunning
  · exact hne (h.only row hold hrunning)

/-- A failure path: the transaction, then the cleanup of the blobs. -/
theorem Sole.giveUp {jobs : IngestionJobs} {a : WorkerAction} (h : Sole w s job)
    (hreplaces : Table.Replaces s.jobs jobs job job') (hsolo : solo w s a)
    (hspares : sparesOutputs s a)
    (hstep : s.step settings a = some (s.giveUp w job jobs))
    (hstatus : job'.status = .failed ∨ job'.status = .queued) :
    ∃ s', Alone settings w s s' ∧ s'.phase w = .idle ∧
      Table.Replaces s.jobs s'.jobs job job' := by
  have hnot : ∀ call ∈ cleanupPartialResult job.id,
      ¬ (s.giveUp w job jobs).Succeeded call.jobId := by
    intro call hcall hsucceeded
    obtain ⟨row, hrow, hrowId, hrowStatus⟩ := hsucceeded
    have hcallId : call.jobId = job.id := by
      simp only [cleanupPartialResult, List.mem_cons, List.not_mem_nil, or_false] at hcall
      rcases hcall with rfl | rfl <;> rfl
    obtain rfl : row = job' := Table.eq_of_key_eq hrow hreplaces.mem'
      ((hrowId.trans hcallId).trans hreplaces.key_eq.symm)
    rcases hstatus with hs | hs <;> simp [hs] at hrowStatus
  have hnone : (s.giveUp w job jobs).NoneRunning :=
    h.noneRunning hreplaces (by rcases hstatus with hs | hs <;> simp [hs])
  obtain ⟨s', halone, hidle, hjobs⟩ : ∃ s', Alone settings w (s.giveUp w job jobs) s' ∧
      s'.phase w = .idle ∧ s'.jobs = jobs :=
    clean (cleanupPartialResult job.id) _ (goto_phase_self _ _ _) hnone hnot
  refine ⟨s', (Alone.single hsolo hspares hstep (fun _ => rfl)).trans halone, hidle, ?_⟩
  rw [hjobs]
  exact hreplaces

end Sole

/-- A publication that the storage accepts. -/
theorem Alone.put {job : IngestionJobRow} {output : Output} {blob : Blob} {next : WorkerPhase}
    {a : WorkerAction} (hsolo : solo w s a) (hspares : sparesOutputs s a)
    (hstep : s.step settings a = some (s.put w job output blob .ok "" next)) :
    Alone settings w s (s.put w job output blob .ok "" next) :=
  Alone.single hsolo hspares hstep (fun _ => Storage.get_put_of_ne Output.key_ne_artifact)

/-- After a put that succeeds the worker goes on. -/
@[simp] theorem put_phase_self (job : IngestionJobRow) (output : Output) (blob : Blob)
    (message : String) (next : WorkerPhase) :
    (s.put w job output blob .ok message next).phase w = next := by
  simp [Ingestion.put]

/-- A put leaves the jobs alone. -/
@[simp] theorem put_jobs (job : IngestionJobRow) (output : Output) (blob : Blob)
    (outcome : CallOutcome) (message : String) (next : WorkerPhase) :
    (s.put w job output blob outcome message next).jobs = s.jobs := rfl

/-- A worker that holds the chunks of its job publishes both blobs. -/
theorem publish {job : IngestionJobRow} {artifact : ParsedArtifact}
    (hphase : s.phase w = .parsed job artifact) :
    ∃ s', Alone settings w s s' ∧ s'.jobs = s.jobs ∧
      s'.phase w = .processed job (ingestResult settings job artifact) := by
  obtain ⟨s₁, halone₁, hphase₁, hjobs₁⟩ : ∃ s₁, Alone settings w s s₁ ∧
      s₁.phase w = .canonicalStored job artifact ∧ s₁.jobs = s.jobs := by
    have hstep : s.step settings (.putCanonical w .ok "") = some (s.put w job .canonical
        (canonicalBlob artifact) .ok "" (.canonicalStored job artifact)) := by
      simp only [step, putCanonical, hphase]
    exact ⟨_, Alone.put (a := .putCanonical w .ok "") ⟨rfl, rfl⟩ trivial hstep,
      put_phase_self _ _ _ _ _, put_jobs _ _ _ _ _ _⟩
  have hstep : s₁.step settings (.putResult w .ok "") = some (s₁.put w job .result
      (resultBlob settings job artifact) .ok ""
      (.processed job (ingestResult settings job artifact))) := by
    simp only [step, putResult, hphase₁]
  exact ⟨_, halone₁.trans (Alone.put (a := .putResult w .ok "") ⟨rfl, rfl⟩ trivial hstep), hjobs₁,
    put_phase_self _ _ _ _ _⟩

/-- What the database takes is committed, with the success of the job. -/
theorem commit {job : IngestionJobRow} {artifact : ParsedArtifact}
    (hreach : (ingestionWorkers settings).Reach always s)
    (hphase : s.phase w = .processed job (ingestResult settings job artifact)) (h : Sole w s job)
    (hstorable : artifact.chunks.all ChunkDraft.storable = true) :
    ∃ s' job', Alone settings w s s' ∧ s'.phase w = .idle ∧
      Table.Replaces s.jobs s'.jobs job job' ∧ Turns .succeeded job job' := by
  have hheld : (s.phase w).chunks? = some (ingestResult settings job artifact).chunks := by
    rw [hphase]
    rfl
  have hnotRefused : s.chunks.replaceForJob s.nextUuid job.id job.submissionId job.artifactKey
      parserVersion chunkerVersion artifact.chunks 0 ≠ none :=
    (genuine_of_reach hreach).not_refused hheld
  obtain ⟨chunks, hchunks⟩ := Option.ne_none_iff_exists'.mp hnotRefused
  have hstep : s.step settings (.succeed w 0) = some ({ s with
      chunks := chunks
      jobs := s.jobs.markSucceeded job.id w (.result job.id) 0
      nextUuid := s.nextUuid + artifact.chunks.length }.goto w .idle) := by
    simp only [step, succeed, hphase, ingestResult, hchunks]
  have htaken : ¬ s.Refused w := by
    rintro ⟨other, result, hother, hrefused⟩
    rw [hphase] at hother
    obtain ⟨-, rfl⟩ := WorkerPhase.processed.inj hother
    rw [show (ingestResult settings job artifact).chunks = artifact.chunks from rfl,
      hstorable] at hrefused
    cases hrefused
  obtain ⟨job', hreplaces, hturns⟩ := h.markSucceeded (.result job.id) 0
  exact ⟨_, job', Alone.single (a := .succeed w 0) ⟨rfl, htaken⟩ trivial hstep (fun _ => rfl),
    goto_phase_self _ _ _, hreplaces, hturns⟩

/-- What it does not take ends the worker; the job is recovered once it is stale. -/
theorem withdraw {job : IngestionJobRow} {artifact : ParsedArtifact}
    (hmax : 1 ≤ settings.maxAttempts) (hreach : (ingestionWorkers settings).Reach always s)
    (hphase : s.phase w = .processed job (ingestResult settings job artifact)) (h : Sole w s job)
    (hrefused : artifact.chunks.all ChunkDraft.storable = false) :
    ∃ s' job', Alone settings w s s' ∧ s'.phase w = .idle ∧
      Table.Replaces s.jobs s'.jobs job job' ∧
      Turns (if settings.maxAttempts ≤ job.attemptCount then .failed else .queued) job job' := by
  have hdies : Alone settings w s (s.goto w .idle) :=
    Alone.single (a := .die w) ⟨rfl, job, _, hphase, hrefused⟩ trivial rfl (fun _ => rfl)
  obtain ⟨s', clock, halone, hidle, -, hjobs⟩ :=
    recoverAll (counted_of_reach hmax (hdies.reach hreach)).rows (goto_phase_self s w .idle)
  refine ⟨s', recovered settings clock job, hdies.trans halone, hidle,
    ⟨h.mem, recovered_id clock job, ?_⟩, ?_⟩
  · rw [hjobs, goto_jobs]
    apply List.map_congr_left
    intro row hrow
    by_cases hid : row.id = job.id
    · obtain rfl : row = job := Table.eq_of_key_eq hrow h.mem hid
      simp
    · -- no other job runs
      have hother : row.status ≠ .running := fun hrunning => hid (h.only row hrow hrunning)
      simp [recovered, hother, hid]
  · unfold recovered Turns IngestionJobRow.recover
    rw [if_pos h.running]
    by_cases hspent : settings.maxAttempts ≤ job.attemptCount
    · simp [hspent]
    · simp [hspent]

/-- A worker whose job has failed in a retryable way requeues it, or fails it with
its last attempt. -/
theorem giveBack {job : IngestionJobRow} {code message : String}
    (hphase : s.phase w = .retrying job code message) (h : Sole w s job) :
    ∃ s' job', Alone settings w s s' ∧ s'.phase w = .idle ∧
      Table.Replaces s.jobs s'.jobs job job' ∧
      Turns (if settings.maxAttempts ≤ job.attemptCount then .failed else .queued) job job' := by
  have hspares : sparesOutputs s (.retry w 0) := h.spares (by rw [hphase]; rfl)
  by_cases hspent : settings.maxAttempts ≤ job.attemptCount
  · have hstep : s.step settings (.retry w 0) = some (s.giveUp w job
        (s.jobs.markFailed job.id w code (message ++ " (attempts exhausted)") 0)) := by
      simp only [step, retry, hphase, ge_iff_le, hspent, if_true]
    obtain ⟨job', hwritten, hturns⟩ :=
      h.markFailed code (message ++ " (attempts exhausted)") 0
    obtain ⟨s', halone, hidle, hreplaces⟩ :=
      h.giveUp (a := .retry w 0) hwritten rfl hspares hstep (Or.inl hturns.2.2)
    rw [if_pos hspent]
    exact ⟨s', job', halone, hidle, hreplaces, hturns⟩
  · have hstep : s.step settings (.retry w 0) = some (s.giveUp w job
        (s.jobs.releaseForRetry job.id w code message settings.retryDelay 0)) := by
      simp only [step, retry, hphase, ge_iff_le, hspent, if_false]
    obtain ⟨job', hwritten, hturns⟩ := h.releaseForRetry code message settings.retryDelay 0
    obtain ⟨s', halone, hidle, hreplaces⟩ :=
      h.giveUp (a := .retry w 0) hwritten rfl hspares hstep (Or.inr hturns.2.2)
    rw [if_neg hspent]
    exact ⟨s', job', halone, hidle, hreplaces, hturns⟩

/-- A worker whose job has failed for good says so. -/
theorem refuse {job : IngestionJobRow} {code message : String}
    (hphase : s.phase w = .failing job code message) (h : Sole w s job) :
    ∃ s' job', Alone settings w s s' ∧ s'.phase w = .idle ∧
      Table.Replaces s.jobs s'.jobs job job' ∧ Turns .failed job job' := by
  have hspares : sparesOutputs s (.fail w 0) := h.spares (by rw [hphase]; rfl)
  have hstep : s.step settings (.fail w 0) =
      some (s.giveUp w job (s.jobs.markFailed job.id w code message 0)) := by
    simp only [step, fail, hphase]
  obtain ⟨job', hwritten, hturns⟩ := h.markFailed code message 0
  obtain ⟨s', halone, hidle, hreplaces⟩ :=
    h.giveUp (a := .fail w 0) hwritten rfl hspares hstep (Or.inl hturns.2.2)
  exact ⟨s', job', halone, hidle, hreplaces, hturns⟩

/-- A worker brings the job it has claimed to the end of a turn. -/
theorem process {job : IngestionJobRow} (hmax : 1 ≤ settings.maxAttempts)
    (hreach : (ingestionWorkers settings).Reach always s) (hphase : s.phase w = .claimed job)
    (h : Sole w s job) :
    ∃ s' job', Alone settings w s s' ∧ s'.phase w = .idle ∧
      Table.Replaces s.jobs s'.jobs job job' ∧
      Turns (roundStatus settings job (s.storage.get (.artifact job.artifactKey))) job job' := by
  have hparse : ∀ phase, s.step settings (.parse w none) = some (s.goto w phase) →
      Alone settings w s (s.goto w phase) := by
    intro phase hstep
    exact Alone.single (a := .parse w none) ⟨rfl, rfl⟩ trivial hstep (fun _ => rfl)
  have hsole : ∀ phase, Sole w (s.goto w phase) job :=
    fun phase => h.of_jobs_eq (goto_jobs s w phase)
  unfold roundStatus
  cases hparsed : parseArtifact settings job (s.storage.get (.artifact job.artifactKey)) with
  | ok artifact =>
      have hparses := hparse (.parsed job artifact) (by simp only [step, parse, hphase, hparsed])
      obtain ⟨s₁, hpublishes, hjobs, hphase₁⟩ : ∃ s₁,
          Alone settings w (s.goto w (.parsed job artifact)) s₁ ∧ s₁.jobs = s.jobs ∧
          s₁.phase w = .processed job (ingestResult settings job artifact) :=
        publish (goto_phase_self s w (.parsed job artifact))
      have halone := hparses.trans hpublishes
      have hsole₁ : Sole w s₁ job := h.of_jobs_eq hjobs
      by_cases hstorable : artifact.chunks.all ChunkDraft.storable = true
      · obtain ⟨s', job', halone', hidle, hreplaces, hturns⟩ :=
          commit (halone.reach hreach) hphase₁ hsole₁ hstorable
        rw [hjobs] at hreplaces
        simp only [hstorable, if_true]
        exact ⟨s', job', halone.trans halone', hidle, hreplaces, hturns⟩
      · obtain ⟨s', job', halone', hidle, hreplaces, hturns⟩ :=
          withdraw hmax (halone.reach hreach) hphase₁ hsole₁ (Bool.not_eq_true _ ▸ hstorable)
        rw [hjobs] at hreplaces
        rw [Bool.not_eq_true] at hstorable
        simp only [hstorable, Bool.false_eq_true, if_false]
        exact ⟨s', job', halone.trans halone', hidle, hreplaces, hturns⟩
  | error error =>
      have halone := hparse (.handling job error) (by simp only [step, parse, hphase, hparsed])
      cases error with
      | deterministic code message =>
          obtain ⟨s', job', halone', hturned⟩ := refuse (goto_phase_self _ _ _) (hsole _)
          exact ⟨s', job', halone.trans halone', hturned⟩
      | transient code message =>
          obtain ⟨s', job', halone', hturned⟩ := giveBack (goto_phase_self _ _ _) (hsole _)
          exact ⟨s', job', halone.trans halone', hturned⟩
      | unexpected message =>
          obtain ⟨s', job', halone', hturned⟩ := giveBack (goto_phase_self _ _ _) (hsole _)
          exact ⟨s', job', halone.trans halone', hturned⟩

/-- A turn of a QUEUED job: the attempt is counted, and the job ends or is queued
again with its verdict unchanged. -/
structure Round (settings : IngestionSettings) (raw : Option Blob)
    (row row' : IngestionJobRow) : Prop where
  queued : row.status = .queued
  artifactKey : row'.artifactKey = row.artifactKey
  attemptCount : row'.attemptCount = row.attemptCount + 1
  status : row'.status = verdict settings row.attemptCount raw ∨
    row'.status = .queued ∧ row.attemptCount + 1 < settings.maxAttempts ∧
      verdict settings (row.attemptCount + 1) raw = verdict settings row.attemptCount raw

/-- An idle worker takes a QUEUED job, if there is one. -/
theorem take (settings : IngestionSettings) (hidle : s.phase w = .idle) (hnone : s.NoneRunning)
    (hqueued : ∃ row ∈ s.jobs, row.status = .queued) :
    ∃ s' row now, Alone settings w s s' ∧ row.status = .queued ∧ s'.storage = s.storage ∧
      s'.phase w = .claimed (row.startRunning w now) ∧ Sole w s' (row.startRunning w now) ∧
      Table.Replaces s.jobs s'.jobs row (row.startRunning w now) := by
  -- a time at which every job is due
  obtain ⟨now, hdue⟩ := s.jobs.exists_le IngestionJobRow.availableAt
  obtain ⟨candidate, hcandidate, hstatus⟩ := hqueued
  cases hclaim : s.jobs.claimNext w [] now with
  | none =>
      exfalso
      unfold IngestionJobs.claimNext at hclaim
      split at hclaim
      · rename_i hnil
        have hmiss := Table.orderBy_eq_nil_iff.mp hnil candidate hcandidate
        simp [IngestionJobRow.claimable, hstatus, hdue candidate hcandidate] at hmiss
      · cases hclaim
  | some claimed =>
      obtain ⟨job, jobs⟩ := claimed
      obtain ⟨row, hrow, hrowQueued, rfl, rfl⟩ := IngestionJobs.queued_of_claimNext hclaim
      have hreplaces := Table.Replaces.of_update (t := s.jobs) (x := row)
        (p := fun other => decide (other.id = row.id))
        (f := fun other => other.startRunning w now) (fun _ => rfl) hrow (by simp)
        (fun _ _ hid => of_decide_eq_true hid)
      have hstep : s.step settings (.claim w [] now) = some ({ s with
          jobs := s.jobs.update (fun other => decide (other.id = row.id))
            (fun other => other.startRunning w now) (fun _ => rfl) }.goto w
          (.claimed (row.startRunning w now))) := by
        simp only [step, claim, hidle, hclaim, Option.map_some]
      refine ⟨_, row, now, Alone.single (a := .claim w [] now) ⟨rfl, rfl⟩ trivial hstep
        (fun _ => rfl), hrowQueued, rfl, goto_phase_self _ _ _, ⟨hreplaces.mem', rfl, rfl, ?_⟩,
        hreplaces⟩
      intro other hother hrunning
      rcases hreplaces.mem_iff.mp hother with rfl | ⟨hold, -⟩
      · rfl
      · exact absurd hrunning (hnone other hold)

/-- **One turn of `run_once`.** -/
theorem round (hmax : 1 ≤ settings.maxAttempts)
    (hreach : (ingestionWorkers settings).Reach always s) (hidle : s.phase w = .idle)
    (hnone : s.NoneRunning) (hqueued : ∃ row ∈ s.jobs, row.status = .queued) :
    ∃ s' row row', Alone settings w s s' ∧ s'.phase w = .idle ∧ s'.NoneRunning ∧
      Table.Replaces s.jobs s'.jobs row row' ∧
      Round settings (s.storage.get (.artifact row.artifactKey)) row row' := by
  obtain ⟨s₁, row, now, halone, hrow, hstorage, hphase, hsole, hclaimed⟩ :=
    take settings hidle hnone hqueued
  obtain ⟨s', row', halone', hidle', hreplaces, hkey, hattempts, hstatus⟩ :=
    process hmax (halone.reach hreach) hphase hsole
  rw [hstorage] at hstatus
  have hcount : (row.startRunning w now).attemptCount = row.attemptCount + 1 := rfl
  have hcases := roundStatus_cases settings (row.startRunning w now)
    (s.storage.get (.artifact row.artifactKey)) hcount
  have hturned : row'.status = verdict settings row.attemptCount
        (s.storage.get (.artifact row.artifactKey)) ∨
      row'.status = .queued ∧ row.attemptCount + 1 < settings.maxAttempts ∧
        verdict settings (row.attemptCount + 1) (s.storage.get (.artifact row.artifactKey)) =
          verdict settings row.attemptCount (s.storage.get (.artifact row.artifactKey)) := by
    rcases hcases with hends | ⟨hrequeued, hrest⟩
    · exact Or.inl (hstatus.trans hends)
    · exact Or.inr ⟨hstatus.trans hrequeued, hrest⟩
  refine ⟨s', row, row', halone.trans halone', hidle', hsole.noneRunning hreplaces ?_,
    hclaimed.trans hreplaces, hrow, hkey, hattempts, hturned⟩
  rcases hturned with hends | ⟨hrequeued, -⟩
  · rw [hends]
    rcases verdict_terminal settings row.attemptCount
      (s.storage.get (.artifact row.artifactKey)) with hs | hs <;> simp [hs]
  · simp [hrequeued]

namespace Round

variable {raw : Option Blob} {row row' : IngestionJobRow}

end Round

/-- What is left to do for a job. -/
def weight (settings : IngestionSettings) (row : IngestionJobRow) : Nat :=
  match row.status with
  | .queued | .running => 1 + (settings.maxAttempts - row.attemptCount)
  | .succeeded | .failed => 0

/-- How a row has ended: as its fate says, and untouched if it had ended before. -/
def Ended (settings : IngestionSettings) (storage : Storage) (row row' : IngestionJobRow) : Prop :=
  row'.status = fate settings storage row ∧ (row.status.terminal → row' = row)

end Ingestion

end ChallengeForge
