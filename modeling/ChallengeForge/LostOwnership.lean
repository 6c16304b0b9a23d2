import ChallengeForge.ChunkRows
import ChallengeForge.IngestionWorkers

/-!
# Final transactions of a worker that has lost its job

A worker whose claim was recovered as stale goes on with the job it remembers,
and ends with one of four transactions: a success, a deterministic failure, a
failure of the last attempt, or a release.  Each writes the chunk rows of the
job first, and the job row under the guard that the worker still owns it.

* `jobs_of_lost` — the guard finds no row, and no job changes;
* `lost_transaction_iff` — the chunks stay as they are only if the job has none
  and the worker brings none;
* `lost_transaction_deletes` — a job has succeeded under another worker, and the
  release of the first deletes its chunks.
-/

namespace ChallengeForge

open Keyed Labelled

/-- The worker whose final transaction an action is. -/
def WorkerAction.finalOf? : WorkerAction → Option String
  | .succeed workerId _ | .fail workerId _ | .retry workerId _ => some workerId
  | _ => none

namespace IngestionJobs

variable {jobs : IngestionJobs} {jobId : UUID} {workerId : String}

/-- A worker that does not own a job finds no row to write. -/
theorem owns_eq_false_iff : jobs.owns jobId workerId = false ↔
    ∀ row ∈ jobs, row.ownedBy jobId workerId = false := by
  unfold owns
  rw [List.any_eq_false]
  exact forall₂_congr (fun row _ => Bool.eq_false_iff.symm)

variable (hlost : jobs.owns jobId workerId = false)

include hlost

/-- The success of an owner that lost its job changes nothing. -/
theorem markSucceeded_of_lost (resultKey : BlobKey) (now : Timestamp) :
    jobs.markSucceeded jobId workerId resultKey now = jobs :=
  Table.update_eq_self (owns_eq_false_iff.mp hlost)

/-- Nor does its failure. -/
theorem markFailed_of_lost (errorCode errorMessage : String) (now : Timestamp) :
    jobs.markFailed jobId workerId errorCode errorMessage now = jobs :=
  Table.update_eq_self (owns_eq_false_iff.mp hlost)

/-- Nor does its release. -/
theorem releaseForRetry_of_lost (errorCode errorMessage : String) (delay : Int)
    (now : Timestamp) :
    jobs.releaseForRetry jobId workerId errorCode errorMessage delay now = jobs :=
  Table.update_eq_self (owns_eq_false_iff.mp hlost)

end IngestionJobs

namespace Ingestion

variable {settings : IngestionSettings} {s s' : Ingestion} {workerId : String}

/-- Ids are drawn once, and what a worker holds are the chunks of a document. -/
structure Genuine (settings : IngestionSettings) (s : Ingestion) : Prop where
  fresh : ∀ row ∈ s.chunks, row.id < s.nextUuid
  results : ∀ workerId drafts, (s.phase workerId).chunks? = some drafts →
    ∃ rawText, chunkHybrid (normalizeToCanonical rawText) settings.chunkMaxChars = .ok drafts

/-- Neither the table nor the worker has a chunk of the job. -/
def Chunkless (s : Ingestion) (workerId : String) (job : IngestionJobRow) : Prop :=
  (∀ row ∈ s.chunks, row.ingestionJobId ≠ job.id) ∧
    ∀ drafts, (s.phase workerId).chunks? = some drafts → drafts = []

/-! ## Every reachable state is genuine -/

/-- No chunk row is added, and no worker takes up chunks. -/
theorem Genuine.mono (h : s.Genuine settings) (hrows : ∀ row ∈ s'.chunks, row ∈ s.chunks)
    (huuid : s.nextUuid ≤ s'.nextUuid)
    (hphase : ∀ workerId drafts, (s'.phase workerId).chunks? = some drafts →
      (s.phase workerId).chunks? = some drafts) : s'.Genuine settings where
  fresh row hrow := (h.fresh row (hrows row hrow)).trans_le huuid
  results workerId drafts hheld := h.results workerId drafts (hphase workerId drafts hheld)

/-- A worker moves on, and the chunks it then holds are those of a document. -/
theorem Genuine.goto {phase : WorkerPhase} (h : s.Genuine settings)
    (hphase : ∀ drafts, phase.chunks? = some drafts →
      ∃ rawText, chunkHybrid (normalizeToCanonical rawText) settings.chunkMaxChars = .ok drafts) :
    (s.goto workerId phase).Genuine settings := by
  refine ⟨h.fresh, ?_⟩
  intro other drafts hheld
  unfold Ingestion.goto at hheld
  dsimp only at hheld
  by_cases hsame : other = workerId
  · rw [hsame, Function.update_self] at hheld
    exact hphase drafts hheld
  · rw [Function.update_of_ne hsame] at hheld
    exact h.results other drafts hheld

/-- A worker may go to any phase that holds no chunks. -/
theorem Genuine.goto_of_none {phase : WorkerPhase} (h : s.Genuine settings)
    (hphase : phase.chunks? = none) : (s.goto workerId phase).Genuine settings := by
  apply h.goto
  intro drafts hheld
  rw [hphase] at hheld
  cases hheld

/-- A worker that cleans up holds no chunks. -/
theorem chunks?_cleanup (todo : List CleanupCall) : (WorkerPhase.cleanup todo).chunks? = none := by
  cases todo <;> rfl

/-- A worker that handles an error holds no chunks. -/
theorem chunks?_handling (job : IngestionJobRow) (error : IngestError) :
    (WorkerPhase.handling job error).chunks? = none := by
  cases error <;> rfl

/-- What is parsed from an artifact are the chunks of a document. -/
theorem document_of_parseArtifact {job : IngestionJobRow} {storage : Storage}
    {artifact : ParsedArtifact}
    (h : parseArtifact settings job (storage.get (.artifact job.artifactKey)) = .ok artifact) :
    ∃ rawText, chunkHybrid (normalizeToCanonical rawText) settings.chunkMaxChars =
      .ok artifact.chunks := by
  have hchunks := parseArtifact_eq_ok h
  unfold artifactChunks at hchunks
  obtain ⟨rawText, -, hyields⟩ := Option.bind_eq_some_iff.mp hchunks
  refine ⟨rawText, ?_⟩
  cases hresult : chunkHybrid (normalizeToCanonical rawText) settings.chunkMaxChars with
  | error message => simp [hresult, Except.toOption] at hyields
  | ok drafts =>
      obtain rfl : drafts = artifact.chunks := by
        simpa [hresult, Except.toOption] using hyields
      rfl

/-- Storing an output keeps the chunks that workers hold. -/
theorem Genuine.put {job : IngestionJobRow} {output : Output} {blob : Blob}
    {outcome : CallOutcome} {message : String} {next : WorkerPhase} (h : s.Genuine settings)
    (hnext : next.chunks? = (s.phase workerId).chunks?) :
    (s.put workerId job output blob outcome message next).Genuine settings := by
  have hstored : ({ s with
      storage := if outcome.applied then s.storage.put (output.key job.id) blob
        else s.storage } : Ingestion).Genuine settings := ⟨h.fresh, h.results⟩
  unfold Ingestion.put
  apply hstored.goto
  intro drafts hheld
  split at hheld
  · exact h.results workerId drafts (hnext ▸ hheld)
  · rw [chunks?_handling] at hheld
    cases hheld

/-- A transaction that deletes chunk rows, and a cleanup that follows. -/
theorem Genuine.deleted {jobs : IngestionJobs} {chunks : DocumentChunks} {phase : WorkerPhase}
    (h : s.Genuine settings) (hrows : ∀ row ∈ chunks, row ∈ s.chunks)
    (hphase : phase.chunks? = none) :
    ({ s with chunks := chunks, jobs := jobs }.goto workerId phase).Genuine settings := by
  have hdeleted : ({ s with chunks := chunks, jobs := jobs } : Ingestion).Genuine settings :=
    h.mono hrows (Nat.le_refl _) (fun _ _ hheld => hheld)
  exact hdeleted.goto_of_none hphase

/-- What a delete leaves was there. -/
theorem mem_of_deleteForJob {chunks : DocumentChunks} {jobId : UUID} {row : DocumentChunkRow}
    (hrow : row ∈ chunks.deleteForJob jobId) : row ∈ chunks :=
  (Table.mem_delete.mp hrow).1

/-- The chunks a success writes are those its worker holds. -/
theorem Genuine.succeed {now : Timestamp} (h : s.Genuine settings)
    (hstep : s.succeed workerId now = some s') : s'.Genuine settings := by
  unfold Ingestion.succeed at hstep
  split at hstep
  · rename_i job result hphase
    split at hstep
    · cases hstep
      exact h.goto_of_none rfl
    · rename_i chunks hreplace
      cases hstep
      have hreplaced : ({ s with
          chunks := chunks
          jobs := s.jobs.markSucceeded job.id workerId result.resultKey now
          nextUuid := s.nextUuid + result.chunks.length } : Ingestion).Genuine settings := by
        refine ⟨?_, h.results⟩
        intro row hrow
        rw [Table.mem_iff, DocumentChunks.rows_of_replaceForJob hreplace] at hrow
        rcases List.mem_append.mp hrow with hold | hnew
        · exact Nat.lt_add_right _ (h.fresh row (mem_of_deleteForJob hold))
        · exact (DocumentChunks.id_of_mem_newRows hnew).2
      exact hreplaced.goto_of_none rfl
  · cases hstep

/-- One step keeps a state genuine. -/
theorem Genuine.step {a : WorkerAction} (h : s.Genuine settings)
    (hstep : s.step settings a = some s') : s'.Genuine settings := by
  cases a with
  | upload key blob =>
      have hmoved : s.upload key blob = some s' := hstep
      unfold Ingestion.upload at hmoved
      split at hmoved
      · cases hmoved
      · cases hmoved
        exact ⟨h.fresh, h.results⟩
  | enqueue submissionId key now =>
      obtain ⟨jobs, -, rfl⟩ := Option.map_eq_some_iff.mp hstep
      exact h.mono (fun _ hrow => hrow) (Nat.le_succ _) (fun _ _ hheld => hheld)
  | claim workerId locked now =>
      have hmoved : s.claim workerId locked now = some s' := hstep
      unfold Ingestion.claim at hmoved
      split at hmoved
      · obtain ⟨claimed, -, rfl⟩ := Option.map_eq_some_iff.mp hmoved
        exact h.deleted (fun _ hrow => hrow) rfl
      · cases hmoved
  | parse workerId raised =>
      have hmoved : s.parse settings workerId raised = some s' := hstep
      unfold Ingestion.parse at hmoved
      split at hmoved
      · cases hmoved
        exact h.goto_of_none (chunks?_handling _ _)
      · split at hmoved
        · cases hmoved
          exact h.goto_of_none (chunks?_handling _ _)
        · rename_i artifact hparsed
          cases hmoved
          apply h.goto
          intro drafts hheld
          cases hheld
          exact document_of_parseArtifact hparsed
      · cases hmoved
  | putCanonical workerId outcome message =>
      have hmoved : s.putCanonical workerId outcome message = some s' := hstep
      unfold Ingestion.putCanonical at hmoved
      split at hmoved
      · rename_i job artifact hphase
        cases hmoved
        exact h.put (by rw [hphase]; rfl)
      · cases hmoved
  | putResult workerId outcome message =>
      have hmoved : s.putResult settings workerId outcome message = some s' := hstep
      unfold Ingestion.putResult at hmoved
      split at hmoved
      · rename_i job artifact hphase
        cases hmoved
        exact h.put (by rw [hphase]; rfl)
      · cases hmoved
  | succeed workerId now => exact h.succeed hstep
  | fail workerId now =>
      have hmoved : s.fail workerId now = some s' := hstep
      unfold Ingestion.fail at hmoved
      split at hmoved
      · cases hmoved
        exact h.deleted (fun _ hrow => mem_of_deleteForJob hrow) (chunks?_cleanup _)
      · cases hmoved
  | retry workerId now =>
      have hmoved : s.retry settings workerId now = some s' := hstep
      unfold Ingestion.retry at hmoved
      split at hmoved
      · cases hmoved
        exact h.deleted (fun _ hrow => mem_of_deleteForJob hrow) (chunks?_cleanup _)
      · cases hmoved
  | recover workerId clock now =>
      have hmoved : s.recover settings workerId clock now = some s' := hstep
      unfold Ingestion.recover at hmoved
      split at hmoved
      · cases hmoved
        exact h.deleted (fun _ hrow => hrow) (chunks?_cleanup _)
      · cases hmoved
  | cleanup workerId outcome =>
      have hmoved : s.cleanup workerId outcome = some s' := hstep
      unfold Ingestion.cleanup at hmoved
      split at hmoved
      · rename_i output jobId rest hphase
        cases hmoved
        have hstored : ({ s with
            storage := if outcome.applied then s.storage.delete (output.key jobId)
              else s.storage } : Ingestion).Genuine settings := ⟨h.fresh, h.results⟩
        exact hstored.goto_of_none (chunks?_cleanup _)
      · cases hmoved
        refine h.deleted ?_ ?_
        · intro row hrow
          split at hrow
          · exact mem_of_deleteForJob hrow
          · exact hrow
        · split
          · exact chunks?_cleanup _
          · rfl
      · cases hmoved
  | die workerId =>
      cases hstep
      exact h.goto_of_none rfl

/-- Chunks are genuine in every state the workers reach. -/
theorem genuine_of_reach (hreach : (ingestionWorkers settings).Reach always s) :
    s.Genuine settings := by
  refine hreach.invariant ?_ (fun s a t hs _ hstep => hs.step hstep)
  intro s hstart
  obtain rfl : s = emptyIngestion := hstart
  refine ⟨?_, ?_⟩
  · intro row hrow
    exact absurd hrow (Table.not_mem_empty row)
  · intro workerId drafts hheld
    cases hheld

/-! ## Final transactions -/

/-- What a final transaction for a job commits. -/
inductive FinalEffect (s : Ingestion) (workerId : String) (job : IngestionJobRow)
    (s' : Ingestion) : Prop
  | replaced {result : IngestResult} {now : Timestamp}
      (hheld : (s.phase workerId).chunks? = some result.chunks)
      (hchunks : s.chunks.replaceForJob s.nextUuid job.id job.submissionId job.artifactKey
        result.parserVersion result.chunkerVersion result.chunks now = some s'.chunks)
      (hjobs : s'.jobs = s.jobs.markSucceeded job.id workerId result.resultKey now)
  /-- A constraint refused the chunks, and nothing is committed. -/
  | refused {result : IngestResult} {now : Timestamp}
      (hheld : (s.phase workerId).chunks? = some result.chunks)
      (hnone : s.chunks.replaceForJob s.nextUuid job.id job.submissionId job.artifactKey
        result.parserVersion result.chunkerVersion result.chunks now = none)
  | failed {code message : String} {now : Timestamp}
      (hheld : (s.phase workerId).chunks? = none)
      (hchunks : s'.chunks = s.chunks.deleteForJob job.id)
      (hjobs : s'.jobs = s.jobs.markFailed job.id workerId code message now)
  | released {code message : String} {delay : Int} {now : Timestamp}
      (hheld : (s.phase workerId).chunks? = none)
      (hchunks : s'.chunks = s.chunks.deleteForJob job.id)
      (hjobs : s'.jobs = s.jobs.releaseForRetry job.id workerId code message delay now)

/-- The final transactions of `run_once` and `_handle_retryable`. -/
theorem final_effect {a : WorkerAction} {job : IngestionJobRow}
    (hfinal : a.finalOf? = some workerId) (hjob : (s.phase workerId).job? = some job)
    (hstep : s.step settings a = some s') : FinalEffect s workerId job s' := by
  cases a with
  | succeed other now =>
      obtain rfl : other = workerId := Option.some.inj hfinal
      have hmoved : s.succeed other now = some s' := hstep
      unfold Ingestion.succeed at hmoved
      split at hmoved
      · rename_i held result hphase
        rw [hphase] at hjob
        obtain rfl : held = job := Option.some.inj hjob
        have hheld : (s.phase other).chunks? = some result.chunks := by
          rw [hphase]
          rfl
        split at hmoved
        · rename_i hnone
          exact .refused hheld hnone
        · rename_i chunks hreplace
          cases hmoved
          exact .replaced hheld hreplace rfl
      · cases hmoved
  | fail other now =>
      obtain rfl : other = workerId := Option.some.inj hfinal
      have hmoved : s.fail other now = some s' := hstep
      unfold Ingestion.fail at hmoved
      split at hmoved
      · rename_i held code message hphase
        rw [hphase] at hjob
        obtain rfl : held = job := Option.some.inj hjob
        cases hmoved
        exact .failed (by rw [hphase]; rfl) rfl rfl
      · cases hmoved
  | retry other now =>
      obtain rfl : other = workerId := Option.some.inj hfinal
      have hmoved : s.retry settings other now = some s' := hstep
      unfold Ingestion.retry at hmoved
      split at hmoved
      · rename_i held code message hphase
        rw [hphase] at hjob
        obtain rfl : held = job := Option.some.inj hjob
        cases hmoved
        have hheld : (s.phase other).chunks? = none := by
          rw [hphase]
          rfl
        by_cases hspent : held.attemptCount ≥ settings.maxAttempts
        · rw [if_pos hspent]
          exact .failed hheld rfl rfl
        · rw [if_neg hspent]
          exact .released hheld rfl rfl
      · cases hmoved
  | upload | enqueue | claim | parse | putCanonical | putResult | recover | cleanup | die =>
      cases hfinal

/-- In a genuine state a success is never refused. -/
theorem Genuine.not_refused {job : IngestionJobRow} {result : IngestResult} {now : Timestamp}
    (h : s.Genuine settings) (hheld : (s.phase workerId).chunks? = some result.chunks) :
    s.chunks.replaceForJob s.nextUuid job.id job.submissionId job.artifactKey
      result.parserVersion result.chunkerVersion result.chunks now ≠ none := by
  obtain ⟨rawText, hyields⟩ := h.results workerId result.chunks hheld
  exact DocumentChunks.replaceForJob_ne_none hyields _ _ _ _ _ _ _

/-- The guard of a worker that has lost its job finds no row. -/
theorem FinalEffect.jobs_of_lost {job : IngestionJobRow} (h : FinalEffect s workerId job s')
    (hgenuine : s.Genuine settings) (hlost : s.jobs.owns job.id workerId = false) :
    s'.jobs = s.jobs := by
  cases h with
  | replaced hheld hchunks hjobs =>
      rw [hjobs, IngestionJobs.markSucceeded_of_lost hlost]
  | refused hheld hnone => exact absurd hnone (hgenuine.not_refused hheld)
  | failed hheld hchunks hjobs =>
      rw [hjobs, IngestionJobs.markFailed_of_lost hlost]
  | released hheld hchunks hjobs =>
      rw [hjobs, IngestionJobs.releaseForRetry_of_lost hlost]

/-- A final transaction rewrites the chunks whoever owns the job. -/
theorem FinalEffect.chunks_iff {job : IngestionJobRow} (h : FinalEffect s workerId job s')
    (hgenuine : s.Genuine settings) : s'.chunks = s.chunks ↔ s.Chunkless workerId job := by
  have hdeleted : (s.phase workerId).chunks? = none →
      s'.chunks = s.chunks.deleteForJob job.id →
        (s'.chunks = s.chunks ↔ s.Chunkless workerId job) := by
    intro hheld hchunks
    rw [hchunks, DocumentChunks.deleteForJob_eq_self_iff, Chunkless, hheld]
    simp
  cases h with
  | replaced hheld hchunks hjobs =>
      rw [DocumentChunks.eq_self_of_replaceForJob_iff hchunks hgenuine.fresh, Chunkless, hheld]
      simp
  | refused hheld hnone => exact absurd hnone (hgenuine.not_refused hheld)
  | failed hheld hchunks hjobs => exact hdeleted hheld hchunks
  | released hheld hchunks hjobs => exact hdeleted hheld hchunks

/-- **Lost ownership.**  A final transaction of a worker that no longer owns its
job changes no job, and leaves the chunks as they are if and only if neither the
table nor the worker has a chunk of the job. -/
theorem lost_transaction_iff {a : WorkerAction} {job : IngestionJobRow}
    (hgenuine : s.Genuine settings) (hfinal : a.finalOf? = some workerId)
    (hjob : (s.phase workerId).job? = some job)
    (hlost : s.jobs.owns job.id workerId = false) (hstep : s.step settings a = some s') :
    s'.jobs = s.jobs ∧ s'.chunks = s.chunks ↔ s.Chunkless workerId job := by
  have heffect : FinalEffect s workerId job s' := final_effect hfinal hjob hstep
  rw [heffect.chunks_iff hgenuine]
  exact and_iff_right (heffect.jobs_of_lost hgenuine hlost)

/-- The storage fails a worker, whose job is then requeued as stale. -/
def overtakenRun : List WorkerAction :=
  [.upload ⟨1, 2, 3, ".md"⟩ ⟨[0x68, 0x69], "text/markdown"⟩,
   .enqueue 4 ⟨1, 2, 3, ".md"⟩ 0,
   .claim "first" [] 10, .parse "first" (some "connection reset"),
   .recover "second" 60000000 60000000]

/-- `lost_transaction_iff` before another worker has stored any chunk. -/
theorem lost_transaction_requeued :
    ∃ s s' job, (ingestionWorkers .default).Reach always s ∧
      (s.phase "first").job? = some job ∧ s.jobs.owns job.id "first" = false ∧
      s.step .default (.retry "first" 90000000) = some s' ∧
      s'.jobs = s.jobs ∧ s'.chunks = s.chunks := by
  obtain ⟨s, hreach, htest⟩ : ∃ s, (ingestionWorkers .default).Reach always s ∧
      ((s.phase "first").job?.any (fun job => !s.jobs.owns job.id "first") &&
        (s.phase "first").chunks?.isNone && s.chunks.rows.isEmpty &&
        (s.step .default (.retry "first" 90000000)).isSome) = true :=
    System.reach_of_test emptyIngestion overtakenRun _ rfl (by decide)
  simp only [Bool.and_eq_true] at htest
  obtain ⟨⟨⟨hjob, hheld⟩, hempty⟩, hstep⟩ := htest
  obtain ⟨job, hjob, hlost⟩ := (Option.any_eq_true _ _).mp hjob
  obtain ⟨s', hstep⟩ := Option.isSome_iff_exists.mp hstep
  have hlost : s.jobs.owns job.id "first" = false := (Bool.not_eq_true' _).mp hlost
  have hchunkless : s.Chunkless "first" job := by
    refine ⟨?_, ?_⟩
    · intro row hrow
      rw [Table.mem_iff, List.isEmpty_iff.mp hempty] at hrow
      exact absurd hrow List.not_mem_nil
    · rw [Option.isNone_iff_eq_none.mp hheld]
      intro drafts hheld
      cases hheld
  exact ⟨s, s', job, hreach, hjob, hlost, hstep,
    (lost_transaction_iff (genuine_of_reach hreach) rfl hjob hlost hstep).mpr hchunkless⟩

/-- A third worker takes the requeued job, and succeeds. -/
def takenOverRun : List WorkerAction :=
  overtakenRun ++
    [.claim "third" [] 70000000, .parse "third" none, .putCanonical "third" .ok "",
     .putResult "third" .ok "", .succeed "third" 80000000]

/-- **A worker deletes the chunks of a job it has lost.**  The job has succeeded
under another worker, its chunks are stored, and the release of the first worker
finds no row to release and commits their deletion. -/
theorem lost_transaction_deletes :
    ∃ s s' job, (ingestionWorkers .default).Reach always s ∧
      (s.phase "first").job? = some job ∧ s.jobs.owns job.id "first" = false ∧
      (∃ row ∈ s.jobs, row.id = job.id ∧ row.status = .succeeded) ∧
      s.step .default (.retry "first" 90000000) = some s' ∧
      s.chunks.chunksOf job.id ≠ [] ∧ s'.chunks.chunksOf job.id = [] := by
  obtain ⟨s, hreach, htest⟩ : ∃ s, (ingestionWorkers .default).Reach always s ∧
      ((s.phase "first").job?.any (fun job => !s.jobs.owns job.id "first" &&
        s.jobs.rows.any (fun row => row.id = job.id ∧ row.status = .succeeded) &&
        !(s.chunks.chunksOf job.id).isEmpty &&
        (s.step .default (.retry "first" 90000000)).any (fun s' =>
          (s'.chunks.chunksOf job.id).isEmpty))) = true :=
    System.reach_of_test emptyIngestion takenOverRun _ rfl (by decide)
  obtain ⟨job, hjob, htest⟩ := (Option.any_eq_true _ _).mp htest
  simp only [Bool.and_eq_true, Bool.not_eq_true'] at htest
  obtain ⟨⟨⟨hlost, hsucceeded⟩, hstored⟩, hstep⟩ := htest
  obtain ⟨row, hrow, hsucceeded⟩ := List.any_eq_true.mp hsucceeded
  obtain ⟨s', hstep, hdeleted⟩ := (Option.any_eq_true _ _).mp hstep
  exact ⟨s, s', job, hreach, hjob, hlost, ⟨row, hrow, of_decide_eq_true hsucceeded⟩, hstep,
    List.isEmpty_eq_false_iff.mp hstored, List.isEmpty_iff.mp hdeleted⟩

end Ingestion

end ChallengeForge
