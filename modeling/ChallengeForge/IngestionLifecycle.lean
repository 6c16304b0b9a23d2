import ChallengeForge.IngestionWorkers
import ChallengeForge.TableEvolution

/-!
# The life of an ingestion job

What the transactions of the ingestion workers do to one row, and what follows
for the rows of every reachable state.

* `JobSettles` — what becomes of a running job, by its worker or by stale recovery;
* `JobsMove` — a step is a claim, or settles running jobs;
* `Held` — while a job runs under a worker, the worker holds the attempt the row
  counts, so that `_handle_retryable` decides as recovery would;
* `jobs_coherent` — the columns that go with each status, and the attempts.
-/

namespace ChallengeForge

open Keyed Labelled

/-- `ALLOWED_TRANSITIONS`. -/
def IngestionStatus.allowedTransitions : IngestionStatus → List IngestionStatus
  | .queued => [.running]
  | .running => [.succeeded, .failed, .queued]
  | .succeeded => []
  | .failed => []

/-- The job has ended. -/
def IngestionStatus.terminal (status : IngestionStatus) : Prop :=
  status = .succeeded ∨ status = .failed

/-- What becomes of a running job: its worker completes it, or recovery does. -/
inductive JobSettles (maxAttempts : Nat) (row : IngestionJobRow) : IngestionJobRow → Prop
  | succeeded (resultKey : BlobKey) (now : Timestamp) :
      JobSettles maxAttempts row
        { row with
          status := .succeeded
          resultKey := some resultKey
          completedAt := some now
          updatedAt := now
          errorCode := none
          errorMessage := none }
  | failed (code message : String) (workerId : Option String) (now : Timestamp) :
      JobSettles maxAttempts row
        { row with
          status := .failed
          completedAt := some now
          updatedAt := now
          errorCode := some code
          errorMessage := some message
          workerId := workerId }
  | requeued (code message : String) (availableAt now : Timestamp)
      (hattempts : row.attemptCount < maxAttempts) :
      JobSettles maxAttempts row
        { row with
          status := .queued
          workerId := none
          startedAt := none
          availableAt := availableAt
          updatedAt := now
          errorCode := some code
          errorMessage := some message }

/-- How a row changes in a step. -/
inductive JobStep (maxAttempts : Nat) (row : IngestionJobRow) : IngestionJobRow → Prop
  | claimed (workerId : String) (now : Timestamp) (hqueued : row.status = .queued) :
      JobStep maxAttempts row (row.startRunning workerId now)
  | settled {row'} (hrunning : row.status = .running) (hsettles : JobSettles maxAttempts row row') :
      JobStep maxAttempts row row'

/-- A row as `enqueue` inserts it. -/
def IngestionJobRow.New (row : IngestionJobRow) : Prop :=
  ∃ id submissionId artifactKey now, row = IngestionJobs.newJob id submissionId artifactKey now

namespace JobSettles

variable {maxAttempts : Nat} {row row' : IngestionJobRow}

/-- A job that settles no longer runs. -/
theorem not_running (h : JobSettles maxAttempts row row') : row'.status ≠ .running := by
  cases h <;> simp

/-- It is the same job. -/
theorem id (h : JobSettles maxAttempts row row') : row'.id = row.id := by
  cases h <;> rfl

/-- Stale recovery fails a job whose attempts are spent, and requeues the others. -/
theorem of_recover (maxAttempts : Nat) (now : Timestamp) (row : IngestionJobRow) :
    JobSettles maxAttempts row (row.recover maxAttempts now) := by
  unfold IngestionJobRow.recover
  split
  · exact .failed _ _ none now
  · exact .requeued _ _ now now (by omega)

end JobSettles

namespace JobStep

variable {maxAttempts : Nat} {row row' : IngestionJobRow}

/-- **Transitions.**  A job changes its status only as the domain allows. -/
theorem transition (h : JobStep maxAttempts row row') :
    row'.status ∈ row.status.allowedTransitions := by
  cases h with
  | claimed workerId now hqueued =>
      rw [hqueued]
      simp [IngestionJobRow.startRunning, IngestionStatus.allowedTransitions]
  | settled hrunning hsettles =>
      rw [hrunning]
      cases hsettles <;> simp [IngestionStatus.allowedTransitions]

/-- A terminal job does not change. -/
theorem live (h : JobStep maxAttempts row row') : ¬ row.status.terminal := by
  unfold IngestionStatus.terminal
  cases h with
  | claimed workerId now hqueued => simp [hqueued]
  | settled hrunning hsettles => simp [hrunning]

end JobStep

/-! ## Coherence of one row -/

/-- The columns that go with each status, and the attempts that are left. -/
def JobCoherent (maxAttempts : Nat) (row : IngestionJobRow) : Prop :=
  match row.status with
  | .queued => row.workerId = none ∧ row.startedAt = none ∧ row.completedAt = none ∧
      row.resultKey = none ∧ row.attemptCount < maxAttempts
  | .running => row.workerId ≠ none ∧ row.startedAt ≠ none ∧ row.completedAt = none ∧
      row.resultKey = none ∧ row.attemptCount ≤ maxAttempts
  | .succeeded => row.completedAt ≠ none ∧ row.resultKey ≠ none ∧
      row.attemptCount ≤ maxAttempts
  | .failed => row.completedAt ≠ none ∧ row.resultKey = none ∧ row.errorCode ≠ none ∧
      row.attemptCount ≤ maxAttempts

namespace JobCoherent

variable {maxAttempts : Nat} {row row' : IngestionJobRow}

/-- A new job is coherent. -/
theorem of_new (hmax : 1 ≤ maxAttempts) (h : row.New) : JobCoherent maxAttempts row := by
  obtain ⟨id, submissionId, artifactKey, now, rfl⟩ := h
  simp only [JobCoherent, IngestionJobs.newJob]
  exact ⟨trivial, trivial, trivial, trivial, by omega⟩

/-- A step of a row keeps it coherent. -/
theorem step (h : JobCoherent maxAttempts row) (hstep : JobStep maxAttempts row row') :
    JobCoherent maxAttempts row' := by
  cases hstep with
  | claimed workerId now hqueued =>
      obtain ⟨-, -, hcompleted, hresult, hattempts⟩ : row.workerId = none ∧
          row.startedAt = none ∧ row.completedAt = none ∧ row.resultKey = none ∧
          row.attemptCount < maxAttempts := by
        simpa [JobCoherent, hqueued] using h
      have hcount : row.attemptCount + 1 ≤ maxAttempts := by omega
      simp [JobCoherent, IngestionJobRow.startRunning, hcompleted, hresult, hcount]
  | settled hrunning hsettles =>
      obtain ⟨-, -, hcompleted, hresult, hattempts⟩ : row.workerId ≠ none ∧
          row.startedAt ≠ none ∧ row.completedAt = none ∧ row.resultKey = none ∧
          row.attemptCount ≤ maxAttempts := by
        simpa [JobCoherent, hrunning] using h
      cases hsettles with
      | succeeded resultKey now => simp [JobCoherent, hattempts]
      | failed code message workerId now => simp [JobCoherent, hresult, hattempts]
      | requeued code message availableAt now hleft =>
          simp [JobCoherent, hcompleted, hresult, hleft]

end JobCoherent

/-! ## What a step does to the jobs -/

namespace Ingestion

variable {settings : IngestionSettings} {s s' : Ingestion} {workerId : String}

/-- A job that runs under the worker holding it has counted the attempts the
worker remembers. -/
def Held (s : Ingestion) : Prop :=
  ∀ workerId job, (s.phase workerId).job? = some job → ∀ row ∈ s.jobs, row.id = job.id →
    row.status = .running → row.workerId = some workerId → row.attemptCount = job.attemptCount

/-- A step claims a queued job for an idle worker, or settles running jobs and
lets no worker take one up. -/
inductive JobsMove (settings : IngestionSettings) (s s' : Ingestion) : Prop
  | claimed {workerId : String} {row : IngestionJobRow} {now : Timestamp} (hrow : row ∈ s.jobs)
      (hqueued : row.status = .queued)
      (hjobs : s'.jobs = s.jobs.update (fun other => decide (other.id = row.id))
        (fun other => other.startRunning workerId now) (fun _ => rfl))
      (hphase : s'.phase =
        Function.update s.phase workerId (.claimed (row.startRunning workerId now)))
  | settled
      (hrows : Table.Evolves (fun row row' => row.status = .running ∧
        JobSettles settings.maxAttempts row row') IngestionJobRow.New s.jobs s'.jobs)
      (hheld : ∀ workerId job, (s'.phase workerId).job? = some job →
        (s.phase workerId).job? = some job)

/-- A worker that moves on takes up no job it did not hold. -/
theorem held_of_goto {phase : WorkerPhase}
    (hphase : s'.phase = Function.update s.phase workerId phase)
    (hjob : phase.job? = none ∨ phase.job? = (s.phase workerId).job?) :
    ∀ other job, (s'.phase other).job? = some job → (s.phase other).job? = some job := by
  intro other job hother
  rw [hphase] at hother
  by_cases hsame : other = workerId
  · subst hsame
    rw [Function.update_self] at hother
    rcases hjob with hnone | hkept
    · rw [hnone] at hother
      cases hother
    · rw [← hkept]
      exact hother
  · rwa [Function.update_of_ne hsame] at hother

/-- A step that writes no job. -/
theorem JobsMove.of_goto {phase : WorkerPhase} (hjobs : s'.jobs = s.jobs)
    (hphase : s'.phase = Function.update s.phase workerId phase)
    (hjob : phase.job? = none ∨ phase.job? = (s.phase workerId).job?) :
    JobsMove settings s s' := by
  refine .settled ?_ (held_of_goto hphase hjob)
  rw [hjobs]
  exact .refl _

/-- A worker that handles an error holds its job. -/
theorem job?_handling (job : IngestionJobRow) (error : IngestError) :
    (WorkerPhase.handling job error).job? = some job := by
  cases error <;> rfl

/-- A worker that cleans up holds none. -/
theorem job?_of_cleanup (todo : List CleanupCall) : (WorkerPhase.cleanup todo).job? = none := by
  cases todo <;> rfl

/-- What a failure path does to the jobs: a guarded write, and the job is dropped. -/
theorem JobsMove.of_giveUp {job : IngestionJobRow} {f : IngestionJobRow → IngestionJobRow}
    (hid : ∀ row, (f row).id = row.id)
    (hsettles : ∀ row ∈ s.jobs, row.ownedBy job.id workerId = true →
      JobSettles settings.maxAttempts row (f row)) :
    JobsMove settings s (s.giveUp workerId job
      (s.jobs.update (IngestionJobRow.ownedBy job.id workerId) f hid)) := by
  refine .settled (.update hid ?_) (held_of_goto rfl (Or.inl (job?_of_cleanup _)))
  intro row hrow howned
  exact ⟨(IngestionJobRow.ownedBy_iff.mp howned).2.1, hsettles row hrow howned⟩

/-- A claim moves one job. -/
theorem jobsMove_claim {locked : List UUID} {now : Timestamp}
    (h : s.claim workerId locked now = some s') : JobsMove settings s s' := by
  unfold claim at h
  split at h
  · obtain ⟨claimed, hclaim, rfl⟩ := Option.map_eq_some_iff.mp h
    obtain ⟨row, hrow, hqueued, hjob, hjobs⟩ :
        ∃ row ∈ s.jobs, row.status = .queued ∧ claimed.1 = row.startRunning workerId now ∧
          claimed.2 = s.jobs.update (fun other => decide (other.id = row.id))
            (fun other => other.startRunning workerId now) (fun _ => rfl) :=
      IngestionJobs.queued_of_claimNext hclaim
    exact .claimed hrow hqueued hjobs (by simp [Ingestion.goto, hjob])
  · cases h

/-- Parsing moves no job. -/
theorem jobsMove_parse {raised : Option String} (h : s.parse settings workerId raised = some s') :
    JobsMove settings s s' := by
  unfold parse at h
  split at h
  · rename_i job message hphase
    cases h
    exact .of_goto rfl rfl (Or.inr (by rw [hphase, job?_handling]; rfl))
  · rename_i job hphase
    split at h
    · cases h
      exact .of_goto rfl rfl (Or.inr (by rw [hphase, job?_handling]; rfl))
    · cases h
      exact .of_goto rfl rfl (Or.inr (by rw [hphase]; rfl))
  · cases h

/-- A worker that publishes an output keeps its job, whatever the storage does. -/
theorem jobsMove_put {job : IngestionJobRow} {output : Output} {blob : Blob}
    {outcome : CallOutcome} {message : String} {next : WorkerPhase}
    (hphase : (s.phase workerId).job? = some job) (hnext : next.job? = some job) :
    JobsMove settings s (s.put workerId job output blob outcome message next) := by
  refine .of_goto rfl rfl (Or.inr ?_)
  rw [hphase]
  split
  · exact hnext
  · exact job?_handling job _

/-- A success moves the job of its worker, if it still owns it. -/
theorem jobsMove_succeed {now : Timestamp} (h : s.succeed workerId now = some s') :
    JobsMove settings s s' := by
  unfold succeed at h
  split at h
  · rename_i job result hphase
    split at h
    · cases h
      exact .of_goto rfl rfl (Or.inl rfl)
    · cases h
      refine .settled (.update ?_ ?_) (held_of_goto rfl (Or.inl rfl))
      · exact fun _ => rfl
      intro row hrow howned
      exact ⟨(IngestionJobRow.ownedBy_iff.mp howned).2.1, .succeeded result.resultKey now⟩
  · cases h

/-- A failure moves the job of its worker, if it still owns it. -/
theorem jobsMove_fail {now : Timestamp} (h : s.fail workerId now = some s') :
    JobsMove settings s s' := by
  unfold fail at h
  split at h
  · rename_i job code message hphase
    cases h
    exact .of_giveUp _ (fun row _ _ => .failed code _ row.workerId now)
  · cases h

/-- **A retryable error.**  The attempts the worker remembers are those of the row,
so a job is requeued only while attempts are left. -/
theorem jobsMove_retry {now : Timestamp} (hheld : s.Held)
    (h : s.retry settings workerId now = some s') : JobsMove settings s s' := by
  unfold retry at h
  split at h
  · rename_i job code message hphase
    cases h
    split
    · exact .of_giveUp _ (fun row _ _ => .failed code _ row.workerId now)
    · rename_i hleft
      refine .of_giveUp _ ?_
      intro row hrow howned
      obtain ⟨hid, hrunning, hworker⟩ := IngestionJobRow.ownedBy_iff.mp howned
      have hcount : row.attemptCount = job.attemptCount :=
        hheld workerId job (by rw [hphase]; rfl) row hrow hid hrunning hworker
      exact .requeued code _ _ now (by omega)
  · cases h

/-- A recovery moves the stale jobs. -/
theorem jobsMove_recover {clock now : Timestamp}
    (h : s.recover settings workerId clock now = some s') : JobsMove settings s s' := by
  unfold recover at h
  split at h
  · cases h
    refine .settled (.update (IngestionJobRow.recover_id settings.maxAttempts now) ?_)
      (held_of_goto rfl (Or.inl (job?_of_cleanup _)))
    intro row hrow hstale
    have hrunning : row.status = .running := by
      simp only [IngestionJobRow.isStale, decide_eq_true_eq] at hstale
      exact hstale.1
    exact ⟨hrunning, .of_recover settings.maxAttempts now row⟩
  · cases h

/-- A cleanup moves no job. -/
theorem jobsMove_cleanup {outcome : CallOutcome} (h : s.cleanup workerId outcome = some s') :
    JobsMove settings s s' := by
  unfold cleanup at h
  split at h
  · cases h
    exact .of_goto rfl rfl (Or.inl (job?_of_cleanup _))
  · cases h
    refine .of_goto rfl rfl (Or.inl ?_)
    split
    · exact job?_of_cleanup _
    · rfl
  · cases h

/-- **Inversion.**  Whatever the worker does, the jobs move as `JobsMove` says. -/
theorem jobsMove_of_step {a : WorkerAction} (hheld : s.Held) (h : s.step settings a = some s') :
    JobsMove settings s s' := by
  cases a with
  | upload key blob =>
      simp only [step, upload] at h
      split at h
      · cases h
      · cases h
        exact .settled (.refl _) (fun _ _ hjob => hjob)
  | enqueue submissionId key now =>
      obtain ⟨jobs, hjobs, rfl⟩ := Option.map_eq_some_iff.mp h
      exact .settled (.insert hjobs ⟨_, _, _, _, rfl⟩) (fun _ _ hjob => hjob)
  | claim workerId locked now => exact jobsMove_claim h
  | parse workerId raised => exact jobsMove_parse h
  | putCanonical workerId outcome message =>
      simp only [step, putCanonical] at h
      split at h
      · rename_i job artifact hphase
        cases h
        exact jobsMove_put (by rw [hphase]; rfl) rfl
      · cases h
  | putResult workerId outcome message =>
      simp only [step, putResult] at h
      split at h
      · rename_i job artifact hphase
        cases h
        exact jobsMove_put (by rw [hphase]; rfl) rfl
      · cases h
  | succeed workerId now => exact jobsMove_succeed h
  | fail workerId now => exact jobsMove_fail h
  | retry workerId now => exact jobsMove_retry hheld h
  | recover workerId clock now => exact jobsMove_recover h
  | cleanup workerId outcome => exact jobsMove_cleanup h
  | die workerId =>
      cases h
      exact .of_goto rfl rfl (Or.inl rfl)

/-- The rows of a step evolve by `JobStep`. -/
theorem JobsMove.evolves (h : JobsMove settings s s') :
    Table.Evolves (JobStep settings.maxAttempts) IngestionJobRow.New s.jobs s'.jobs := by
  cases h with
  | @claimed workerId row now hrow hqueued hjobs hphase =>
      rw [hjobs]
      refine .update _ ?_
      intro other hother hid
      obtain rfl : other = row := Table.eq_of_key_eq hother hrow (of_decide_eq_true hid)
      exact .claimed workerId now hqueued
  | settled hrows hheld =>
      exact hrows.imp (fun _ _ hsettled => .settled hsettled.1 hsettled.2)

/-- **Remembered attempts.**  A claim is the only step that makes a job run, and
its worker then holds that very row. -/
theorem Held.step (hheld : s.Held) (h : JobsMove settings s s') : s'.Held := by
  intro workerId job hjob row' hrow' hid hrunning hworker
  cases h with
  | @claimed claimer row now hrow hqueued hjobs hphase =>
      rw [hjobs] at hrow'
      obtain ⟨other, hother, rfl⟩ := (Table.mem_update _).mp hrow'
      rw [hphase] at hjob
      by_cases hclaimed : other.id = row.id
      · -- the claimed row runs under the claimer, who holds it
        obtain rfl : other = row := Table.eq_of_key_eq hother hrow hclaimed
        simp only [decide_true, if_true, IngestionJobRow.startRunning, Option.some.injEq]
          at hworker hid ⊢
        subst hworker
        rw [Function.update_self] at hjob
        cases hjob
        rfl
      · simp only [hclaimed, decide_false, Bool.false_eq_true, if_false] at hid hrunning hworker ⊢
        by_cases hclaimer : workerId = claimer
        · subst hclaimer
          rw [Function.update_self] at hjob
          cases hjob
          exact absurd hid hclaimed
        · rw [Function.update_of_ne hclaimer] at hjob
          exact hheld workerId job hjob other hother hid hrunning hworker
  | settled hrows hkept =>
      rcases hrows.source row' hrow' with ⟨row, hrow, hkey, rfl | ⟨-, hsettles⟩⟩ | hnew
      · exact hheld workerId job (hkept workerId job hjob) row' hrow hid hrunning hworker
      · exact absurd hrunning hsettles.not_running
      · obtain ⟨id, submissionId, artifactKey, now, rfl⟩ := hnew
        cases hrunning

/-! ## Every run -/

/-- What every reached state satisfies. -/
structure Counted (settings : IngestionSettings) (s : Ingestion) : Prop where
  rows : ∀ row ∈ s.jobs, JobCoherent settings.maxAttempts row
  held : s.Held

/-- The rows are coherent in every state that is reached. -/
theorem counted_of_reach (hmax : 1 ≤ settings.maxAttempts)
    (h : (ingestionWorkers settings).Reach always s) : s.Counted settings := by
  refine h.invariant ?_ ?_
  · intro s hstart
    obtain rfl : s = emptyIngestion := hstart
    refine ⟨fun row hrow => absurd hrow (Table.not_mem_empty row), ?_⟩
    intro workerId job hjob
    cases hjob
  · intro s a t hs _ hstep
    have hmove := jobsMove_of_step hs.held hstep
    exact ⟨hmove.evolves.all (fun _ _ => JobCoherent.step) (fun _ => JobCoherent.of_new hmax)
      hs.rows, hs.held.step hmove⟩

/-- What becomes of a job along a run: a terminal one stays as it is. -/
def Lasts (row row' : IngestionJobRow) : Prop := row.status.terminal → row' = row

/-- What lasts over two runs lasts over both. -/
theorem Lasts.trans {row row' row'' : IngestionJobRow} (h : Lasts row row')
    (h' : Lasts row' row'') : Lasts row row'' := by
  intro hterminal
  obtain rfl := h hterminal
  exact h' hterminal

/-- No run loses a job, or touches one that has ended. -/
theorem lasts_of_path (hmax : 1 ≤ settings.maxAttempts)
    (hs : (ingestionWorkers settings).Reach always s)
    (h : (ingestionWorkers settings).Path always s s') :
    Table.Keeps Lasts s.jobs s'.jobs := by
  have hboth : (ingestionWorkers settings).Reach always s' ∧
      Table.Keeps Lasts s.jobs s'.jobs := by
    refine h.preserves (I := fun t => (ingestionWorkers settings).Reach always t ∧
      Table.Keeps Lasts s.jobs t.jobs) ?_ ⟨hs, .refl (fun _ _ => rfl) _⟩
    intro u a t hI hok hstep
    have hmove := jobsMove_of_step (counted_of_reach hmax hI.1).held hstep
    have hkeeps : Table.Keeps Lasts u.jobs t.jobs :=
      hmove.evolves.keeps (fun _ _ => rfl) (fun _ _ hrow hterminal => absurd hterminal hrow.live)
    exact ⟨hI.1.snoc hok hstep, hI.2.trans Lasts.trans hkeeps⟩
  exact hboth.2

/-- What holds of the jobs of a state, and of what becomes of them. -/
structure CoherentJobs (settings : IngestionSettings) (s : Ingestion) : Prop where
  attempts : ∀ row ∈ s.jobs, row.attemptCount ≤ settings.maxAttempts
  result : ∀ row ∈ s.jobs, (row.resultKey ≠ none ↔ row.status = .succeeded)
  completed : ∀ row ∈ s.jobs, (row.completedAt ≠ none ↔
    row.status = .succeeded ∨ row.status = .failed)
  queued : ∀ row ∈ s.jobs, row.status = .queued → row.workerId = none ∧ row.startedAt = none
  running : ∀ row ∈ s.jobs, row.status = .running → row.workerId ≠ none ∧ row.startedAt ≠ none
  failed : ∀ row ∈ s.jobs, row.status = .failed → row.errorCode ≠ none
  /-- A step changes a status only as the domain allows. -/
  transitions : ∀ a s', s.step settings a = some s' → ∀ row ∈ s.jobs,
    ∃ row' ∈ s'.jobs, row'.id = row.id ∧
      (row'.status = row.status ∨ row'.status ∈ row.status.allowedTransitions)
  /-- No later state has changed a terminal row. -/
  terminal : ∀ s', (ingestionWorkers settings).Path always s s' → ∀ row ∈ s.jobs,
    row.status = .succeeded ∨ row.status = .failed → row ∈ s'.jobs

/-- **Ingestion job coherence.**  In every run of the workers, however late a
superseded worker acts. -/
theorem jobs_coherent (settings : IngestionSettings) (hmax : 1 ≤ settings.maxAttempts)
    (s : Ingestion) (h : (ingestionWorkers settings).Reach always s) : CoherentJobs settings s := by
  obtain ⟨hrows, hheld⟩ := counted_of_reach hmax h
  constructor
  · intro row hrow
    have hcoherent := hrows row hrow
    unfold JobCoherent at hcoherent
    split at hcoherent <;> omega
  · intro row hrow
    have hcoherent := hrows row hrow
    unfold JobCoherent at hcoherent
    split at hcoherent <;> simp_all
  · intro row hrow
    have hcoherent := hrows row hrow
    unfold JobCoherent at hcoherent
    split at hcoherent <;> simp_all
  · intro row hrow hqueued
    have hcoherent := hrows row hrow
    simp only [JobCoherent, hqueued] at hcoherent
    exact ⟨hcoherent.1, hcoherent.2.1⟩
  · intro row hrow hrunning
    have hcoherent := hrows row hrow
    simp only [JobCoherent, hrunning] at hcoherent
    exact ⟨hcoherent.1, hcoherent.2.1⟩
  · intro row hrow hfailed
    have hcoherent := hrows row hrow
    simp only [JobCoherent, hfailed] at hcoherent
    exact hcoherent.2.2.1
  · intro a s' hstep
    exact (jobsMove_of_step hheld hstep).evolves.keeps (fun _ => Or.inl rfl)
      (fun _ _ hrow => Or.inr hrow.transition)
  · intro s' hpath row hrow hterminal
    obtain ⟨row', hrow', -, hsame⟩ := lasts_of_path hmax h hpath row hrow
    rw [← hsame hterminal]
    exact hrow'

/-- The artifact of a job fails twice while a first worker hangs in its claim,
which recovery has taken back; the first worker then answers its own error. -/
def lateRetryRun : List WorkerAction :=
  [.enqueue 4 ⟨1, 2, 3, ".md"⟩ 0, .claim "first" [] 10, .parse "first" (some "timeout"),
   .recover "second" 60000000 60000000, .cleanup "second" .ok, .cleanup "second" .ok,
   .cleanup "second" .ok, .claim "second" [] 70000000, .retry "first" 70000001,
   .parse "second" (some "timeout"), .retry "second" 70000002, .claim "third" [] 80000000,
   .parse "third" (some "timeout"), .retry "third" 80000001]

/-- A job whose third attempt was given back. -/
theorem jobs_coherent_late_retry :
    ∃ s, (∃ row ∈ s.jobs, row.status = .failed ∧ row.attemptCount = 3) ∧
      CoherentJobs .default s := by
  obtain ⟨s, hreach, htest⟩ : ∃ s, (ingestionWorkers .default).Reach always s ∧
      decide (∃ row ∈ s.jobs, row.status = .failed ∧ row.attemptCount = 3) = true :=
    System.reach_of_test emptyIngestion lateRetryRun _ rfl (by decide)
  exact ⟨s, of_decide_eq_true htest, jobs_coherent .default (by decide) s hreach⟩

end Ingestion

end ChallengeForge
