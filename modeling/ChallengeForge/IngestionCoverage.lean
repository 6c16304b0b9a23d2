import ChallengeForge.SubmissionRequests

/-!
# Whether every committed artifact is ingested

The artifact key of a submission and the ingestion job for it are written in
two commits.  A request that stops in between leaves an artifact without a job,
and no later request makes up for it: a retry of the creation is answered with
the stored row.

* `no_artifact_dropped` — in every run in which no request stops while it owes
  its artifact a job, and no commit of an artifact loses its acknowledgement,
  every artifact has a job once all requests are over;
* `artifact_dropped` — a process dies between the two commits, and the client's
  retry does not bring the job back.
-/

namespace ChallengeForge

open Keyed Labelled

/-- No request is in progress. -/
def Service.Quiescent (s : Service) : Prop := s.requests.rows = []

/-- The row of the request is committed, and its job still to be written. -/
def Request.awaitsJob (request : Request) : Bool :=
  match request.phase with
  | .dropping _ => true
  | .enqueueing _ => true
  | _ => false

/-- The unique index refuses the row the request inserts. -/
def Request.Refused (request : Request) (submissions : Submissions) : Prop :=
  match request.work with
  | .insert new => (submissions.findExisting new).isSome = true
  | .rewrite _ _ => False

instance (request : Request) (submissions : Submissions) :
    Decidable (request.Refused submissions) :=
  match request with
  | ⟨_, .insert _, _, _⟩ => inferInstanceAs (Decidable (_ = _))
  | ⟨_, .rewrite _ _, _, _⟩ => isFalse id

namespace Service

variable {cfg : SubmissionConfig} {s s' : Service} {key : ArtifactKey}

/-- A row carries the artifact key of the request, and no job does. -/
def Owes (s : Service) (request : Request) : Prop :=
  match request.newKey with
  | none => False
  | some key =>
      (∃ row ∈ s.submissions, row.artifactKey = some key) ∧
        ∀ job ∈ s.ingestionJobs, job.artifactKey ≠ key

instance (s : Service) (request : Request) : Decidable (s.Owes request) := by
  unfold Owes
  split <;> infer_instance

/-- No request dies, and no call of it fails, while it owes its artifact a job;
and no commit that writes an artifact key loses its acknowledgement. -/
def uninterrupted : Condition Service ServiceAction := fun s a =>
  match a with
  | .commit id outcome _ => outcome = .lost → ∀ request ∈ s.requests, request.id = id →
      request.newKey = none ∨ request.Refused s.submissions
  | .enqueue id outcome _ => outcome = .failed → ∀ request ∈ s.requests, request.id = id →
      ¬ s.Owes request
  | .die id => ∀ request ∈ s.requests, request.id = id → ¬ s.Owes request
  | _ => True

instance (s : Service) (a : ServiceAction) : Decidable (uninterrupted s a) :=
  match a with
  | .commit .. | .enqueue .. => inferInstanceAs (Decidable (_ → _))
  | .die _ => inferInstanceAs (Decidable (∀ request ∈ s.requests, _))
  | .create .. | .updateCreated .. | .attachIncoming .. | .submit .. | .cancel ..
  | .publish .. | .compensate .. | .drop .. => isTrue trivial

/-- The artifact has a job, or a request that is about to write it. -/
def Covered (s : Service) (key : ArtifactKey) : Prop :=
  (∃ job ∈ s.ingestionJobs, job.artifactKey = key) ∨
    ∃ request ∈ s.requests, request.newKey = some key ∧ request.awaitsJob = true

/-- Every committed artifact is covered, and job ids are not drawn again. -/
structure Accounted (s : Service) : Prop where
  covered : ∀ row ∈ s.submissions, ∀ key, row.artifactKey = some key → s.Covered key
  fresh : ∀ job ∈ s.ingestionJobs, job.id < s.nextUuid

/-- A key stays covered when a request moves on, unless that request covered it
and awaits the job no longer. -/
theorem Covered.proceed {request : Request} {phase : Option Phase} {reply : Reply}
    (hcovered : s.Covered key) (hrequest : request ∈ s.requests)
    (hkeep : request.newKey = some key → request.awaitsJob = true →
      ∃ next, phase = some next ∧ ({ request with phase := next } : Request).awaitsJob = true) :
    (s.proceed request phase reply).Covered key := by
  rcases hcovered with ⟨job, hjob, hkey⟩ | ⟨other, hother, hkey, hawaits⟩
  · exact Or.inl ⟨job, by simpa using hjob, hkey⟩
  · right
    by_cases hid : other.id = request.id
    · obtain rfl := Table.eq_of_key_eq hother hrequest hid
      obtain ⟨next, hnext, hawaits'⟩ := hkeep hkey hawaits
      exact ⟨_, (mem_proceed hrequest).mpr (Or.inr ⟨next, hnext, rfl⟩), hkey, hawaits'⟩
    · exact ⟨other, (mem_proceed hrequest).mpr (Or.inl ⟨hother, hid⟩), hkey, hawaits⟩

/-- With ingestion enabled a request goes on to write the job of its artifact. -/
theorem afterDrop_awaits (henabled : cfg.ingestionEnabled = true) {request : Request}
    (hkey : request.newKey = some key) (submissionId : UUID) :
    ∃ next, request.afterDrop cfg submissionId = some next ∧
      ({ request with phase := next } : Request).awaitsJob = true :=
  ⟨.enqueueing submissionId, by simp [Request.afterDrop, hkey, henabled], rfl⟩

theorem afterCommit_awaits (henabled : cfg.ingestionEnabled = true) {request : Request}
    (hkey : request.newKey = some key) (submissionId : UUID) :
    ∃ next, request.afterCommit cfg submissionId = some next ∧
      ({ request with phase := next } : Request).awaitsJob = true := by
  unfold Request.afterCommit
  split
  · exact ⟨_, rfl, rfl⟩
  · exact afterDrop_awaits henabled hkey submissionId

/-- A commit that writes the key of its request's artifact leaves it covered. -/
theorem covered_of_commit (henabled : cfg.ingestionEnabled = true) {request : Request}
    {outcome : CallOutcome} {submissionId : UUID} {reply : Reply}
    (hrequest : request ∈ s.requests) (hkey : request.newKey = some key)
    (hnot : outcome ≠ .lost) :
    (s.proceed request (request.afterWrite cfg outcome submissionId) reply).Covered key := by
  obtain ⟨next, hnext, hawaits⟩ := afterCommit_awaits henabled hkey submissionId
  rw [Request.afterWrite, if_neg hnot, hnext]
  exact Or.inr ⟨_, (mem_proceed hrequest).mpr (Or.inr ⟨next, rfl, rfl⟩), hkey, hawaits⟩

/-- What the accounts do not read may change. -/
theorem Accounted.congr (haccounted : s.Accounted) (hsub : s'.submissions = s.submissions)
    (hjobs : s'.ingestionJobs = s.ingestionJobs) (hrequests : s'.requests = s.requests)
    (huuid : s.nextUuid ≤ s'.nextUuid) : s'.Accounted := by
  constructor
  · intro row hrow key hkey
    simpa [Covered, hjobs, hrequests] using haccounted.covered row (hsub ▸ hrow) key hkey
  · intro job hjob
    exact (haccounted.fresh job (hjobs ▸ hjob)).trans_le huuid

/-- A request starts, and nothing is committed yet. -/
theorem Accounted.start {work : Work} {upload : Option (ArtifactKey × Blob)}
    (haccounted : s.Accounted) (hstart : s.startRequest work upload = some s') :
    s'.Accounted := by
  obtain ⟨hmem, hsub, hjobs, -, huuid⟩ := mem_startRequest hstart
  constructor
  · intro row hrow key hkey
    rcases haccounted.covered row (hsub ▸ hrow) key hkey with
      ⟨job, hjob⟩ | ⟨request, hrequest, hawaits⟩
    · exact Or.inl ⟨job, hjobs ▸ hjob⟩
    · exact Or.inr ⟨request, (hmem request).mpr (Or.inl hrequest), hawaits⟩
  · intro job hjob
    have hlt : job.id < s.nextUuid := haccounted.fresh job (hjobs ▸ hjob)
    rw [huuid]
    exact hlt.trans_le (Nat.le_add_right _ 2)

/-- A row leaves CREATED and keeps its artifact. -/
theorem Accounted.transition {row : SubmissionRow} {submissionId participantId : UUID}
    {target : SubmissionStatus} {now : Timestamp} (haccounted : s.Accounted)
    (htransition : s.submissions.transitionIfCreated submissionId participantId target now =
      some (row, s'.submissions))
    (hjobs : s'.ingestionJobs = s.ingestionJobs) (hrequests : s'.requests = s.requests)
    (huuid : s.nextUuid ≤ s'.nextUuid) : s'.Accounted := by
  constructor
  · intro row' hrow' key hkey
    obtain ⟨row, hrow, -, hsame⟩ := Submissions.origin_of_transition htransition hrow'
    have hcovered : s.Covered key := haccounted.covered row hrow key (hsame.trans hkey)
    rw [Covered, hjobs, hrequests]
    exact hcovered
  · intro job hjob
    exact (haccounted.fresh job (hjobs ▸ hjob)).trans_le huuid

/-- A request moves on and stays responsible for its artifact. -/
theorem Accounted.proceed {request : Request} {phase : Option Phase} {reply : Reply}
    (haccounted : s.Accounted) (hrequest : request ∈ s.requests)
    (hkeep : ∀ key, request.newKey = some key → request.awaitsJob = true →
      ∃ next, phase = some next ∧ ({ request with phase := next } : Request).awaitsJob = true) :
    (s.proceed request phase reply).Accounted := by
  constructor
  · intro row hrow key hkey
    rw [proceed_submissions] at hrow
    exact (haccounted.covered row hrow key hkey).proceed hrequest (hkeep key)
  · intro job hjob
    rw [proceed_ingestionJobs] at hjob
    rw [proceed_nextUuid]
    exact haccounted.fresh job hjob

/-- A request stops that owes no job. -/
theorem Accounted.stop {request : Request} {reply : Reply} (haccounted : s.Accounted)
    (hrequest : request ∈ s.requests) (hnot : ¬ s.Owes request) :
    (s.proceed request none reply).Accounted := by
  constructor
  · intro row hrow key hkey
    rw [proceed_submissions] at hrow
    by_cases hown : request.newKey = some key
    · simp only [Owes, hown, not_and, not_forall, not_not] at hnot
      obtain ⟨job, hjob, hjobKey⟩ := hnot ⟨row, hrow, hkey⟩
      exact Or.inl ⟨job, by simpa using hjob, hjobKey⟩
    · exact (haccounted.covered row hrow key hkey).proceed hrequest
        (fun hsame => absurd hsame hown)
  · intro job hjob
    rw [proceed_ingestionJobs] at hjob
    rw [proceed_nextUuid]
    exact haccounted.fresh job hjob

/-- An uninterrupted commit that writes the key of its request is acknowledged. -/
theorem not_lost_of_uninterrupted {request : Request} {outcome : CallOutcome} {now : Timestamp}
    (hok : uninterrupted s (.commit request.id outcome now)) (hrequest : request ∈ s.requests)
    (hkey : request.newKey = some key) (hwrites : ¬ request.Refused s.submissions) :
    outcome ≠ .lost := by
  intro hlost
  rcases hok hlost request hrequest rfl with hnone | hrefused
  · rw [hkey] at hnone
    cases hnone
  · exact hwrites hrefused

/-- A commit that is acknowledged leaves the key it writes with its request. -/
theorem Accounted.written (henabled : cfg.ingestionEnabled = true) {request : Request}
    {outcome : CallOutcome} {submissionId : UUID} {reply : Reply} {submissions : Submissions}
    {nextUuid : UUID} (haccounted : s.Accounted) (hrequest : request ∈ s.requests)
    (hphase : request.phase = .committing)
    (hrows : ∀ row ∈ submissions, ∀ key, row.artifactKey = some key →
      (∃ old ∈ s.submissions, old.artifactKey = some key) ∨
        request.newKey = some key ∧ outcome ≠ .lost)
    (huuid : s.nextUuid ≤ nextUuid) :
    ({ s with submissions := submissions, nextUuid := nextUuid }.proceed request
      (request.afterWrite cfg outcome submissionId) reply).Accounted := by
  have hidle : request.awaitsJob = false := by simp [Request.awaitsJob, hphase]
  constructor
  · intro row hrow key hkey
    rw [proceed_submissions] at hrow
    rcases hrows row hrow key hkey with ⟨old, hold, holdKey⟩ | ⟨hnew, hnot⟩
    · have hcovered : ({ s with
            submissions := submissions
            nextUuid := nextUuid } : Service).Covered key :=
        haccounted.covered old hold key holdKey
      exact hcovered.proceed hrequest (by simp [hidle])
    · exact covered_of_commit henabled hrequest hnew hnot
  · intro job hjob
    rw [proceed_ingestionJobs] at hjob
    rw [proceed_nextUuid]
    exact (haccounted.fresh job hjob).trans_le huuid

/-- A new job keeps the accounts. -/
theorem Accounted.enqueued {submissionId : UUID} {now : Timestamp} {jobs : IngestionJobs}
    (haccounted : s.Accounted)
    (hjobs : s.ingestionJobs.enqueue s.nextUuid submissionId key now = some jobs) :
    ({ s with ingestionJobs := jobs, nextUuid := s.nextUuid + 1 } : Service).Accounted := by
  have hmem : ∀ job, job ∈ jobs ↔ job ∈ s.ingestionJobs ∨ job = _ :=
    fun _ => IngestionJobs.mem_of_enqueue hjobs
  constructor
  · intro row hrow key' hkey'
    rcases haccounted.covered row hrow key' hkey' with ⟨job, hjob, hjobKey⟩ | hrequest
    · exact Or.inl ⟨job, (hmem job).mpr (Or.inl hjob), hjobKey⟩
    · exact Or.inr hrequest
  · intro job hjob
    rcases (hmem job).mp hjob with hold | rfl
    · exact (haccounted.fresh job hold).trans (Nat.lt_succ_self _)
    · exact Nat.lt_succ_self _

/-- One step of an uninterrupted run keeps every committed artifact covered. -/
theorem Accounted.step (henabled : cfg.ingestionEnabled = true) {a : ServiceAction}
    (haccounted : s.Accounted) (hok : uninterrupted s a) (hstep : s.step cfg a = some s') :
    s'.Accounted := by
  cases step_effect hstep with
  | answered reply => exact haccounted.congr rfl rfl rfl (Nat.le_succ _)
  | started hstart hloaded hfreshKey => exact haccounted.start hstart
  | transitioned htransition htarget hjobs hstorage hrequests huuid =>
      exact haccounted.transition htransition hjobs hrequests huuid
  | published hrequest hphase hupload =>
      refine Accounted.proceed (haccounted.congr rfl rfl rfl le_rfl) hrequest ?_
      simp [Request.awaitsJob, hphase]
  | rejected integrity hrequest hphase hnot =>
      refine haccounted.proceed hrequest ?_
      simp [Request.awaitsJob, hphase]
  | @inserted request outcome now new submissions hrequest hphase happlied hwork hadd =>
      refine haccounted.written henabled hrequest hphase ?_ (Nat.le_succ _)
      intro row hrow key hkey
      rcases (Submissions.mem_of_add hadd).mp hrow with hold | rfl
      · exact Or.inl ⟨row, hold, hkey⟩
      · have hinserts : ¬ request.Refused s.submissions := by
          simp [Request.Refused, hwork, Submissions.findExisting_of_add hadd]
        exact Or.inr ⟨hkey, not_lost_of_uninterrupted hok hrequest hkey hinserts⟩
  | @flushed request outcome now loaded metadata hrequest hphase happlied hwork =>
      refine haccounted.written henabled hrequest hphase ?_ le_rfl
      intro row' hrow' key hkey
      obtain ⟨row, hrow, rfl⟩ := Submissions.mem_flushEdit.mp hrow'
      rcases Submissions.artifactKey_of_flush hkey with hold | ⟨-, hedited, hchanged⟩
      · exact Or.inl ⟨row, hrow, hold⟩
      · have hnew := Request.newKey_of_edited hedited hchanged
        have hrewrites : ¬ request.Refused s.submissions := by
          simp [Request.Refused, hwork]
        exact Or.inr ⟨hnew, not_lost_of_uninterrupted hok hrequest hnew hrewrites⟩
  | compensated reply hrequest hphase =>
      refine Accounted.proceed (haccounted.congr (by simp) (by simp) (by simp) (by simp))
        (by simpa using hrequest) ?_
      simp [Request.awaitsJob, hphase]
  | dropped hrequest hphase =>
      refine Accounted.proceed (haccounted.congr (by simp) (by simp) (by simp) (by simp))
        (by simpa using hrequest) ?_
      intro key hkey _
      exact afterDrop_awaits henabled hkey _
  | @enqueued request outcome now key submissionId jobs reply hrequest hkey hjobs =>
      refine Accounted.stop (haccounted.enqueued hjobs) hrequest ?_
      simp only [Owes, hkey, not_and, not_forall, not_not]
      intro _
      exact ⟨_, (IngestionJobs.mem_of_enqueue hjobs).mpr (Or.inr rfl), rfl⟩
  | @unqueued request outcome now key submissionId hrequest hkey hnot =>
      rcases hnot with hfailed | hnone
      · exact haccounted.stop hrequest (hok hfailed request hrequest rfl)
      · exact absurd hnone (IngestionJobs.enqueue_ne_none haccounted.fresh _ _ _)
  | @died request hrequest =>
      have hstop : (s.proceed request none .raised).Accounted :=
        haccounted.stop hrequest (hok request hrequest rfl)
      exact hstop.congr rfl rfl rfl le_rfl

/-- **No artifact is dropped.**  With ingestion enabled, in every uninterrupted
run, every artifact key of a submission has an ingestion job once no request is
in progress. -/
theorem no_artifact_dropped (henabled : cfg.ingestionEnabled = true)
    (hreach : (submissionService cfg).Reach uninterrupted s) (hquiet : s.Quiescent)
    {row : SubmissionRow} (hrow : row ∈ s.submissions) (hkey : row.artifactKey = some key) :
    ∃ job ∈ s.ingestionJobs, job.artifactKey = key := by
  have haccounted : s.Accounted := by
    refine hreach.invariant ?_ (fun s a t hs hok hstep => hs.step henabled hok hstep)
    intro s hstart
    obtain rfl : s = emptyService := hstart
    constructor
    · intro row hrow
      exact absurd hrow (Table.not_mem_empty row)
    · intro job hjob
      exact absurd hjob (Table.not_mem_empty job)
  rcases haccounted.covered row hrow key hkey with hjob | ⟨request, hrequest, -⟩
  · exact hjob
  · rw [Table.mem_iff, hquiet] at hrequest
    exact absurd hrequest List.not_mem_nil

/-- A submission with an artifact is created from end to end. -/
def createdRun : List ServiceAction :=
  [.create participant 1 none (some "key") (some textUpload) (.ok ()),
   .publish 0 .ok, .commit 0 .ok 10, .enqueue 0 .ok 20]

/-- The process dies between the two commits, and the client retries. -/
def droppedRun : List ServiceAction :=
  [.create participant 1 none (some "key") (some textUpload) (.ok ()),
   .publish 0 .ok, .commit 0 .ok 10, .die 0,
   .create participant 1 none (some "key") (some textUpload) (.ok ())]

/-- `no_artifact_dropped` on a creation that runs through. -/
theorem no_artifact_dropped_created :
    ∃ s, (submissionService defaultConfig).Reach uninterrupted s ∧ s.Quiescent ∧
      ∃ row ∈ s.submissions, ∃ key, row.artifactKey = some key ∧
        ∃ job ∈ s.ingestionJobs, job.artifactKey = key := by
  obtain ⟨s, hreach, htest⟩ : ∃ s, (submissionService defaultConfig).Reach uninterrupted s ∧
      (s.requests.rows.isEmpty &&
        s.submissions.rows.any (fun row => row.artifactKey.isSome)) = true :=
    System.reach_of_test emptyService createdRun _ rfl (by decide)
  obtain ⟨hquiet, hrow⟩ := Bool.and_eq_true_iff.mp htest
  obtain ⟨row, hrow, hkey⟩ := List.any_eq_true.mp hrow
  obtain ⟨key, hkey⟩ := Option.isSome_iff_exists.mp hkey
  have hquiet' : s.Quiescent := List.isEmpty_iff.mp hquiet
  exact ⟨s, hreach, hquiet', row, hrow, key, hkey,
    no_artifact_dropped rfl hreach hquiet' hrow hkey⟩

/-- **An artifact is dropped.**  No request is in progress, the retry has been
answered as a replay, and the committed artifact has no job. -/
theorem artifact_dropped :
    ∃ s, (submissionService defaultConfig).Reach always s ∧ s.Quiescent ∧
      ∃ row ∈ s.submissions, (s.replies.head?.map Prod.snd) = some (.created row.id true) ∧
        ∃ key, row.artifactKey = some key ∧
          ¬ ∃ job ∈ s.ingestionJobs, job.artifactKey = key := by
  obtain ⟨s, hreach, htest⟩ : ∃ s, (submissionService defaultConfig).Reach always s ∧
      (s.requests.rows.isEmpty && s.ingestionJobs.rows.isEmpty &&
        s.submissions.rows.any (fun row =>
          s.replies.head?.map Prod.snd = some (.created row.id true) ∧
            row.artifactKey.isSome = true)) = true :=
    System.reach_of_test emptyService droppedRun _ rfl (by decide)
  simp only [Bool.and_eq_true] at htest
  obtain ⟨⟨hquiet, hnojobs⟩, hrow⟩ := htest
  obtain ⟨row, hrow, hq⟩ := List.any_eq_true.mp hrow
  obtain ⟨hreply, hkey⟩ := of_decide_eq_true hq
  obtain ⟨key, hkey⟩ := Option.isSome_iff_exists.mp hkey
  refine ⟨s, hreach, List.isEmpty_iff.mp hquiet, row, hrow, hreply, key, hkey, ?_⟩
  intro hcovered
  obtain ⟨job, hjob, -⟩ := hcovered
  rw [Table.mem_iff, List.isEmpty_iff.mp hnojobs] at hjob
  exact absurd hjob List.not_mem_nil

end Service

end ChallengeForge
