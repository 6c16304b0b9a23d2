import ChallengeForge.DoubleRounding
import ChallengeForge.EvaluationPlatform

/-!
# The health of the evaluation backlog

`queue_snapshot` counts the evaluations by status and by class and finds how long the
oldest queued one has waited; `get_backlog_status` turns the counts into a health level
and a message.  The source reads with five SELECTs; here all of them see one state.  Under
READ COMMITTED a commit may fall between two of them, and what is said of a report holds
of one that nothing was committed into.

* `backlog_adds_up` — in every run of requests and workers the four counts add up to the
  accepted submissions, the three class counts to the queued ones, and the age is that
  of the job that heads the queue;
* `health_mono` — for any thresholds, a shorter and younger queue is no less healthy;
* `health_recovers` — so while nothing joins the queue, whatever else the workers do, the
  health told at any one instant does not get worse.
-/

namespace ChallengeForge

open Keyed Labelled

/-- How healthy the evaluation capacity looks, the best first. -/
inductive EvaluationHealth
  | normal
  | busy
  | saturated
  | critical
  deriving DecidableEq, Repr

/-- How bad a health level is. -/
def EvaluationHealth.severity : EvaluationHealth → Nat
  | normal => 0
  | busy => 1
  | saturated => 2
  | critical => 3

/-- The `messages` of `get_backlog_status`. -/
def EvaluationHealth.message : EvaluationHealth → String
  | normal => "Evaluation capacity looks healthy. Your score should appear shortly after submit."
  | busy => "Your submission was accepted. Evaluation is delayed — the queue is busy."
  | saturated =>
      "Your submission was accepted and queued. Evaluation is significantly delayed."
  | critical =>
      "Your submission was accepted. Evaluation backlog is very large; " ++
        "scoring may take a long time, but your submission is durable."

/-- The settings that the backlog status reads. -/
structure BacklogSettings where
  evaluationBusyQueueDepth : Int
  evaluationBusyOldestAgeSeconds : Rat
  evaluationSaturatedQueueDepth : Int
  evaluationSaturatedOldestAgeSeconds : Rat
  evaluationCriticalQueueDepth : Int
  evaluationServiceRateWindowSeconds : Rat
  evaluationMaxWorkers : Int
  resourceAwareRuntimeEnabled : Bool

/-- What `queue_snapshot` returns. -/
structure QueueSnapshot where
  queued : Nat
  running : Nat
  succeeded : Nat
  failed : Nat
  oldestQueuedAt : Option Timestamp
  oldestQueueAgeSeconds : Option Rat
  recentCompletedCount : Nat
  lightQueued : Nat
  mediumQueued : Nat
  heavyQueued : Nat
  deriving DecidableEq

/-- What `get_backlog_status` returns. -/
structure EvaluationBacklogStatus where
  health : EvaluationHealth
  queuedCount : Nat
  runningCount : Nat
  succeededCount : Nat
  failedCount : Nat
  oldestQueueAgeSeconds : Option Rat
  estimatedWaitSeconds : Option PyFloat
  recentServiceRatePerSecond : Option PyFloat
  message : String
  submissionsAccepted : Bool
  estimateIsApproximate : Bool
  lightQueuedCount : Nat
  mediumQueuedCount : Nat
  heavyQueuedCount : Nat
  workerCapacity : Int
  pressureState : PressureState
  adaptiveMaxWorkers : Option Int
  resourceRuntimeEnabled : Bool
  deriving DecidableEq

/-- `round(x, digits)` of a double, which is a double again. -/
def roundFloat (digits : Nat) (x : Rat) : Rat := roundedToPlace (roundTo digits x)

/-- The same of a quotient, which may have overflowed. -/
def PyFloat.round (digits : Nat) : PyFloat → PyFloat
  | .finite x => toDouble (roundTo digits x)
  | x => x

/-- `x > 0`, of a float that is not `-inf`. -/
def PyFloat.positive : PyFloat → Bool
  | .finite x => decide (0 < x)
  | .inf => true
  | .nan => false

/-- `n / x`, of a positive float. -/
def dividedBy (n : Nat) : PyFloat → PyFloat
  | .finite x => toDouble (n / x)
  | .inf => .finite 0
  | .nan => .nan

/-- `x >= bound`, for a bound that may have overflowed. -/
def ageReaches (x : Rat) : PyFloat → Bool
  | .finite bound => decide (bound ≤ x)
  | _ => false

/-- `(now - then).total_seconds()`: a quotient of integers, rounded once.  No two
dates are so far apart that it leaves the range of a double. -/
def totalSeconds (span : Int) : Rat := roundedToPlace (span / 1000000)

namespace EvaluationDb

/-- `SELECT status, count(*) … GROUP BY status`, an absent group counting zero. -/
def countByStatus (db : EvaluationDb) (status : EvaluationStatus) : Nat :=
  db.evaluations.count (fun row => decide (row.status = status))

/-- `SELECT workload_class, count(*) … WHERE status = 'queued' GROUP BY workload_class`. -/
def countQueuedByClass (db : EvaluationDb) (workloadClass : WorkloadClass) : Nat :=
  db.evaluations.count (fun row => row.isQueued && decide (row.workloadClass = workloadClass))

/-- `SELECT min(created_at) … WHERE status = 'queued'`. -/
def oldestQueuedAt (db : EvaluationDb) : Option Timestamp :=
  ((db.evaluations.select EvaluationRow.isQueued).map EvaluationRow.createdAt).min?

/-- The evaluations that were over at `windowStart` or later. -/
def recentCompleted (db : EvaluationDb) (windowStart : Timestamp) : Nat :=
  db.evaluations.count (fun row =>
    (decide (row.status = .succeeded) || decide (row.status = .failed)) &&
      row.completedAt.any (fun completedAt => decide (windowStart ≤ completedAt)))

/-- How long the oldest queued evaluation has waited. -/
def oldestQueueAge (db : EvaluationDb) (now : Timestamp) : Option Rat :=
  db.oldestQueuedAt.map (fun oldest => max 0 (totalSeconds (now - oldest)))

/-- Counts, oldest queued age, and recent completions; the clock is read twice.  The
SELECTs all read this state. -/
def queueSnapshot (db : EvaluationDb) (serviceRateWindowSeconds : Rat)
    (now now' : Timestamp) : Except CoercionError QueueSnapshot := do
  let span ← timedeltaOfSeconds (.finite serviceRateWindowSeconds)
  let windowStart ← addSpan now' (-span)
  pure
    { queued := db.countByStatus .queued
      running := db.countByStatus .running
      succeeded := db.countByStatus .succeeded
      failed := db.countByStatus .failed
      oldestQueuedAt := db.oldestQueuedAt
      oldestQueueAgeSeconds := db.oldestQueueAge now
      recentCompletedCount := db.recentCompleted windowStart
      lightQueued := db.countQueuedByClass .light
      mediumQueued := db.countQueuedByClass .medium
      heavyQueued := db.countQueuedByClass .heavy }

end EvaluationDb

/-- The health of a queue of this depth whose oldest job has this age. -/
def healthOf (settings : BacklogSettings) (queued : Nat) (oldest : Option Rat) :
    EvaluationHealth :=
  if settings.evaluationCriticalQueueDepth ≤ queued ∨
      oldest.any (fun age =>
        ageReaches age (toDouble (settings.evaluationSaturatedOldestAgeSeconds * 5))) then
    .critical
  else if settings.evaluationSaturatedQueueDepth ≤ queued ∨
      oldest.any (fun age =>
        decide (settings.evaluationSaturatedOldestAgeSeconds ≤ age)) then
    .saturated
  else if settings.evaluationBusyQueueDepth ≤ queued ∨
      oldest.any (fun age => decide (settings.evaluationBusyOldestAgeSeconds ≤ age)) then
    .busy
  else .normal

/-- Completions per second over the window. -/
def serviceRate (settings : BacklogSettings) (recent : Nat) : Option PyFloat :=
  if 0 < settings.evaluationServiceRateWindowSeconds then
    some (toDouble (recent / settings.evaluationServiceRateWindowSeconds))
  else none

/-- A wait is estimated from three recent completions on. -/
def estimatedWait (settings : BacklogSettings) (queued recent : Nat) : Option PyFloat :=
  (serviceRate settings recent).bind (fun rate =>
    if 0 < queued ∧ rate.positive ∧ 3 ≤ recent then some ((dividedBy queued rate).round 1)
    else none)

/-- Evaluation-system health. -/
def getBacklogStatus (settings : BacklogSettings) (db : EvaluationDb) (now now' : Timestamp) :
    Except CoercionError EvaluationBacklogStatus := do
  let snap ← db.queueSnapshot settings.evaluationServiceRateWindowSeconds now now'
  let health := healthOf settings snap.queued snap.oldestQueueAgeSeconds
  pure
    { health := health
      queuedCount := snap.queued
      runningCount := snap.running
      succeededCount := snap.succeeded
      failedCount := snap.failed
      oldestQueueAgeSeconds := snap.oldestQueueAgeSeconds.map (roundFloat 3)
      estimatedWaitSeconds := estimatedWait settings snap.queued snap.recentCompletedCount
      recentServiceRatePerSecond :=
        (serviceRate settings snap.recentCompletedCount).map (PyFloat.round 3)
      message := health.message
      submissionsAccepted := true
      estimateIsApproximate := true
      lightQueuedCount := snap.lightQueued
      mediumQueuedCount := snap.mediumQueued
      heavyQueuedCount := snap.heavyQueued
      workerCapacity := settings.evaluationMaxWorkers
      pressureState := db.scheduler.pressureState
      adaptiveMaxWorkers := db.scheduler.adaptiveMaxWorkers
      resourceRuntimeEnabled := settings.resourceAwareRuntimeEnabled }

namespace EvaluationDb

variable {db db' : EvaluationDb}

/-! ## The counts -/

/-- The four counts add up to the evaluations. -/
theorem countByStatus_sum (db : EvaluationDb) :
    db.countByStatus .queued + db.countByStatus .running + db.countByStatus .succeeded +
      db.countByStatus .failed = db.evaluations.rows.length := by
  have hsum := Table.count_classes db.evaluations (fun _ => true) EvaluationRow.status
    [.queued, .running, .succeeded, .failed] (by decide) (by
      intro row _ _
      cases row.status <;> simp)
  simp only [List.map_cons, List.map_nil, List.sum_cons, List.sum_nil, Bool.true_and] at hsum
  simp only [countByStatus]
  have hall : db.evaluations.count (fun _ => true) = db.evaluations.rows.length := by
    simp [Table.count]
  omega

/-- The three class counts add up to the queued evaluations. -/
theorem countQueuedByClass_sum (db : EvaluationDb) :
    db.countQueuedByClass .light + db.countQueuedByClass .medium +
      db.countQueuedByClass .heavy = db.countByStatus .queued := by
  have hsum := Table.count_classes db.evaluations EvaluationRow.isQueued
    EvaluationRow.workloadClass [.light, .medium, .heavy] (by decide) (by
      intro row _ _
      cases row.workloadClass <;> simp)
  simp only [List.map_cons, List.map_nil, List.sum_cons, List.sum_nil] at hsum
  simp only [countQueuedByClass, countByStatus]
  have hqueued : db.evaluations.count (fun row => decide (row.status = .queued)) =
      db.evaluations.count EvaluationRow.isQueued := rfl
  omega

/-- The oldest queued evaluation is the one that heads the queue. -/
theorem oldestQueuedAt_eq (db : EvaluationDb) :
    db.oldestQueuedAt = db.queue.head?.map EvaluationRow.createdAt := by
  cases hqueue : db.queue with
  | nil =>
      have hnone : db.evaluations.select EvaluationRow.isQueued = [] := by
        apply List.eq_nil_iff_forall_not_mem.mpr
        intro row hrow
        have hmem : row ∈ db.queue := mem_queue.mpr (by simpa using hrow)
        rw [hqueue] at hmem
        cases hmem
      simp [oldestQueuedAt, hnone]
  | cons head rest =>
      obtain ⟨hhead, hqueued⟩ := mem_queue.mp (show head ∈ db.queue by simp [hqueue])
      simp only [oldestQueuedAt, List.head?_cons, Option.map_some]
      rw [List.min?_eq_some_iff]
      constructor
      · exact List.mem_map_of_mem (by simp [hhead, hqueued])
      · intro createdAt hcreated
        obtain ⟨row, hrow, rfl⟩ := List.mem_map.mp hcreated
        obtain ⟨hmem, hrowQueued⟩ := Table.mem_select.mp hrow
        by_cases hsame : row = head
        · rw [hsame]
        · rcases queue_first hqueue hmem (by simpa using hrowQueued) hsame with hlt | heq
          · exact le_of_lt hlt
          · exact le_of_eq heq.1

end EvaluationDb

/-! ## Health -/

/-- `then` is no later, so no less time has passed. -/
theorem totalSeconds_mono {span span' : Int} (hspan : 0 ≤ span) (h : span ≤ span') :
    totalSeconds span ≤ totalSeconds span' := by
  have hx : (0 : Rat) ≤ span / 1000000 := by
    have hcast : (0 : Rat) ≤ span := by exact_mod_cast hspan
    positivity
  have hle : (span / 1000000 : Rat) ≤ span' / 1000000 := by
    have hcast : (span : Rat) ≤ span' := by exact_mod_cast h
    gcongr
  exact roundedToPlace_mono_of_nonneg hx hle

/-- The future is not counted as waiting. -/
theorem totalSeconds_nonpos {span : Int} (h : span ≤ 0) : totalSeconds span ≤ 0 := by
  have hx : (span / 1000000 : Rat) ≤ 0 := by
    have hcast : (span : Rat) ≤ 0 := by exact_mod_cast h
    linarith
  have hunit : (0 : Rat) < 2 ^ lastPlace (span / 1000000) := zpow_pos two_pos _
  have hscaled : (span / 1000000 : Rat) / 2 ^ lastPlace (span / 1000000) ≤ ((0 : Int) : Rat) := by
    push_cast
    exact div_nonpos_of_nonpos_of_nonneg hx hunit.le
  have hle : (roundHalfEven ((span / 1000000 : Rat) / 2 ^ lastPlace (span / 1000000)) : Rat) ≤
      0 := by
    exact_mod_cast roundHalfEven_le hscaled
  exact mul_nonpos_of_nonpos_of_nonneg hle hunit.le

theorem ageReaches_mono {x y : Rat} (h : x ≤ y) {bound : PyFloat} (hx : ageReaches x bound = true) :
    ageReaches y bound = true := by
  cases bound with
  | finite b =>
      have hb : b ≤ x := by simpa [ageReaches] using hx
      simpa [ageReaches] using hb.trans h
  | inf => cases hx
  | nan => cases hx

/-- The oldest age of a queue that lost jobs: none, or one that is no older. -/
def NoOlder (oldest oldest' : Option Rat) : Prop :=
  ∀ age ∈ oldest', ∃ age' ∈ oldest, age ≤ age'

theorem NoOlder.any {oldest oldest' : Option Rat} (h : NoOlder oldest oldest')
    {test : Rat → Bool} (htest : ∀ x y, x ≤ y → test x = true → test y = true)
    (hany : oldest'.any test = true) : oldest.any test = true := by
  cases oldest' with
  | none => cases hany
  | some age =>
      obtain ⟨age', hage', hle⟩ := h age rfl
      obtain rfl : oldest = some age' := hage'
      exact htest age age' hle hany

/-- The first test that passes decides, so fewer tests passing is no worse. -/
theorem severity_cascade {c s b c' s' b' : Prop} [Decidable c] [Decidable s] [Decidable b]
    [Decidable c'] [Decidable s'] [Decidable b'] (hc : c' → c) (hs : s' → s) (hb : b' → b) :
    (if c' then EvaluationHealth.critical else if s' then .saturated
      else if b' then .busy else .normal).severity ≤
    (if c then EvaluationHealth.critical else if s then .saturated
      else if b then .busy else .normal).severity := by
  by_cases hc' : c'
  · simp [hc', hc hc']
  · by_cases hs' : s'
    · simp only [hc', hs', hs hs', if_false, if_true]
      split <;> simp [EvaluationHealth.severity]
    · by_cases hb' : b'
      · simp only [hc', hs', hb', hb hb', if_false, if_true]
        split_ifs <;> simp [EvaluationHealth.severity]
      · simp [hc', hs', hb', EvaluationHealth.severity]

/-- **Health is monotone.**  Whatever the thresholds are, even out of order, a queue that
is no longer and no older is no less healthy. -/
theorem health_mono (settings : BacklogSettings) {queued queued' : Nat}
    {oldest oldest' : Option Rat} (hqueued : queued' ≤ queued) (holder : NoOlder oldest oldest') :
    (healthOf settings queued' oldest').severity ≤ (healthOf settings queued oldest).severity := by
  have hdepth : ∀ bound : Int, bound ≤ queued' → bound ≤ queued := by
    intro bound h
    omega
  have hage : ∀ bound : Rat, oldest'.any (fun age => decide (bound ≤ age)) = true →
      oldest.any (fun age => decide (bound ≤ age)) = true := by
    intro bound
    apply holder.any
    intro x y hxy hx
    exact decide_eq_true ((of_decide_eq_true hx).trans hxy)
  apply severity_cascade
  · exact Or.imp (hdepth _) (holder.any (fun x y hxy => ageReaches_mono hxy))
  · exact Or.imp (hdepth _) (hage _)
  · exact Or.imp (hdepth _) (hage _)

/-! ## Draining the queue -/

/-- The transactions that put nothing into the queue: claims, final completions, and the
notes that workers and the API leave. -/
def QueueAction.drains : QueueAction → Bool
  | .createQueued .. | .recoverStaleRunning .. => false
  | .complete _ _ _ (.deferred ..) | .complete _ _ _ (.released ..) => false
  | _ => true

def draining : Condition EvaluationDb QueueAction := fun _ a => a.drains = true

instance (db : EvaluationDb) (a : QueueAction) : Decidable (draining db a) :=
  inferInstanceAs (Decidable (_ = true))

/-- A final completion takes its row out of the queue for good. -/
theorem apply_not_queued {id : UUID} {workerId : String} {now : Timestamp} {c : Completion}
    (h : (QueueAction.complete id workerId now c).drains = true) (row : EvaluationRow) :
    (c.apply now row).status ≠ .queued := by
  cases c with
  | deferred stage workload metadata => cases h
  | released metadata reason => cases h
  | _ => simp [Completion.apply]

/-- What is queued after a draining transaction was queued before. -/
theorem queued_of_draining {db db' : EvaluationDb} {a : QueueAction} (hdrains : a.drains = true)
    (h : db.transact a = some db') {row : EvaluationRow} (hrow : row ∈ db'.evaluations)
    (hqueued : row.status = .queued) : row ∈ db.evaluations := by
  cases a with
  | createQueued id submissionId workload mode deadline stage now => cases hdrains
  | recoverStaleRunning staleBefore maxAttempts now os => cases hdrains
  | claimNext args now =>
      simp only [EvaluationDb.transact] at h
      split at h
      · rename_i x db'' hclaim
        cases h
        obtain ⟨claimed, state, hdec, rfl, rfl⟩ :=
          EvaluationDb.claimTransaction_eq_some_iff.mp hclaim
        exact (EvaluationDb.queued_after_start hrow hqueued).1
      · cases h
        exact hrow
  | complete id workerId now c =>
      cases h
      rw [EvaluationDb.complete_eq_apply] at hrow
      obtain ⟨old, hold, heq⟩ := (Table.mem_update (fun row => c.apply_id now row)).mp hrow
      split at heq
      · rw [← heq] at hqueued
        exact absurd hqueued (apply_not_queued hdrains old)
      · rwa [← heq]
  | beginExecutionAttempt id workerId attempt =>
      cases h
      obtain ⟨old, hold, heq⟩ :=
        (Table.mem_update (f := EvaluationDb.recordAttempt attempt) (fun _ => rfl)).mp hrow
      split at heq
      · rename_i howned
        have hrunning := (EvaluationRow.ownedBy_iff.mp howned).2.1
        have hsame : (EvaluationDb.recordAttempt attempt old).status = old.status := rfl
        rw [← heq, hsame, hrunning] at hqueued
        cases hqueued
      · rwa [← heq]
  | persistRuntimeState pressure workers =>
      cases h
      exact hrow
  | persistInteractiveHint p95 samples poolWait =>
      cases h
      exact hrow

/-- A shrunk queue: its rows are among the rows of the other. -/
def QueueWithin (db' db : EvaluationDb) : Prop :=
  ∀ row ∈ db'.evaluations, row.status = .queued → row ∈ db.evaluations

theorem queueWithin_of_path {db db' : EvaluationDb}
    (h : evaluationQueue.Path draining db db') : QueueWithin db' db := by
  refine h.preserves (I := fun db' => QueueWithin db' db) ?_ (fun _ hrow _ => hrow)
  intro u a u' hI hdrains hstep row hrow hqueued
  exact hI row (queued_of_draining hdrains hstep hrow hqueued) hqueued

theorem queued_le {db db' : EvaluationDb} (h : QueueWithin db' db) :
    db'.countByStatus .queued ≤ db.countByStatus .queued := by
  have hsub : ∀ x ∈ db'.evaluations.select EvaluationRow.isQueued,
      x ∈ db.evaluations.select EvaluationRow.isQueued := by
    intro x hx
    obtain ⟨hmem, hqueued⟩ := Table.mem_select.mp hx
    exact Table.mem_select.mpr
      ⟨h x hmem (EvaluationRow.isQueued_iff.mp hqueued), hqueued⟩
  have hlength := (List.subperm_of_subset (db'.evaluations.nodup_select _) hsub).length_le
  simp only [Table.select, ← List.countP_eq_length_filter] at hlength
  exact hlength

/-- A shrunk queue has waited no longer, at any one instant. -/
theorem noOlder_of_within {db db' : EvaluationDb} (h : QueueWithin db' db) (now : Timestamp) :
    NoOlder (db.oldestQueueAge now) (db'.oldestQueueAge now) := by
  intro age hage
  obtain ⟨oldest', holdest', rfl⟩ := Option.map_eq_some_iff.mp hage
  obtain ⟨hmem', -⟩ := List.min?_eq_some_iff.mp holdest'
  obtain ⟨row, hrow, rfl⟩ := List.mem_map.mp hmem'
  obtain ⟨hrowMem, hrowQueued⟩ := Table.mem_select.mp hrow
  have hold : row ∈ db.evaluations := h row hrowMem (EvaluationRow.isQueued_iff.mp hrowQueued)
  have hlisted : row.createdAt ∈
      (db.evaluations.select EvaluationRow.isQueued).map EvaluationRow.createdAt :=
    List.mem_map_of_mem (Table.mem_select.mpr ⟨hold, hrowQueued⟩)
  cases holdest : db.oldestQueuedAt with
  | none =>
      rw [EvaluationDb.oldestQueuedAt, List.min?_eq_none_iff] at holdest
      rw [holdest] at hlisted
      cases hlisted
  | some oldest =>
      obtain ⟨hmem, hleast⟩ := List.min?_eq_some_iff.mp holdest
      obtain ⟨first, hfirst, rfl⟩ := List.mem_map.mp hmem
      have hle : first.createdAt ≤ row.createdAt := hleast _ hlisted
      refine ⟨_, by simp only [EvaluationDb.oldestQueueAge, holdest, Option.map_some]; rfl, ?_⟩
      by_cases hpast : row.createdAt ≤ now
      · exact max_le_max le_rfl (totalSeconds_mono (Int.sub_nonneg.mpr hpast)
          (Int.sub_le_sub_left hle now))
      · -- a row from the future has not waited at all
        have hfuture : now - row.createdAt ≤ 0 :=
          Int.sub_nonpos_of_le (le_of_lt (not_le.mp hpast))
        rw [max_eq_left (totalSeconds_nonpos hfuture)]
        exact le_max_left _ _

/-! ## What is told of the backlog -/

/-- The status is computed from the snapshot. -/
theorem getBacklogStatus_eq_ok {settings : BacklogSettings} {db : EvaluationDb}
    {now now' : Timestamp} {status : EvaluationBacklogStatus}
    (h : getBacklogStatus settings db now now' = .ok status) :
    ∃ snap, db.queueSnapshot settings.evaluationServiceRateWindowSeconds now now' = .ok snap ∧
      status.health = healthOf settings snap.queued snap.oldestQueueAgeSeconds ∧
      status.queuedCount = snap.queued ∧ status.runningCount = snap.running ∧
      status.succeededCount = snap.succeeded ∧ status.failedCount = snap.failed ∧
      status.oldestQueueAgeSeconds = snap.oldestQueueAgeSeconds.map (roundFloat 3) ∧
      status.lightQueuedCount = snap.lightQueued ∧
      status.mediumQueuedCount = snap.mediumQueued ∧
      status.heavyQueuedCount = snap.heavyQueued ∧ status.submissionsAccepted = true := by
  unfold getBacklogStatus at h
  cases hsnap : db.queueSnapshot settings.evaluationServiceRateWindowSeconds now now' with
  | error e =>
      rw [hsnap] at h
      cases h
  | ok snap =>
      rw [hsnap] at h
      cases h
      exact ⟨snap, rfl, rfl, rfl, rfl, rfl, rfl, rfl, rfl, rfl, rfl, rfl⟩


/-- The snapshot is read off the tables. -/
theorem queueSnapshot_eq_ok {db : EvaluationDb} {window : Rat} {now now' : Timestamp}
    {snap : QueueSnapshot} (h : db.queueSnapshot window now now' = .ok snap) :
    snap.queued = db.countByStatus .queued ∧ snap.running = db.countByStatus .running ∧
      snap.succeeded = db.countByStatus .succeeded ∧ snap.failed = db.countByStatus .failed ∧
      snap.oldestQueueAgeSeconds = db.oldestQueueAge now ∧
      snap.lightQueued = db.countQueuedByClass .light ∧
      snap.mediumQueued = db.countQueuedByClass .medium ∧
      snap.heavyQueued = db.countQueuedByClass .heavy := by
  unfold EvaluationDb.queueSnapshot at h
  cases hspan : timedeltaOfSeconds (.finite window) with
  | error e =>
      rw [hspan] at h
      cases h
  | ok span =>
      rw [hspan] at h
      simp only [bind, Except.bind] at h
      split at h
      · cases h
      · cases h
        exact ⟨rfl, rfl, rfl, rfl, rfl, rfl, rfl, rfl⟩

/-- There are as many evaluations as accepted submissions. -/
theorem Coherent.accepted_count {submissions : Submissions}
    {evaluations : Table EvaluationRow EvaluationRow.id} {replies : List (UUID × Reply)}
    (h : Coherent submissions evaluations replies) :
    evaluations.rows.length =
      submissions.count (fun row => decide (row.status = .submitted)) := by
  have hnodup : (evaluations.rows.map EvaluationRow.submissionId).Nodup := by
    apply List.Nodup.map_on
    · intro e he e' he' hsame
      exact h.single e he e' he' hsame
    · exact List.Nodup.of_map _ evaluations.nodup
  have hnodup' : ((submissions.select (fun row => decide (row.status = .submitted))).map
      SubmissionRow.id).Nodup := by
    exact submissions.nodup.sublist (List.filter_sublist.map _)
  have hperm := (List.perm_ext_iff_of_nodup hnodup hnodup').mpr (by
    intro id
    constructor
    · intro hid
      obtain ⟨e, he, rfl⟩ := List.mem_map.mp hid
      obtain ⟨row, hrow, hsame, hsubmitted⟩ := h.evaluated e he
      exact hsame ▸ List.mem_map_of_mem (Table.mem_select.mpr ⟨hrow, decide_eq_true hsubmitted⟩)
    · intro hid
      obtain ⟨row, hrow, rfl⟩ := List.mem_map.mp hid
      obtain ⟨hmem, hsubmitted⟩ := Table.mem_select.mp hrow
      obtain ⟨e, he, hsame⟩ := h.queued row hmem (of_decide_eq_true hsubmitted)
      exact hsame ▸ List.mem_map_of_mem he)
  have hlength := hperm.length_eq
  rw [List.length_map, List.length_map, Table.select, ← List.countP_eq_length_filter] at hlength
  exact hlength

/-- What a backlog status says of the store it was read from. -/
structure BacklogAddsUp (s : TransitionService) (now : Timestamp)
    (status : EvaluationBacklogStatus) : Prop where
  /-- The evaluations told of are the accepted submissions. -/
  accepted : status.queuedCount + status.runningCount + status.succeededCount +
    status.failedCount = s.service.submissions.count (fun row => decide (row.status = .submitted))
  classes : status.lightQueuedCount + status.mediumQueuedCount + status.heavyQueuedCount =
    status.queuedCount
  /-- The age is that of the job that heads the queue. -/
  oldest : status.oldestQueueAgeSeconds = s.service.evaluations.queue.head?.map (fun head =>
    roundFloat 3 (max 0 (totalSeconds (now - head.createdAt))))
  waiting : status.oldestQueueAgeSeconds = none ↔ status.queuedCount = 0
  /-- A bad health never turns a submission away. -/
  open_ : status.submissionsAccepted = true

/-- **The backlog adds up.**  In every run of requests and workers. -/
theorem backlog_adds_up {cfg : SubmissionConfig} {s : TransitionService}
    (hreach : (evaluationPlatform cfg).Reach always s) {settings : BacklogSettings}
    {now now' : Timestamp} {status : EvaluationBacklogStatus}
    (h : getBacklogStatus settings s.service.evaluations now now' = .ok status) :
    BacklogAddsUp s now status := by
  obtain ⟨snap, hsnap, -, hqueued, hrunning, hsucceeded, hfailed, holdest, hlight, hmedium,
    hheavy, haccepted⟩ := getBacklogStatus_eq_ok h
  obtain ⟨hsq, hsr, hss, hsf, hsage, hsl, hsm, hsh⟩ := queueSnapshot_eq_ok hsnap
  have htotal := s.service.evaluations.countByStatus_sum
  have hclasses := s.service.evaluations.countQueuedByClass_sum
  have haccounted := (platformCoherent_of_reach hreach).coherent.accepted_count
  have hage : status.oldestQueueAgeSeconds = s.service.evaluations.queue.head?.map (fun head =>
      roundFloat 3 (max 0 (totalSeconds (now - head.createdAt)))) := by
    rw [holdest, hsage, EvaluationDb.oldestQueueAge, EvaluationDb.oldestQueuedAt_eq,
      Option.map_map, Option.map_map]
    rfl
  refine ⟨by omega, by omega, hage, ?_, haccepted⟩
  have hlength : s.service.evaluations.queue.length = status.queuedCount := by
    rw [hqueued, hsq]
    exact Table.length_orderBy
  rw [hage, ← hlength, List.length_eq_zero_iff]
  cases s.service.evaluations.queue <;> simp

/-- The default thresholds. -/
def defaultBacklog : BacklogSettings where
  evaluationBusyQueueDepth := 20
  evaluationBusyOldestAgeSeconds := 5
  evaluationSaturatedQueueDepth := 100
  evaluationSaturatedOldestAgeSeconds := 30
  evaluationCriticalQueueDepth := 500
  evaluationServiceRateWindowSeconds := 30
  evaluationMaxWorkers := 1
  resourceAwareRuntimeEnabled := true

/-- Under the default window any store has a status, at any time but the first dates. -/
theorem getBacklogStatus_default (db : EvaluationDb) (now : Timestamp) {later : Timestamp}
    (hlater : InDatetime (later + -30000000)) :
    ∃ status, getBacklogStatus defaultBacklog db now later = .ok status := by
  have hspan : timedeltaOfSeconds (.finite 30) = .ok 30000000 := by decide +kernel
  have hstart : addSpan later (-30000000) = .ok (later + -30000000) := if_pos hlater
  cases hstatus : getBacklogStatus defaultBacklog db now later with
  | ok status => exact ⟨status, rfl⟩
  | error e =>
      simp only [getBacklogStatus, EvaluationDb.queueSnapshot, defaultBacklog, hspan, hstart,
        bind, Except.bind, pure, Except.pure] at hstatus
      cases hstatus

/-- `backlog_adds_up` after `evaluatedRace`. -/
theorem backlog_adds_up_race :
    ∃ s status, (evaluationPlatform defaultConfig).Reach always s ∧
      getBacklogStatus defaultBacklog s.service.evaluations 100 100 = .ok status ∧
      s.service.evaluations.countByStatus .succeeded = 1 ∧ BacklogAddsUp s 100 status := by
  obtain ⟨s, hreach, htest⟩ : ∃ s, (evaluationPlatform defaultConfig).Reach always s ∧
      decide (s.service.evaluations.countByStatus .succeeded = 1) = true :=
    System.reach_of_test ⟨emptyService, Table.empty, []⟩ evaluatedRace _ (by rfl) (by decide)
  obtain ⟨status, hstatus⟩ := getBacklogStatus_default s.service.evaluations 100
    (show InDatetime (100 + -30000000) by decide)
  exact ⟨s, status, hreach, hstatus, of_decide_eq_true htest, backlog_adds_up hreach hstatus⟩

/-- **A queue that drains does not look worse.**  While jobs are only claimed and finished,
the health told for any one instant stays the same or gets better, whatever the
thresholds are. -/
theorem health_recovers {settings : BacklogSettings} {db db' : EvaluationDb}
    (hpath : evaluationQueue.Path draining db db') {now later later' : Timestamp}
    {status status' : EvaluationBacklogStatus}
    (h : getBacklogStatus settings db now later = .ok status)
    (h' : getBacklogStatus settings db' now later' = .ok status') :
    status'.health.severity ≤ status.health.severity := by
  obtain ⟨snap, hsnap, hhealth, -⟩ := getBacklogStatus_eq_ok h
  obtain ⟨snap', hsnap', hhealth', -⟩ := getBacklogStatus_eq_ok h'
  obtain ⟨hqueued, -, -, -, hage, -⟩ := queueSnapshot_eq_ok hsnap
  obtain ⟨hqueued', -, -, -, hage', -⟩ := queueSnapshot_eq_ok hsnap'
  have hwithin := queueWithin_of_path hpath
  rw [hhealth, hhealth', hqueued, hqueued', hage, hage']
  exact health_mono settings (queued_le hwithin) (noOlder_of_within hwithin now)

/-- `health_recovers` where a claim empties a queue that had waited 100 seconds: the
health told for that instant goes from SATURATED to NORMAL. -/
theorem health_recovers_claim :
    ∃ db db' status status', evaluationQueue.Path draining db db' ∧
      getBacklogStatus defaultBacklog db 100000000 100000000 = .ok status ∧
      getBacklogStatus defaultBacklog db' 100000000 100000000 = .ok status' ∧
      status.health = .saturated ∧ status'.health = .normal ∧
      status'.health.severity ≤ status.health.severity := by
  obtain ⟨db, -, htest⟩ : ∃ db, evaluationQueue.Reach always db ∧
      ((getBacklogStatus defaultBacklog db 100000000 100000000).toOption.any
          (fun status => decide (status.health = .saturated)) &&
        (db.transact (.claimNext (laptopClaim "worker-a") 12)).any (fun db' : EvaluationDb =>
          (getBacklogStatus defaultBacklog db' 100000000 100000000).toOption.any
            (fun status => decide (status.health = .normal)))) = true :=
    System.reach_of_test emptyEvaluationDb [.createQueued 1 1 .light .legacy none 0 10] _ rfl
      (by decide +kernel)
  obtain ⟨hbefore, hafter⟩ := Bool.and_eq_true_iff.mp htest
  cases hstep : db.transact (.claimNext (laptopClaim "worker-a") 12) with
  | none => simp [hstep] at hafter
  | some db' =>
      rw [hstep, Option.any_some] at hafter
      have hpath : evaluationQueue.Path draining db db' :=
        System.Path.single (a := .claimNext (laptopClaim "worker-a") 12) (by rfl) hstep
      have hdate : InDatetime (100000000 + -30000000) := by decide
      obtain ⟨status, hstatus⟩ := getBacklogStatus_default db 100000000 hdate
      obtain ⟨status', hstatus'⟩ := getBacklogStatus_default db' 100000000 hdate
      rw [hstatus] at hbefore
      rw [hstatus'] at hafter
      exact ⟨db, db', status, status', hpath, hstatus, hstatus', of_decide_eq_true hbefore,
        of_decide_eq_true hafter, health_recovers hpath hstatus hstatus'⟩

end ChallengeForge
