import ChallengeForge.EvaluationQueue
import ChallengeForge.InteractiveSignal

/-!
# The published interactive hint

Requests put their latencies into the windows of an `InteractiveMetricsPublisher`; its
background task writes what they report to the `evaluation_scheduler_state` row, where
the workers read it beside their own transactions.  The task skips a write when nothing
was recorded since the last one, or when `material_change` finds the report like the
last one published.

Two things can leave a hint behind that is not the window's:

* `material_change` compares latencies only, so a skipped report may have crossed the
  worker's `min_samples`;
* a finished write clears the dirty flag, also of the samples recorded during it.

`hint_faithful` — in a run without either, a hint is faithful after every tick;
`stray_of_breach` — either of them ends in a hint that is not.
-/

namespace ChallengeForge

open Keyed Labelled

/-! ## The publisher -/

/-- Readings of the clock for the two windows, one after the other. -/
structure WindowClock where
  wall : Rat
  pool : Rat
  deriving DecidableEq, Repr

/-- What `snapshot` returns of the publisher's windows and counters. -/
structure PublisherSnapshot where
  wall : WindowReport
  poolWait : WindowReport
  generation : Nat
  dirty : Bool
  publishWrites : Nat
  publishFailures : Nat
  deriving DecidableEq, Repr

/-- What the worker's runtime is told of the interactive latency. -/
structure InteractiveHint where
  interactiveP95Ms : Option Rat
  interactiveSampleCount : Nat
  deriving DecidableEq, Repr

/-- The hint that a snapshot publishes. -/
def PublisherSnapshot.hint (snap : PublisherSnapshot) : InteractiveHint :=
  ⟨snap.wall.p95Ms, snap.wall.sampleCount⟩

/-- The hint the row holds. -/
def EvaluationSchedulerStateRow.hint (row : EvaluationSchedulerStateRow) : InteractiveHint :=
  ⟨row.interactiveP95Ms, row.interactiveSampleCount⟩

/-- The hint that `read_runtime_state` returns. -/
def EvaluationDb.hint (db : EvaluationDb) : InteractiveHint := db.scheduler.hint

/-- The write of `persist_now`. -/
def EvaluationDb.publish (db : EvaluationDb) (snap : PublisherSnapshot) : EvaluationDb :=
  db.persistInteractiveHint snap.wall.p95Ms snap.wall.sampleCount snap.poolWait.p95Ms

@[simp] theorem EvaluationDb.hint_publish (db : EvaluationDb) (snap : PublisherSnapshot) :
    (db.publish snap).hint = snap.hint := rfl

theorem EvaluationSchedulerStateRow.hint_blockedOn (row : EvaluationSchedulerStateRow)
    (id : UUID) : (row.blockedOn id).hint = row.hint := by
  unfold blockedOn
  split
  · rfl
  · rfl

/-- A transaction of the workers: the API process alone writes hints. -/
def QueueAction.keepsHint : QueueAction → Bool
  | .persistInteractiveHint _ _ _ => false
  | .createQueued _ _ _ _ _ _ _ | .claimNext _ _ | .complete _ _ _ _
  | .beginExecutionAttempt _ _ _ | .recoverStaleRunning _ _ _ _ | .persistRuntimeState _ _ =>
      true

theorem EvaluationDb.hint_transact {db db' : EvaluationDb} {a : QueueAction}
    (hkeeps : a.keepsHint = true) (h : db.transact a = some db') : db'.hint = db.hint := by
  cases a with
  | createQueued id submissionId workload mode deadline stage now =>
      obtain ⟨row, evaluations, -, -, -, rfl⟩ := createQueued_eq_some h
      rfl
  | claimNext args now =>
      simp only [transact] at h
      split at h
      · rename_i hclaim
        cases h
        obtain ⟨row, state, hdecision, -, rfl⟩ := claimTransaction_eq_some_iff.mp hclaim
        cases hdecision with
        | oldest => rfl
        | @bypass other row rest hslot hqueue hblocked hpolicy hlimit hlight =>
            exact EvaluationSchedulerStateRow.hint_blockedOn db.scheduler other.id
      · cases h
        rfl
  | complete id workerId now c =>
      cases h
      obtain ⟨f, hf, -, heq⟩ := db.complete_eq id workerId now c
      rw [heq]
      rfl
  | beginExecutionAttempt id workerId attempt =>
      cases h
      rfl
  | recoverStaleRunning staleBefore maxAttempts now os =>
      cases h
      rfl
  | persistRuntimeState pressure workers =>
      cases h
      rfl
  | persistInteractiveHint p95 samples poolWait => cases hkeeps

/-- The windows of the API process, and what it knows of its last publication. -/
structure InteractiveMetricsPublisher where
  window : RollingLatencyWindow
  poolWaitWindow : RollingLatencyWindow
  publishMinDeltaMs : Rat := 25
  dirty : Bool := false
  generation : Nat := 0
  samplesSinceSync : Nat := 0
  publishWrites : Nat := 0
  publishFailures : Nat := 0
  lastPublished : Option PublisherSnapshot := none
  deriving DecidableEq, Repr

namespace InteractiveMetricsPublisher

variable (p : InteractiveMetricsPublisher)

/-- What `snapshot` does to the windows. -/
def trim (clock : WindowClock) : InteractiveMetricsPublisher :=
  { p with
    window := (p.window.snapshot clock.wall).1
    poolWaitWindow := (p.poolWaitWindow.snapshot clock.pool).1 }

/-- What `snapshot` returns. -/
def snapshot (clock : WindowClock) : PublisherSnapshot where
  wall := (p.window.snapshot clock.wall).2
  poolWait := (p.poolWaitWindow.snapshot clock.pool).2
  generation := p.generation
  dirty := p.dirty
  publishWrites := p.publishWrites
  publishFailures := p.publishFailures

/-- `record_wall`, before the snapshot it returns. -/
def recordSample (latencyMs : Rat) (poolWaitMs : Option Rat) (clock : WindowClock) :
    InteractiveMetricsPublisher :=
  { p with
    window := p.window.record latencyMs clock.wall
    poolWaitWindow :=
      match poolWaitMs with
      | some wait =>
          if 0 ≤ wait then p.poolWaitWindow.record wait clock.pool else p.poolWaitWindow
      | none => p.poolWaitWindow
    dirty := true
    generation := p.generation + 1
    samplesSinceSync := p.samplesSinceSync + 1 }

/-- `record_wall`; `clock` is read by the windows' `record`, `later` by their `snapshot`. -/
def recordWall (latencyMs : Rat) (poolWaitMs : Option Rat) (clock later : WindowClock) :
    InteractiveMetricsPublisher × PublisherSnapshot :=
  let recorded := p.recordSample latencyMs poolWaitMs clock
  (recorded.trim later, recorded.snapshot later)

/-- The snapshot differs enough from the last one published. -/
def materialChange (snap : PublisherSnapshot) : Bool :=
  match p.lastPublished with
  | none => true
  | some last =>
      match last.wall.p95Ms, snap.wall.p95Ms with
      | none, some _ => true
      | _, none => false
      | some prev, some cur =>
          if p.publishMinDeltaMs ≤ |cur - prev| then true
          else
            match last.poolWait.p95Ms, snap.poolWait.p95Ms with
            | none, some _ => true
            | some prevPw, some curPw => p.publishMinDeltaMs ≤ |curPw - prevPw|
            | _, none => false

/-- How far `persist_now` gets before its first `await`. -/
inductive PersistStart
  | returned (p : InteractiveMetricsPublisher)
  | writing (p : InteractiveMetricsPublisher) (snap : PublisherSnapshot)

/-- `persist_now` up to its first `await`. -/
def startPersist (clock : WindowClock) : PersistStart :=
  let snap := p.snapshot clock
  let q := p.trim clock
  if ¬ q.dirty ∧ q.lastPublished.isSome then .returned q
  else if q.lastPublished.isSome ∧ ¬ q.materialChange snap then
    .returned { q with dirty := false, samplesSinceSync := 0 }
  else .writing q snap

/-- `persist_now` from the commit on. -/
def finishPersist (snap : PublisherSnapshot) : InteractiveMetricsPublisher :=
  { p with
    lastPublished := some snap
    dirty := false
    samplesSinceSync := 0
    publishWrites := p.publishWrites + 1 }

/-- `persist_now` from an exception on. -/
def failPersist : InteractiveMetricsPublisher :=
  { p with publishFailures := p.publishFailures + 1 }

end InteractiveMetricsPublisher

/-! ## Requests and ticks -/

/-- A write of the background task, whose transaction may have been committed. -/
structure HintWrite where
  snap : PublisherSnapshot
  committed : Bool
  deriving DecidableEq, Repr

/-- The publisher, the evaluation store, and the tick in progress.  `aged` and `ticked`
are of no program: a sample was dropped since the last one was recorded; a tick that
began after the last one was recorded has ended. -/
structure HintState where
  publisher : InteractiveMetricsPublisher
  db : EvaluationDb
  write : Option HintWrite
  aged : Bool
  ticked : Bool

/-- A request that is measured, a wake-up of the publisher, or a transaction that ends. -/
inductive HintAction
  | recordWall (latencyMs : Rat) (poolWaitMs : Option Rat) (clock later : WindowClock)
  /-- the snapshot of the health route -/
  | snapshot (clock : WindowClock)
  /-- the background task wakes up and calls `persist_now` -/
  | tick (clock : WindowClock)
  /-- the transaction of `persist_now` takes effect -/
  | commit
  /-- `persist_now` goes on after its last `await` -/
  | finish
  /-- one of its `await`s raises -/
  | fail
  /-- a transaction of the workers -/
  | transact (a : QueueAction)

namespace HintState

variable (s : HintState)

/-- A snapshot at `clock` drops a sample of the window. -/
def dropsAt (p : InteractiveMetricsPublisher) (clock : WindowClock) : Bool :=
  decide ((p.trim clock).window ≠ p.window)

/-- What an action does; `none` where it cannot happen. -/
def step : HintAction → Option HintState
  | .recordWall latencyMs poolWaitMs clock later =>
      let recorded := s.publisher.recordSample latencyMs poolWaitMs clock
      some { s with
        publisher := (s.publisher.recordWall latencyMs poolWaitMs clock later).1
        aged := dropsAt recorded later
        ticked := false }
  | .snapshot clock =>
      some { s with
        publisher := s.publisher.trim clock
        aged := s.aged || dropsAt s.publisher clock }
  | .tick clock =>
      match s.write with
      -- the task is still in its last tick
      | some _ => none
      | none =>
          let aged := s.aged || dropsAt s.publisher clock
          match s.publisher.startPersist clock with
          | .returned q => some { s with publisher := q, aged := aged, ticked := true }
          | .writing q snap =>
              some { s with publisher := q, aged := aged, write := some ⟨snap, false⟩ }
  | .commit =>
      match s.write with
      | some ⟨snap, false⟩ =>
          some { s with db := s.db.publish snap, write := some ⟨snap, true⟩ }
      | some ⟨_, true⟩ | none => none
  | .finish =>
      match s.write with
      | some ⟨snap, true⟩ =>
          some { s with
            publisher := s.publisher.finishPersist snap
            write := none
            ticked := decide (snap.generation = s.publisher.generation) }
      | some ⟨_, false⟩ | none => none
  | .fail =>
      match s.write with
      | some _ =>
          some { s with publisher := s.publisher.failPersist, write := none, ticked := false }
      | none => none
  | .transact a =>
      if a.keepsHint then (s.db.transact a).map (fun db => { s with db := db }) else none

/-- The publisher of `get_or_create_publisher`, beside any store. -/
def Fresh : Prop :=
  s.publisher.window.samples = [] ∧ s.publisher.poolWaitWindow.samples = [] ∧
    s.publisher.dirty = false ∧ s.publisher.lastPublished = none ∧ s.write = none ∧
    s.aged = false ∧ s.ticked = false

end HintState

/-- The publisher of one API process beside the row it writes. -/
def interactiveHint : System HintState HintAction where
  start := HintState.Fresh
  step := HintState.step

/-- No write of a hint fails. -/
def writesSucceed : Condition HintState HintAction
  | _, .fail => False
  | _, .recordWall _ _ _ _ | _, .snapshot _ | _, .tick _ | _, .commit | _, .finish
  | _, .transact _ => True

instance (s : HintState) : (a : HintAction) → Decidable (writesSucceed s a)
  | .fail => inferInstanceAs (Decidable False)
  | .recordWall _ _ _ _ => inferInstanceAs (Decidable True)
  | .snapshot _ => inferInstanceAs (Decidable True)
  | .tick _ => inferInstanceAs (Decidable True)
  | .commit => inferInstanceAs (Decidable True)
  | .finish => inferInstanceAs (Decidable True)
  | .transact _ => inferInstanceAs (Decidable True)

/-! ## What makes a hint faithful -/

/-- Both windows were empty, or their percentiles differ by no more than `delta`. -/
def Near (delta : Rat) : Option Rat → Option Rat → Prop
  | none, none => True
  | some a, some b => a = b ∨ |a - b| ≤ delta
  | none, some _ | some _, none => False

instance (delta : Rat) : (a b : Option Rat) → Decidable (Near delta a b)
  | none, none => inferInstanceAs (Decidable True)
  | some a, some b => inferInstanceAs (Decidable (a = b ∨ |a - b| ≤ delta))
  | none, some _ => inferInstanceAs (Decidable False)
  | some _, none => inferInstanceAs (Decidable False)

@[simp] theorem near_self (delta : Rat) (a : Option Rat) : Near delta a a := by
  cases a with
  | none => trivial
  | some a => exact Or.inl rfl

/-- Both counts are too few for the worker's `update` to look at the percentile, or
neither is. -/
abbrev SameSide (minSamples : Int) (a b : Nat) : Prop :=
  (a : Int) < minSamples ↔ (b : Int) < minSamples

/-- The hint says of a window what a worker would hear from its report. -/
abbrev Faithful (delta : Rat) (minSamples : Int) (hint : InteractiveHint)
    (report : WindowReport) : Prop :=
  Near delta hint.interactiveP95Ms report.p95Ms ∧
    SameSide minSamples hint.interactiveSampleCount report.sampleCount

/-- **What the publisher has to be spared.**  A tick that skips its write finds the
sample count on the side of `min_samples` of the last one published.  While a write
is under way no sample is recorded, or those that are leave the report faithful.
What is asked of a window that lost a sample to time is nothing. -/
def keepsUp (minSamples : Int) : Condition HintState HintAction
  | s, .tick clock => ∀ last ∈ s.publisher.lastPublished,
      s.publisher.dirty = false ∨
        s.publisher.materialChange (s.publisher.snapshot clock) = true ∨
        (s.aged || HintState.dropsAt s.publisher clock) = true ∨
        SameSide minSamples last.wall.sampleCount
          (s.publisher.snapshot clock).wall.sampleCount
  | s, .finish => ∀ w ∈ s.write,
      s.aged = true ∨ w.snap.generation = s.publisher.generation ∨
        Faithful s.publisher.publishMinDeltaMs minSamples w.snap.hint s.publisher.window.report
  | _, .fail => False
  | _, .recordWall _ _ _ _ | _, .snapshot _ | _, .commit | _, .transact _ => True

instance (minSamples : Int) (s : HintState) : (a : HintAction) →
    Decidable (keepsUp minSamples s a)
  | .tick clock => inferInstanceAs (Decidable (∀ last ∈ s.publisher.lastPublished,
      s.publisher.dirty = false ∨
        s.publisher.materialChange (s.publisher.snapshot clock) = true ∨
        (s.aged || HintState.dropsAt s.publisher clock) = true ∨
        SameSide minSamples last.wall.sampleCount
          (s.publisher.snapshot clock).wall.sampleCount))
  | .finish => inferInstanceAs (Decidable (∀ w ∈ s.write,
      s.aged = true ∨ w.snap.generation = s.publisher.generation ∨
        Faithful s.publisher.publishMinDeltaMs minSamples w.snap.hint
          s.publisher.window.report))
  | .fail => inferInstanceAs (Decidable False)
  | .recordWall _ _ _ _ => inferInstanceAs (Decidable True)
  | .snapshot _ => inferInstanceAs (Decidable True)
  | .commit => inferInstanceAs (Decidable True)
  | .transact _ => inferInstanceAs (Decidable True)

namespace InteractiveMetricsPublisher

variable {p : InteractiveMetricsPublisher} {snap last : PublisherSnapshot}

/-- A change that is not material keeps the percentile near, unless the window
became empty. -/
theorem near_of_not_material (hlast : p.lastPublished = some last)
    (h : p.materialChange snap = false)
    (hfilled : last.wall.p95Ms ≠ none → snap.wall.p95Ms ≠ none) :
    Near p.publishMinDeltaMs last.wall.p95Ms snap.wall.p95Ms := by
  unfold materialChange at h
  rw [hlast] at h
  cases hprev : last.wall.p95Ms with
  | none =>
      cases hcur : snap.wall.p95Ms with
      | none => trivial
      | some cur => simp [hprev, hcur] at h
  | some prev =>
      cases hcur : snap.wall.p95Ms with
      | none => exact absurd hcur (hfilled (by simp [hprev]))
      | some cur =>
          simp only [hprev, hcur] at h
          by_cases hdelta : p.publishMinDeltaMs ≤ |cur - prev|
          · simp [hdelta] at h
          · have hclose : |prev - cur| ≤ p.publishMinDeltaMs := by
              rw [abs_sub_comm]
              exact le_of_not_ge hdelta
            exact Or.inr hclose

end InteractiveMetricsPublisher

/-! ## One step -/

/-- What a step can do. -/
inductive HintStep (s : HintState) : HintAction → HintState → Prop
  | recorded (latencyMs : Rat) (poolWaitMs : Option Rat) (clock later : WindowClock) :
      HintStep s (.recordWall latencyMs poolWaitMs clock later)
        { s with
          publisher := (s.publisher.recordSample latencyMs poolWaitMs clock).trim later
          aged := HintState.dropsAt (s.publisher.recordSample latencyMs poolWaitMs clock) later
          ticked := false }
  | reported (clock : WindowClock) :
      HintStep s (.snapshot clock)
        { s with
          publisher := s.publisher.trim clock
          aged := s.aged || HintState.dropsAt s.publisher clock }
  | clean {last : PublisherSnapshot} (clock : WindowClock) (hidle : s.write = none)
      (hclean : s.publisher.dirty = false) (hlast : s.publisher.lastPublished = some last) :
      HintStep s (.tick clock)
        { s with
          publisher := s.publisher.trim clock
          write := none
          aged := s.aged || HintState.dropsAt s.publisher clock
          ticked := true }
  | skipped {last : PublisherSnapshot} (clock : WindowClock) (hidle : s.write = none)
      (hdirty : s.publisher.dirty = true) (hlast : s.publisher.lastPublished = some last)
      (hsame : s.publisher.materialChange (s.publisher.snapshot clock) = false) :
      HintStep s (.tick clock)
        { s with
          publisher := { s.publisher.trim clock with dirty := false, samplesSinceSync := 0 }
          write := none
          aged := s.aged || HintState.dropsAt s.publisher clock
          ticked := true }
  | writes (clock : WindowClock) (hidle : s.write = none)
      (hdue : ∀ last, s.publisher.lastPublished = some last → s.publisher.dirty = true ∧
        s.publisher.materialChange (s.publisher.snapshot clock) = true) :
      HintStep s (.tick clock)
        { s with
          publisher := s.publisher.trim clock
          aged := s.aged || HintState.dropsAt s.publisher clock
          write := some ⟨s.publisher.snapshot clock, false⟩ }
  | committed {snap : PublisherSnapshot} (hwrite : s.write = some ⟨snap, false⟩) :
      HintStep s .commit { s with db := s.db.publish snap, write := some ⟨snap, true⟩ }
  | finished {snap : PublisherSnapshot} (hwrite : s.write = some ⟨snap, true⟩) :
      HintStep s .finish
        { s with
          publisher := s.publisher.finishPersist snap
          write := none
          ticked := decide (snap.generation = s.publisher.generation) }
  | failed {w : HintWrite} (hwrite : s.write = some w) :
      HintStep s .fail
        { s with publisher := s.publisher.failPersist, write := none, ticked := false }
  | transacted {a : QueueAction} {db : EvaluationDb} (hhint : db.hint = s.db.hint) :
      HintStep s (.transact a) { s with db := db }

namespace HintState

variable {s t : HintState}

theorem step_spec {a : HintAction} (h : s.step a = some t) : HintStep s a t := by
  cases a with
  | recordWall latencyMs poolWaitMs clock later =>
      cases h
      exact .recorded latencyMs poolWaitMs clock later
  | snapshot clock =>
      cases h
      exact .reported clock
  | tick clock =>
      cases hwrite : s.write with
      | some w => simp [step, hwrite] at h
      | none =>
          simp only [step, hwrite, InteractiveMetricsPublisher.startPersist] at h
          cases hlast : s.publisher.lastPublished with
          | none =>
              have hsome : (s.publisher.trim clock).lastPublished.isSome = false := by
                show s.publisher.lastPublished.isSome = false
                rw [hlast]
                rfl
              simp only [hsome, Bool.false_eq_true, and_false, if_false] at h
              cases h
              refine .writes clock hwrite ?_
              intro last hsomething
              rw [hlast] at hsomething
              cases hsomething
          | some last =>
              have hsome : (s.publisher.trim clock).lastPublished.isSome = true := by
                show s.publisher.lastPublished.isSome = true
                rw [hlast]
                rfl
              cases hdirty : s.publisher.dirty with
              | false =>
                  have hclean : ¬ (s.publisher.trim clock).dirty = true := by
                    show ¬ s.publisher.dirty = true
                    simp [hdirty]
                  rw [if_pos ⟨hclean, hsome⟩] at h
                  cases h
                  exact .clean clock hwrite hdirty hlast
              | true =>
                  have hdue : ¬ (¬ (s.publisher.trim clock).dirty = true ∧
                      (s.publisher.trim clock).lastPublished.isSome = true) :=
                    fun hboth => hboth.1 hdirty
                  rw [if_neg hdue] at h
                  by_cases hsame :
                      s.publisher.materialChange (s.publisher.snapshot clock) = true
                  · have hmaterial : ¬ ((s.publisher.trim clock).lastPublished.isSome = true ∧
                        ¬ (s.publisher.trim clock).materialChange
                          (s.publisher.snapshot clock) = true) :=
                      fun hboth => hboth.2 hsame
                    rw [if_neg hmaterial] at h
                    cases h
                    exact .writes clock hwrite (fun _ _ => ⟨hdirty, hsame⟩)
                  · have hskips : (s.publisher.trim clock).lastPublished.isSome = true ∧
                        ¬ (s.publisher.trim clock).materialChange
                          (s.publisher.snapshot clock) = true := ⟨hsome, hsame⟩
                    rw [if_pos hskips] at h
                    cases h
                    exact .skipped clock hwrite hdirty hlast (Bool.eq_false_iff.mpr hsame)
  | commit =>
      rcases hwrite : s.write with _ | ⟨snap, _ | _⟩
      · simp [step, hwrite] at h
      · simp only [step, hwrite] at h
        cases h
        exact .committed hwrite
      · simp [step, hwrite] at h
  | finish =>
      rcases hwrite : s.write with _ | ⟨snap, _ | _⟩
      · simp [step, hwrite] at h
      · simp [step, hwrite] at h
      · simp only [step, hwrite] at h
        cases h
        exact .finished hwrite
  | fail =>
      cases hwrite : s.write with
      | none => simp [step, hwrite] at h
      | some w =>
          simp only [step, hwrite] at h
          cases h
          exact .failed hwrite
  | transact a =>
      simp only [step] at h
      split at h
      · rename_i hkeeps
        obtain ⟨db, hdb, rfl⟩ := Option.map_eq_some_iff.mp h
        exact .transacted (EvaluationDb.hint_transact hkeeps hdb)
      · cases h

/-! ## What a run keeps -/

theorem window_of_kept {p : InteractiveMetricsPublisher} {clock : WindowClock}
    (h : dropsAt p clock = false) : (p.trim clock).window = p.window := by
  simpa [dropsAt] using h

/-- How the publisher, the row and the write in progress know of each other. -/
structure Tracks (minSamples : Int) (s : HintState) : Prop where
  clean : s.aged = false → s.publisher.dirty = false →
    ∀ last, s.publisher.lastPublished = some last →
      Faithful s.publisher.publishMinDeltaMs minSamples last.hint s.publisher.window.report
  row : (∀ w, s.write = some w → w.committed = false) →
    ∀ last, s.publisher.lastPublished = some last → s.db.hint = last.hint
  committed : ∀ w, s.write = some w → w.committed = true → s.db.hint = w.snap.hint
  ended : s.ticked = true →
    s.publisher.dirty = false ∧ s.write = none ∧ ∃ last, s.publisher.lastPublished = some last
  taken : ∀ w, s.write = some w → w.snap.generation ≤ s.publisher.generation ∧
    (w.snap.generation = s.publisher.generation → s.aged = false →
      w.snap.wall = s.publisher.window.report)
  filled : s.aged = false → s.publisher.dirty = true → s.publisher.window.Holds →
    s.publisher.window.samples ≠ []
  vain : ¬ s.publisher.window.Holds → s.publisher.window.samples = [] ∧
    (∀ last, s.publisher.lastPublished = some last → last.wall.p95Ms = none) ∧
    ∀ w, s.write = some w → w.snap.wall.p95Ms = none
  bounded : s.publisher.window.samples.length ≤ s.publisher.window.maxSamples

variable {minSamples : Int}

theorem Tracks.of_fresh (h : s.Fresh) : Tracks minSamples s := by
  obtain ⟨hwindow, -, hdirty, hlast, hwrite, haged, hticked⟩ := h
  constructor <;> simp [hwindow, hdirty, hlast, hwrite, haged, hticked]

/-- A trimmed window that kept its samples reports what it did before. -/
theorem Tracks.trimmed (h : Tracks minSamples s) (clock : WindowClock) :
    Tracks minSamples
      { s with
        publisher := s.publisher.trim clock
        aged := s.aged || dropsAt s.publisher clock } := by
  have hkept : (s.aged || dropsAt s.publisher clock) = false →
      s.aged = false ∧ (s.publisher.trim clock).window = s.publisher.window := by
    intro hnone
    obtain ⟨haged, hdrops⟩ := Bool.or_eq_false_iff.mp hnone
    exact ⟨haged, window_of_kept hdrops⟩
  constructor
  · intro haged hdirty last hlast
    obtain ⟨hbefore, hwindow⟩ := hkept haged
    rw [show (s.publisher.trim clock).window.report = _ from
      congrArg RollingLatencyWindow.report hwindow]
    exact h.clean hbefore hdirty last hlast
  · exact h.row
  · exact h.committed
  · exact h.ended
  · intro w hw
    refine ⟨(h.taken w hw).1, fun hgeneration haged => ?_⟩
    obtain ⟨hbefore, hwindow⟩ := hkept haged
    rw [show (s.publisher.trim clock).window.report = _ from
      congrArg RollingLatencyWindow.report hwindow]
    exact (h.taken w hw).2 hgeneration hbefore
  · intro haged hdirty hholds
    obtain ⟨hbefore, hwindow⟩ := hkept haged
    have hsamples := h.filled hbefore hdirty hholds
    rw [← hwindow] at hsamples
    exact hsamples
  · intro hvoid
    obtain ⟨hsamples, hrest⟩ := h.vain hvoid
    exact ⟨RollingLatencyWindow.trim_nil hsamples, hrest⟩
  · exact RollingLatencyWindow.trim_length_le clock.wall

/-- The window with the new sample, before it is looked at. -/
theorem Tracks.recorded (h : Tracks minSamples s) (latencyMs : Rat) (poolWaitMs : Option Rat)
    (clock : WindowClock) :
    Tracks minSamples
      { s with
        publisher := s.publisher.recordSample latencyMs poolWaitMs clock
        aged := false
        ticked := false } := by
  constructor
  · intro haged hdirty
    cases hdirty
  · exact h.row
  · exact h.committed
  · intro hticked
    cases hticked
  · intro w hw
    have hbefore := (h.taken w hw).1
    refine ⟨Nat.le_succ_of_le hbefore, fun hgeneration => ?_⟩
    have hnow : w.snap.generation = s.publisher.generation + 1 := hgeneration
    omega
  · intro haged hdirty hholds
    have hbefore : s.publisher.window.Holds := hholds
    exact RollingLatencyWindow.record_ne_nil hbefore latencyMs clock.wall
  · intro hvoid
    have hbefore : ¬ s.publisher.window.Holds := hvoid
    obtain ⟨hsamples, hrest⟩ := h.vain hbefore
    exact ⟨RollingLatencyWindow.record_eq_nil hbefore hsamples latencyMs clock.wall, hrest⟩
  · exact RollingLatencyWindow.trim_length_le clock.wall

/-- The report a tick skips is near the one last published. -/
theorem Tracks.skipped_near (h : Tracks minSamples s) {clock : WindowClock}
    {last : PublisherSnapshot} (hdirty : s.publisher.dirty = true)
    (hlast : s.publisher.lastPublished = some last)
    (hsame : s.publisher.materialChange (s.publisher.snapshot clock) = false)
    (haged : (s.aged || dropsAt s.publisher clock) = false) :
    Near s.publisher.publishMinDeltaMs last.wall.p95Ms
      (s.publisher.trim clock).window.report.p95Ms := by
  refine InteractiveMetricsPublisher.near_of_not_material hlast hsame ?_
  intro hprev hnone
  obtain ⟨hbefore, hdrops⟩ := Bool.or_eq_false_iff.mp haged
  have hempty : (s.publisher.trim clock).window.samples = [] :=
    RollingLatencyWindow.report_p95Ms_eq_none_iff.mp hnone
  rw [window_of_kept hdrops] at hempty
  by_cases hholds : s.publisher.window.Holds
  · exact h.filled hbefore hdirty hholds hempty
  · exact hprev ((h.vain hholds).2.1 last hlast)

/-- A tick that ends at once, with nothing left to publish. -/
theorem Tracks.tickEnds (h : Tracks minSamples s) (hidle : s.write = none)
    (hclean : s.publisher.dirty = false) {last : PublisherSnapshot}
    (hlast : s.publisher.lastPublished = some last) :
    Tracks minSamples { s with write := none, ticked := true } := by
  have hopen : ∀ w, s.write = some w → w.committed = false := by
    intro w hw
    rw [hidle] at hw
    cases hw
  refine ⟨h.clean, fun _ => h.row hopen, ?_, ?_, ?_, h.filled, ?_, h.bounded⟩
  · intro w hw
    cases hw
  · exact fun _ => ⟨hclean, rfl, last, hlast⟩
  · intro w hw
    cases hw
  · intro hvoid
    obtain ⟨hsamples, hpublished, -⟩ := h.vain hvoid
    exact ⟨hsamples, hpublished, fun w hw => by cases hw⟩

/-- The flag is cleared beside a faithful hint. -/
theorem Tracks.cleared (h : Tracks minSamples s)
    (hfaithful : s.aged = false → ∀ last, s.publisher.lastPublished = some last →
      Faithful s.publisher.publishMinDeltaMs minSamples last.hint s.publisher.window.report) :
    Tracks minSamples
      { s with publisher := { s.publisher with dirty := false, samplesSinceSync := 0 } } := by
  refine ⟨fun haged _ => hfaithful haged, h.row, h.committed, ?_, h.taken, ?_, h.vain,
    h.bounded⟩
  · intro hticked
    exact ⟨rfl, (h.ended hticked).2⟩
  · intro _ hdirty
    cases hdirty

/-- A tick begins a write of what the window reports. -/
theorem Tracks.writes (h : Tracks minSamples s) {snap : PublisherSnapshot}
    (hidle : s.write = none)
    (hdue : ∀ last, s.publisher.lastPublished = some last → s.publisher.dirty = true)
    (hwall : snap.wall = s.publisher.window.report)
    (hgeneration : snap.generation = s.publisher.generation) :
    Tracks minSamples { s with write := some ⟨snap, false⟩ } := by
  have hopen : ∀ w, s.write = some w → w.committed = false := by
    intro w hw
    rw [hidle] at hw
    cases hw
  refine ⟨h.clean, fun _ => h.row hopen, ?_, ?_, ?_, h.filled, ?_, h.bounded⟩
  · intro w hw hcommitted
    cases hw
    cases hcommitted
  · intro hticked
    obtain ⟨hclean, -, last, hlast⟩ := h.ended hticked
    cases (hdue last hlast).symm.trans hclean
  · intro w hw
    cases hw
    exact ⟨le_of_eq hgeneration, fun _ _ => hwall⟩
  · intro hvoid
    obtain ⟨hsamples, hpublished, -⟩ := h.vain hvoid
    refine ⟨hsamples, hpublished, fun w hw => ?_⟩
    cases hw
    show snap.wall.p95Ms = none
    rw [hwall]
    exact RollingLatencyWindow.report_p95Ms_eq_none_iff.mpr hsamples

theorem Tracks.commits (h : Tracks minSamples s) {snap : PublisherSnapshot}
    (hwrite : s.write = some ⟨snap, false⟩) :
    Tracks minSamples { s with db := s.db.publish snap, write := some ⟨snap, true⟩ } := by
  refine ⟨h.clean, ?_, ?_, ?_, ?_, h.filled, ?_, h.bounded⟩
  · intro hopen
    cases hopen _ rfl
  · intro w hw _
    cases hw
    exact EvaluationDb.hint_publish s.db snap
  · intro hticked
    obtain ⟨-, hnone, -⟩ := h.ended hticked
    rw [hwrite] at hnone
    cases hnone
  · intro w hw
    have htaken := h.taken _ hwrite
    cases hw
    exact htaken
  · intro hvoid
    obtain ⟨hsamples, hpublished, hpending⟩ := h.vain hvoid
    have hnone := hpending _ hwrite
    refine ⟨hsamples, hpublished, fun w hw => ?_⟩
    cases hw
    exact hnone

/-- A write ends, and the window it returns to is the one it has written, or one like
it. -/
theorem Tracks.finishes (h : Tracks minSamples s) {snap : PublisherSnapshot}
    (hwrite : s.write = some ⟨snap, true⟩)
    (hok : s.aged = true ∨ snap.generation = s.publisher.generation ∨
      Faithful s.publisher.publishMinDeltaMs minSamples snap.hint s.publisher.window.report) :
    Tracks minSamples
      { s with
        publisher := s.publisher.finishPersist snap
        write := none
        ticked := decide (snap.generation = s.publisher.generation) } := by
  have hsnap : ∀ last, (s.publisher.finishPersist snap).lastPublished = some last →
      snap = last := fun last hlast => Option.some.inj hlast
  refine ⟨?_, ?_, ?_, ?_, ?_, ?_, ?_, h.bounded⟩
  · intro haged _ last hlast
    obtain rfl := hsnap last hlast
    rcases hok with hold | hgeneration | hfaithful
    · cases hold.symm.trans haged
    · have hwall : snap.wall = s.publisher.window.report :=
        (h.taken _ hwrite).2 hgeneration haged
      show Faithful _ _ snap.hint s.publisher.window.report
      rw [← hwall]
      exact ⟨near_self _ _, Iff.rfl⟩
    · exact hfaithful
  · intro _ last hlast
    obtain rfl := hsnap last hlast
    exact h.committed _ hwrite rfl
  · intro w hw
    cases hw
  · exact fun _ => ⟨rfl, rfl, snap, rfl⟩
  · intro w hw
    cases hw
  · intro _ hclean
    cases hclean
  · intro hvoid
    obtain ⟨hsamples, -, hpending⟩ := h.vain hvoid
    refine ⟨hsamples, fun last hlast => ?_, fun w hw => by cases hw⟩
    obtain rfl := hsnap last hlast
    exact hpending _ hwrite

theorem Tracks.step {a : HintAction} (h : Tracks minSamples s) (hok : keepsUp minSamples s a)
    (hstep : HintStep s a t) : Tracks minSamples t := by
  cases hstep with
  | recorded latencyMs poolWaitMs clock later =>
      have htrimmed := (h.recorded latencyMs poolWaitMs clock).trimmed later
      simpa using htrimmed
  | reported clock => exact h.trimmed clock
  | clean clock hidle hclean hlast => exact (h.trimmed clock).tickEnds hidle hclean hlast
  | @skipped last clock hidle hdirty hlast hsame =>
      refine ((h.trimmed clock).cleared ?_).tickEnds hidle rfl hlast
      intro haged other hother
      obtain rfl : last = other := Option.some.inj (hlast.symm.trans hother)
      refine ⟨h.skipped_near hdirty hlast hsame haged, ?_⟩
      rcases hok last hlast with hclean | hmaterial | hold | hside
      · cases hdirty.symm.trans hclean
      · cases hsame.symm.trans hmaterial
      · cases hold.symm.trans haged
      · exact hside
  | writes clock hidle hdue =>
      exact (h.trimmed clock).writes hidle (fun last hlast => (hdue last hlast).1) rfl rfl
  | committed hwrite => exact h.commits hwrite
  | finished hwrite => exact h.finishes hwrite (hok _ hwrite)
  | failed hwrite => exact hok.elim
  | @transacted a db hhint =>
      refine ⟨h.clean, ?_, ?_, h.ended, h.taken, h.filled, h.vain, h.bounded⟩
      · exact fun hopen last hlast => hhint.trans (h.row hopen last hlast)
      · exact fun w hw hcommitted => hhint.trans (h.committed w hw hcommitted)

theorem tracks_of_reach (h : interactiveHint.Reach (keepsUp minSamples) s) :
    Tracks minSamples s := by
  refine h.invariant ?_ ?_
  · intro s hfresh
    have hstart : s.Fresh := hfresh
    exact Tracks.of_fresh hstart
  · intro s a t hs hok hstep
    exact hs.step hok (step_spec hstep)

/-- A published hint that is not faithful, after recording has stopped and a further tick
has run, with every sample still in the window. -/
def Astray (minSamples : Int) (s : HintState) : Prop :=
  s.ticked = true ∧ s.aged = false ∧ s.publisher.lastPublished ≠ none ∧
    ¬ Faithful s.publisher.publishMinDeltaMs minSamples s.db.hint s.publisher.window.report

instance (minSamples : Int) (s : HintState) : Decidable (Astray minSamples s) :=
  inferInstanceAs (Decidable (_ ∧ _ ∧ _ ∧ _))

/-- With a clean publisher a tick returns at once, and no later tick mends the hint. -/
theorem astray_of_clean {last : PublisherSnapshot}
    (hidle : s.write = none) (hclean : s.publisher.dirty = false)
    (hlast : s.publisher.lastPublished = some last) (haged : s.aged = false)
    (hbounded : s.publisher.window.samples.length ≤ s.publisher.window.maxSamples)
    (hstray : ¬ Faithful s.publisher.publishMinDeltaMs minSamples s.db.hint
      s.publisher.window.report) :
    ∃ t, interactiveHint.Path writesSucceed s t ∧ Astray minSamples t := by
  -- a time at which the window still has all its samples
  obtain ⟨now, hnow⟩ := RollingLatencyWindow.exists_trim_eq_self hbounded
  have hwindow : (s.publisher.trim ⟨now, 0⟩).window = s.publisher.window := hnow
  have hkept : dropsAt s.publisher ⟨now, 0⟩ = false := by simpa [dropsAt] using hwindow
  have hdirty : (s.publisher.trim ⟨now, 0⟩).dirty = false := hclean
  have hsome : (s.publisher.trim ⟨now, 0⟩).lastPublished = some last := hlast
  have htick : s.step (.tick ⟨now, 0⟩) = some { s with
      publisher := s.publisher.trim ⟨now, 0⟩
      ticked := true } := by
    simp [step, hidle, InteractiveMetricsPublisher.startPersist, hdirty, hsome, haged, hkept]
  have hpath : interactiveHint.Path writesSucceed s { s with
      publisher := s.publisher.trim ⟨now, 0⟩
      ticked := true } := by
    exact System.Path.single (a := .tick ⟨now, 0⟩) trivial htick
  refine ⟨_, hpath, rfl, haged, ?_, ?_⟩
  · show s.publisher.lastPublished ≠ none
    simp [hlast]
  · show ¬ Faithful s.publisher.publishMinDeltaMs minSamples s.db.hint
      (s.publisher.trim ⟨now, 0⟩).window.report
    rw [hwindow]
    exact hstray

end HintState

open HintState

variable {minSamples : Int} {s t : HintState}

/-- **The published hint is faithful.**  If no tick skips a report that crossed the
worker's `min_samples`, and no write clears the flag of samples that matter, then after
recording has stopped, and a further tick has run with every sample still in the window,
a hint is published whose percentile is within `publish_min_delta_ms` of the window's
and whose count is on the same side of `min_samples`. -/
theorem hint_faithful (h : interactiveHint.Reach (keepsUp minSamples) s)
    (hticked : s.ticked = true) (haged : s.aged = false) :
    ∃ last, s.publisher.lastPublished = some last ∧ s.db.hint = last.hint ∧
      Faithful s.publisher.publishMinDeltaMs minSamples s.db.hint s.publisher.window.report := by
  have htracks := tracks_of_reach h
  obtain ⟨hclean, hidle, last, hlast⟩ := htracks.ended hticked
  have hhint : s.db.hint = last.hint := by
    refine htracks.row ?_ last hlast
    intro w hw
    rw [hidle] at hw
    cases hw
  refine ⟨last, hlast, hhint, ?_⟩
  rw [hhint]
  exact htracks.clean haged hclean last hlast

/-- A publisher with the default settings, before any request. -/
def freshHint : HintState where
  publisher := { window := {}, poolWaitWindow := {} }
  db := ⟨Table.empty, none⟩
  write := none
  aged := false
  ticked := false

theorem fresh_freshHint : freshHint.Fresh := by simp [freshHint, Fresh]

/-- Both clocks read the same. -/
def WindowClock.at (now : Rat) : WindowClock := ⟨now, now⟩

/-- `count` requests of one latency, at one time. -/
def requests (count : Nat) (latencyMs now : Rat) : List HintAction :=
  List.replicate count (.recordWall latencyMs none (.at now) (.at now))

/-- Eight requests are published, and one like them during the write. -/
theorem hint_faithful_default : ∃ s : HintState, s.publisher.publishWrites = 1 ∧
    ∃ last, s.publisher.lastPublished = some last ∧ s.db.hint = last.hint ∧
      Faithful s.publisher.publishMinDeltaMs 8 s.db.hint s.publisher.window.report := by
  let run : List HintAction := requests 8 100 0 ++
    [.tick (.at (1 / 4)), .commit] ++ requests 1 110 (1 / 3) ++
    [.finish, .tick (.at (1 / 2))]
  obtain ⟨s, hreach, htest⟩ : ∃ s, interactiveHint.Reach (keepsUp 8) s ∧
      decide (s.publisher.publishWrites = 1 ∧ s.ticked = true ∧ s.aged = false) = true :=
    System.reach_of_test freshHint run _ fresh_freshHint (by decide +kernel)
  obtain ⟨hwrites, hticked, haged⟩ := of_decide_eq_true htest
  exact ⟨s, hwrites, hint_faithful hreach hticked haged⟩

/-- **Hints left behind.**  One request is published, then seven like it are skipped: the
worker keeps reading of one sample where there are eight.  Eight quick requests are
published while eight slow ones end: the flag of these is cleared with that of the quick
ones, and no tick publishes them. -/
theorem hints_left_behind :
    (∃ s, interactiveHint.Reach writesSucceed s ∧ Astray 8 s ∧
      s.publisher.window.report.p95Ms = some 100) ∧
    ∃ s, interactiveHint.Reach writesSucceed s ∧ Astray 8 s ∧
      s.publisher.window.report.p95Ms = some 900 := by
  let skips : List HintAction := requests 1 100 0 ++ [.tick (.at (1 / 4)), .commit, .finish] ++
    requests 7 100 (1 / 2) ++ [.tick (.at (3 / 4))]
  let clears : List HintAction := requests 8 100 0 ++ [.tick (.at (1 / 4)), .commit] ++
    requests 8 900 (1 / 3) ++ [.finish, .tick (.at (1 / 2))]
  obtain ⟨s, hs, hskipped⟩ : ∃ s, interactiveHint.Reach writesSucceed s ∧
      decide (Astray 8 s ∧ s.publisher.window.report.p95Ms = some 100) = true :=
    System.reach_of_test freshHint skips _ fresh_freshHint (by decide +kernel)
  obtain ⟨t, ht, hcleared⟩ : ∃ t, interactiveHint.Reach writesSucceed t ∧
      decide (Astray 8 t ∧ t.publisher.window.report.p95Ms = some 900) = true :=
    System.reach_of_test freshHint clears _ fresh_freshHint (by decide +kernel)
  exact ⟨⟨s, hs, of_decide_eq_true hskipped⟩, t, ht, of_decide_eq_true hcleared⟩

/-- **Nothing less will do.**  A step that breaks the condition leaves the published hint
astray, at once or with the next tick. -/
theorem stray_of_breach {a : HintAction} (h : interactiveHint.Reach (keepsUp minSamples) s)
    (hsucceeds : writesSucceed s a) (hbreach : ¬ keepsUp minSamples s a)
    (hstep : s.step a = some t) :
    ∃ u, interactiveHint.Path writesSucceed t u ∧ Astray minSamples u := by
  have htracks := tracks_of_reach h
  cases step_spec hstep with
  | recorded latencyMs poolWaitMs clock later => exact absurd trivial hbreach
  | reported clock => exact absurd trivial hbreach
  | committed hwrite => exact absurd trivial hbreach
  | transacted hhint => exact absurd trivial hbreach
  | failed hwrite => exact hsucceeds.elim
  | clean clock hidle hclean hlast => exact absurd (fun _ _ => Or.inl hclean) hbreach
  | writes clock hidle hdue =>
      exact absurd (fun last hlast => Or.inr (Or.inl (hdue last hlast).2)) hbreach
  | @skipped last clock hidle hdirty hlast hsame =>
      have hkept : (s.aged || dropsAt s.publisher clock) = false := by
        by_contra haged
        refine hbreach (fun _ _ => Or.inr (Or.inr (Or.inl ?_)))
        exact (Bool.not_eq_false _).mp haged
      have hhint : s.db.hint = last.hint :=
        htracks.row (fun w hw => by rw [hidle] at hw; cases hw) last hlast
      have hpublished : s.publisher.lastPublished ≠ none := by simp [hlast]
      refine ⟨_, System.Path.refl _, rfl, hkept, hpublished, ?_⟩
      show ¬ Faithful _ minSamples s.db.hint _
      rw [hhint]
      intro hfaithful
      refine hbreach (fun other hother => Or.inr (Or.inr (Or.inr ?_)))
      obtain rfl : last = other := Option.some.inj (hlast.symm.trans hother)
      exact hfaithful.2
  | @finished snap hwrite =>
      have haged : s.aged = false := by
        by_contra haged
        exact hbreach (fun _ _ => Or.inl ((Bool.not_eq_false _).mp haged))
      have hhint : s.db.hint = snap.hint := htracks.committed _ hwrite rfl
      refine astray_of_clean rfl rfl rfl haged htracks.bounded ?_
      show ¬ Faithful _ minSamples s.db.hint _
      rw [hhint]
      intro hfaithful
      refine hbreach (fun w hw => Or.inr (Or.inr ?_))
      obtain rfl : w = ⟨snap, true⟩ := Option.some.inj (hw.symm.trans hwrite)
      exact hfaithful

end ChallengeForge
