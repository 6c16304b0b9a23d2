import ChallengeForge.ClaimTickets
import ChallengeForge.EvaluationQueue

/-!
# A fleet of evaluation workers

Worker processes around one evaluation store.  A process claims a row, works on
it outside any transaction for as long as it likes, and then writes its result,
unless it dies first; meanwhile the row may be recovered as stale and claimed
again.  Worker ids are arbitrary: `--worker-id` lets a restarted process carry
the id of a predecessor that still hangs.

A claim is identified by the evaluation and the `attempt_count` it returned.
Forgetting everything but the attempt counts, the owners and what each process
works on turns the fleet into the ticket system of `ClaimTickets`
(`tickets_simulation`), so that its invariant applies.

* `late_write_iff` — the guard `(id, status, worker_id)` shields the row from a
  superseded attempt exactly when the row does not run under the writer's id by
  another process's claim;
* `not_impersonated_of_injective` — distinct worker ids rule that out;
* `late_write_lands` — a reused id does not.
-/

namespace ChallengeForge

open Keyed Labelled Claims

/-- The store, the claim each process works on, and who made the last claim of
each evaluation. -/
structure Fleet (Process : Type) where
  db : EvaluationDb
  held : Process → Option (UUID × Nat)
  claimant : UUID → Option Process

/-- What can happen to a fleet. -/
inductive FleetAction (Process : Type)
  | createQueued (id submissionId : UUID) (workloadClass : WorkloadClass)
      (evaluationMode : EvaluationMode) (deadlineAt : Option Timestamp)
      (currentStage : Nat) (now : Timestamp)
  | claimNext (p : Process) (args : ClaimArgs) (now : Timestamp)
  | beginExecutionAttempt (p : Process) (attempt : ExecutionAttempt)
  | complete (p : Process) (now : Timestamp) (c : Completion)
  | die (p : Process)
  | recoverStaleRunning (staleBefore : Timestamp) (maxAttempts : Int) (now : Timestamp)
      (os : UUID → OsView)

variable {Process : Type}

section Steps

variable [DecidableEq Process] (workerIdOf : Process → String)

namespace Fleet

/-- A step of the fleet.  A process claims only when it works on nothing, under
its own worker id; its write ends its work whether or not the guard matched. -/
def step (s : Fleet Process) : FleetAction Process → Option (Fleet Process)
  | .createQueued id submissionId workload mode deadline stage now =>
      (s.db.createQueued id submissionId workload mode deadline stage now).map
        (fun db => { s with db := db })
  | .claimNext p args now =>
      match s.held p with
      | some _ => none
      | none =>
        match s.db.claimTransaction { args with workerId := workerIdOf p } now with
        | none => some s
        | some (row, db) =>
          some
            { db := db
              held := Function.update s.held p (some (row.id, row.attemptCount))
              claimant := Function.update s.claimant row.id (some p) }
  | .beginExecutionAttempt p attempt =>
      (s.held p).map (fun claim =>
        { s with db := s.db.beginExecutionAttempt claim.1 (workerIdOf p) attempt })
  | .complete p now c =>
      (s.held p).map (fun claim =>
        { s with
          db := s.db.complete claim.1 (workerIdOf p) now c
          held := Function.update s.held p none })
  | .die p => some { s with held := Function.update s.held p none }
  | .recoverStaleRunning staleBefore maxAttempts now os =>
      some { s with db := s.db.recoverStaleRunning staleBefore maxAttempts now os }

/-- Nothing claimed yet, and nobody at work. -/
def Idle (s : Fleet Process) : Prop :=
  s.db.evaluations.rows = [] ∧ ∀ p, s.held p = none

end Fleet

/-- The fleet as a labelled system. -/
def evaluationFleet : System (Fleet Process) (FleetAction Process) where
  start := Fleet.Idle
  step := Fleet.step workerIdOf

end Steps

namespace Fleet

/-- Attempt `n` of evaluation `e` is the current one. -/
def Current (s : Fleet Process) (e : UUID) (n : Nat) : Prop :=
  ∃ row ∈ s.db.evaluations, row.id = e ∧ row.status = .running ∧ row.attemptCount = n

/-- An attempt that the row of its evaluation does not count is superseded. -/
theorem not_current_of_mem {s : Fleet Process} {row : EvaluationRow} {e : UUID} {n : Nat}
    (hrow : row ∈ s.db.evaluations) (hid : row.id = e) (hcount : row.attemptCount ≠ n) :
    ¬ s.Current e n := by
  intro hcurrent
  obtain ⟨row', hrow', hid', -, hcount'⟩ := hcurrent
  obtain rfl : row' = row := Table.eq_of_key_eq hrow' hrow (hid'.trans hid.symm)
  exact hcount hcount'

/-- What is held after `p` lets go was held before, by somebody else. -/
theorem held_of_release [DecidableEq Process] {s : Fleet Process} {p q : Process}
    {claim : UUID × Nat} (hq : Function.update s.held p none q = some claim) :
    q ≠ p ∧ s.held q = some claim := by
  by_cases hqp : q = p
  · rw [hqp, Function.update_self] at hq
    cases hq
  · rw [Function.update_of_ne hqp] at hq
    exact ⟨hqp, hq⟩

/-- A claim of an idle process finds nothing, or starts the row it decided on. -/
theorem claim_cases [DecidableEq Process] {workerIdOf : Process → String} {s t : Fleet Process}
    {p : Process} {args : ClaimArgs} {now : Timestamp}
    (hstep : s.step workerIdOf (.claimNext p args now) = some t) :
    s.held p = none ∧ (t = s ∨ ∃ row state,
      s.db.ClaimDecision { args with workerId := workerIdOf p } row state ∧
      t = { db := (s.db.setScheduler state).start row (workerIdOf p) now
            held := Function.update s.held p (some (row.id, row.attemptCount + 1))
            claimant := Function.update s.claimant row.id (some p) }) := by
  simp only [step] at hstep
  split at hstep
  · cases hstep
  rename_i hidle
  refine ⟨hidle, ?_⟩
  split at hstep
  · cases hstep
    exact Or.inl rfl
  · rename_i hclaim
    cases hstep
    obtain ⟨row, state, hdec, rfl, rfl⟩ := EvaluationDb.claimTransaction_eq_some_iff.mp hclaim
    exact Or.inr ⟨row, state, hdec, rfl⟩

/-- When the row of `e` runs under the worker id of `p`, that is by a claim of
`p` itself. -/
def NotImpersonated (workerIdOf : Process → String) (s : Fleet Process) (p : Process)
    (e : UUID) : Prop :=
  ∀ row ∈ s.db.evaluations, row.id = e → row.status = .running →
    row.workerId = some (workerIdOf p) → s.claimant e = some p

/-! ## The fleet as a ticket system -/

/-- The tickets behind a fleet: attempt counts, and owners of RUNNING rows. -/
def tickets (s : Fleet Process) : Tickets UUID Process where
  issued e :=
    match s.db.get e with
    | some row => row.attemptCount
    | none => 0
  owner e :=
    match s.db.get e with
    | some row => if row.status = .running then s.claimant e else none
    | none => none
  held := s.held

variable {s : Fleet Process}

theorem issued_of_mem {row : EvaluationRow} (hrow : row ∈ s.db.evaluations) :
    s.tickets.issued row.id = row.attemptCount := by
  simp [tickets, EvaluationDb.get, Table.find?_of_mem hrow]

theorem owner_of_running {row : EvaluationRow} (hrow : row ∈ s.db.evaluations)
    (hrunning : row.status = .running) : s.tickets.owner row.id = s.claimant row.id := by
  simp [tickets, EvaluationDb.get, Table.find?_of_mem hrow, hrunning]

theorem owner_of_not_running {row : EvaluationRow} (hrow : row ∈ s.db.evaluations)
    (hstatus : row.status ≠ .running) : s.tickets.owner row.id = none := by
  simp [tickets, EvaluationDb.get, Table.find?_of_mem hrow, hstatus]

/-- A new row is a job without tickets, which is what it was before. -/
theorem tickets_insert {row : EvaluationRow} {evaluations : Table EvaluationRow (·.id)}
    (hqueued : row.status = .queued) (hfresh : row.attemptCount = 0)
    (hinsert : s.db.evaluations.insert row = some evaluations) :
    ({ s with db := { s.db with evaluations := evaluations } } : Fleet Process).tickets =
      s.tickets := by
  have hnone : s.db.evaluations.find? row.id = none :=
    (Table.insert_eq_some_iff.mp hinsert).1
  have hget : ∀ e, evaluations.find? e =
      if row.id = e then some row else s.db.evaluations.find? e :=
    Table.find?_of_insert hinsert
  simp only [tickets, EvaluationDb.get, hget, Tickets.mk.injEq, and_true]
  constructor
  · funext e
    by_cases hid : row.id = e
    · subst hid
      simp [hnone, hfresh]
    · simp [hid]
  · funext e
    by_cases hid : row.id = e
    · subst hid
      simp [hnone, hqueued]
    · simp [hid]

/-- Rewriting RUNNING rows frees those that stop running. -/
theorem tickets_rewrite [DecidableEq Process] {p : EvaluationRow → Bool}
    {f : EvaluationRow → EvaluationRow}
    (hf : RunningRewrite p f) {db : EvaluationDb}
    (hrows : db.evaluations = s.db.evaluations.update p f hf.id) :
    (Tickets.system UUID Process).Path always s.tickets
      ({ s with db := db } : Fleet Process).tickets := by
  let js : UUID → Bool := fun e =>
    (s.db.get e).any (fun row => p row && decide ((f row).status ≠ .running))
  suffices hfree : ({ s with db := db } : Fleet Process).tickets = s.tickets.free js by
    rw [hfree]
    exact System.Path.single (a := .free js) trivial rfl
  have hget : ∀ e, db.evaluations.find? e =
      (s.db.evaluations.find? e).map (fun row => if p row then f row else row) := by
    intro e
    rw [hrows, Table.find?_update]
  simp only [tickets, Tickets.free, EvaluationDb.get, hget, Tickets.mk.injEq, and_true, js]
  constructor
  · funext e
    cases s.db.evaluations.find? e with
    | none => rfl
    | some row =>
        by_cases hp : p row = true
        · simp [hp, hf.attemptCount]
        · simp [hp]
  · funext e
    rcases Option.eq_none_or_eq_some (s.db.evaluations.find? e) with hfound | ⟨row, hfound⟩
    · simp [hfound]
    · by_cases hp : p row = true
      · have hrunning := hf.running row hp
        rcases hf.settled row with hsettled | ⟨hsame, -, -⟩
        · simp [hfound, hp, hsettled]
        · simp [hfound, hp, hsame, hrunning]
      · simp [hfound, hp]

/-- A claim takes the next ticket of a job nobody owns. -/
theorem tickets_claim [DecidableEq Process] {args : ClaimArgs} {row : EvaluationRow}
    {state : EvaluationSchedulerStateRow} (p : Process) (workerId : String) (now : Timestamp)
    (hdec : s.db.ClaimDecision args row state) :
    s.tickets.owner row.id = none ∧
    ({ db := (s.db.setScheduler state).start row workerId now
       held := Function.update s.held p (some (row.id, row.attemptCount + 1))
       claimant := Function.update s.claimant row.id (some p) } : Fleet Process).tickets =
      s.tickets.take p row.id := by
  obtain ⟨hrow, hqueued⟩ := hdec.queued
  have hfound : s.db.get row.id = some row := Table.find?_of_mem hrow
  have hget : ∀ e, ((s.db.setScheduler state).start row workerId now).get e = (s.db.get e).map
      (fun r => if r.id = row.id then r.startRunning workerId now else r) := by
    intro e
    rw [EvaluationDb.get_start]
    rfl
  have hother : ∀ e r, e ≠ row.id → s.db.get e = some r → r.id ≠ row.id := by
    intro e r hid hr
    rw [Table.key_of_find? hr]
    exact hid
  refine ⟨owner_of_not_running hrow (by simp [hqueued]), ?_⟩
  refine Tickets.ext ?_ ?_ ?_
  · funext e
    by_cases hid : e = row.id
    · subst hid
      simp [tickets, Tickets.take, hget, hfound, EvaluationRow.startRunning]
    · rcases Option.eq_none_or_eq_some (s.db.get e) with hnone | ⟨r, hr⟩
      · simp [tickets, Tickets.take, hid, hget, hnone]
      · simp [tickets, Tickets.take, hid, hget, hr, hother e r hid hr]
  · funext e
    by_cases hid : e = row.id
    · subst hid
      simp [tickets, Tickets.take, hget, hfound, EvaluationRow.startRunning]
    · rcases Option.eq_none_or_eq_some (s.db.get e) with hnone | ⟨r, hr⟩
      · simp [tickets, Tickets.take, hid, hget, hnone]
      · simp [tickets, Tickets.take, hid, hget, hr, hother e r hid hr]
  · simp [tickets, Tickets.take, hfound]

/-- **Ticket simulation.**  Every fleet step is a run of the ticket system. -/
theorem tickets_simulation [DecidableEq Process] (workerIdOf : Process → String)
    {t : Fleet Process} {a : FleetAction Process} (hstep : s.step workerIdOf a = some t) :
    (Tickets.system UUID Process).Path always s.tickets t.tickets := by
  cases a with
  | createQueued id submissionId workload mode deadline stage now =>
      obtain ⟨db, hcreate, rfl⟩ := Option.map_eq_some_iff.mp hstep
      obtain ⟨row, evaluations, hqueued, hfresh, hinsert, rfl⟩ :=
        EvaluationDb.createQueued_eq_some hcreate
      rw [tickets_insert hqueued hfresh hinsert]
      exact System.Path.refl _
  | claimNext p args now =>
      obtain ⟨hidle, rfl | ⟨row, state, hdec, rfl⟩⟩ := claim_cases hstep
      · exact System.Path.refl _
      · obtain ⟨howner, htake⟩ := tickets_claim p (workerIdOf p) now hdec
        rw [htake]
        refine System.Path.single (a := .take p row.id) trivial ?_
        exact if_pos ⟨hidle, howner⟩
  | beginExecutionAttempt p attempt =>
      obtain ⟨claim, hheld, rfl⟩ := Option.map_eq_some_iff.mp hstep
      exact tickets_rewrite (EvaluationDb.recordAttempt_rewrite claim.1 (workerIdOf p) attempt)
        rfl
  | complete p now c =>
      obtain ⟨claim, hheld, rfl⟩ := Option.map_eq_some_iff.mp hstep
      obtain ⟨f, hf, -, heq⟩ := s.db.complete_eq claim.1 (workerIdOf p) now c
      -- the process lets go of its claim, then the guarded row stops running
      let idle : Fleet Process := { s with held := Function.update s.held p none }
      have hdrop : (Tickets.system UUID Process).Path always s.tickets idle.tickets :=
        System.Path.single (a := .drop p) trivial rfl
      refine hdrop.trans ?_
      rw [heq]
      exact tickets_rewrite (s := idle) (hf.ownedRewrite claim.1 (workerIdOf p)) rfl
  | die p =>
      cases hstep
      exact System.Path.single (a := .drop p) trivial rfl
  | recoverStaleRunning staleBefore maxAttempts now os =>
      cases hstep
      exact tickets_rewrite (EvaluationDb.recover_rewrite staleBefore maxAttempts now os) rfl

/-! ## Claims and their makers -/

/-- Every RUNNING row carries the worker id of the process that claimed it. -/
def Claimed (workerIdOf : Process → String) (s : Fleet Process) : Prop :=
  ∀ row ∈ s.db.evaluations, row.status = .running →
    ∃ q, s.claimant row.id = some q ∧ row.workerId = some (workerIdOf q)

theorem Claimed.rewrite {workerIdOf : Process → String} (h : s.Claimed workerIdOf)
    {p : EvaluationRow → Bool} {f : EvaluationRow → EvaluationRow}
    (hf : RunningRewrite p f) {t : Fleet Process}
    (hrows : t.db.evaluations = s.db.evaluations.update p f hf.id)
    (hclaimant : t.claimant = s.claimant) : t.Claimed workerIdOf := by
  intro row' hrow' hrunning
  rw [hrows] at hrow'
  obtain ⟨row, hrow, rfl⟩ := (Table.mem_update hf.id).mp hrow'
  rw [hclaimant]
  by_cases hp : p row = true
  · simp only [hp, if_true] at hrunning ⊢
    obtain ⟨q, hq, hworker⟩ := h row hrow (hf.running row hp)
    rcases hf.settled row with hsettled | ⟨-, -, hsame⟩
    · exact absurd hrunning hsettled
    · exact ⟨q, by rw [hf.id]; exact hq, by rw [hsame]; exact hworker⟩
  · simp only [hp] at hrunning ⊢
    exact h row hrow hrunning

theorem Claimed.step [DecidableEq Process] {workerIdOf : Process → String}
    (h : s.Claimed workerIdOf) {t : Fleet Process} {a : FleetAction Process}
    (hstep : s.step workerIdOf a = some t) : t.Claimed workerIdOf := by
  cases a with
  | createQueued id submissionId workload mode deadline stage now =>
      obtain ⟨db, hcreate, rfl⟩ := Option.map_eq_some_iff.mp hstep
      obtain ⟨new, evaluations, hqueued, -, hinsert, rfl⟩ :=
        EvaluationDb.createQueued_eq_some hcreate
      intro row hrow hrunning
      rcases (Table.mem_of_insert hinsert).mp hrow with hold | rfl
      · exact h row hold hrunning
      · rw [hqueued] at hrunning
        cases hrunning
  | claimNext p args now =>
      obtain ⟨-, rfl | ⟨row, state, hdec, rfl⟩⟩ := claim_cases hstep
      · exact h
      intro row' hrow' hrunning
      obtain ⟨old, hold, rfl⟩ :=
        (Table.mem_update (EvaluationRow.startRunning_id (workerIdOf p) now)).mp hrow'
      by_cases hid : old.id = row.id
      · exact ⟨p, by simp [hid], by simp [hid, EvaluationRow.startRunning]⟩
      · simp only [hid, decide_false] at hrunning ⊢
        obtain ⟨q, hq, hworker⟩ := h old hold (by simpa using hrunning)
        exact ⟨q, by simpa [hid] using hq, by simpa using hworker⟩
  | beginExecutionAttempt p attempt =>
      obtain ⟨claim, hheld, rfl⟩ := Option.map_eq_some_iff.mp hstep
      exact h.rewrite (EvaluationDb.recordAttempt_rewrite claim.1 (workerIdOf p) attempt)
        rfl rfl
  | complete p now c =>
      obtain ⟨claim, hheld, rfl⟩ := Option.map_eq_some_iff.mp hstep
      obtain ⟨f, hf, -, heq⟩ := s.db.complete_eq claim.1 (workerIdOf p) now c
      exact h.rewrite (hf.ownedRewrite claim.1 (workerIdOf p))
        (congrArg EvaluationDb.evaluations heq) rfl
  | die p =>
      cases hstep
      exact h
  | recoverStaleRunning staleBefore maxAttempts now os =>
      cases hstep
      exact h.rewrite (EvaluationDb.recover_rewrite staleBefore maxAttempts now os) rfl rfl

/-- A guarded write that finds its row takes it out of RUNNING. -/
theorem complete_ne_of_owned {row : EvaluationRow} (hrow : row ∈ s.db.evaluations)
    (hrunning : row.status = .running) {workerId : String}
    (hworker : row.workerId = some workerId) (now : Timestamp) (c : Completion) :
    s.db.complete row.id workerId now c ≠ s.db := by
  obtain ⟨f, hf, -, heq⟩ := s.db.complete_eq row.id workerId now c
  intro hsame
  have howned : row.ownedBy row.id workerId = true :=
    EvaluationRow.ownedBy_iff.mpr ⟨rfl, hrunning, hworker⟩
  have hafter : f row ∈ s.db.evaluations := by
    rw [← hsame, heq]
    exact (Table.mem_update hf.id).mpr ⟨row, hrow, by rw [if_pos howned]⟩
  have hfix : f row = row := Table.eq_of_key_eq hafter hrow (hf.id row)
  exact hf.status row (by rw [hfix]; exact hrunning)

section Runs

variable [DecidableEq Process] {workerIdOf : Process → String}

theorem claimed_of_reach (h : (evaluationFleet workerIdOf).Reach always s) :
    s.Claimed workerIdOf := by
  refine h.invariant ?_ (fun s a t hs _ hstep => hs.step hstep)
  intro s hidle row hrow
  exact absurd hrow (by simp [Table.mem_iff, hidle.1])

/-- **Ticket refinement.**  In every reachable fleet the tickets are sound. -/
theorem sound_of_reach (h : (evaluationFleet workerIdOf).Reach always s) :
    s.tickets.Sound := by
  apply Tickets.sound_of_reach
  refine h.simulate (f := tickets) ?_
    (fun s a t _ _ hstep => tickets_simulation workerIdOf hstep)
  intro s hidle
  refine ⟨fun e => ?_, hidle.2⟩
  have hnone : s.db.get e = none := by
    simp [EvaluationDb.get, Table.find?_eq_none_iff, Table.mem_iff, hidle.1]
  simp [tickets, hnone]

/-- Distinct worker ids leave nobody to impersonate. -/
theorem not_impersonated_of_injective (hinj : Function.Injective workerIdOf)
    (h : (evaluationFleet workerIdOf).Reach always s) (p : Process) (e : UUID) :
    s.NotImpersonated workerIdOf p e := by
  intro row hrow hid hrunning hworker
  subst hid
  obtain ⟨q, hq, hworker'⟩ := claimed_of_reach h row hrow hrunning
  obtain rfl : p = q := hinj (Option.some.inj (hworker.symm.trans hworker'))
  exact hq

/-- **Fencing.**  A process writes the result of attempt `n` of evaluation `e`.
That a superseded attempt changes nothing is guaranteed exactly when the row
does not run under the writer's worker id by another process's claim. -/
theorem late_write_iff (h : (evaluationFleet workerIdOf).Reach always s) {p : Process}
    {e : UUID} {n : Nat} (hheld : s.held p = some (e, n)) {now : Timestamp}
    {c : Completion} {t : Fleet Process} (hstep : s.step workerIdOf (.complete p now c) = some t) :
    (¬ s.Current e n → t.db = s.db) ↔ s.NotImpersonated workerIdOf p e := by
  have hsound := sound_of_reach h
  have hheld' : s.tickets.held p = some (e, n) := hheld
  obtain rfl : { s with db := s.db.complete e (workerIdOf p) now c
                        held := Function.update s.held p none } = t := by
    simpa [Fleet.step, hheld] using hstep
  constructor
  · intro hlate
    by_contra himp
    simp only [NotImpersonated, not_forall] at himp
    obtain ⟨row, hrow, rfl, hrunning, hworker, hother⟩ := himp
    obtain ⟨q, hq, -⟩ := claimed_of_reach h row hrow hrunning
    have howner : s.tickets.owner row.id = some q := by
      rw [owner_of_running hrow hrunning, hq]
    have hstale : ¬ s.Current row.id n := by
      intro hcurrent
      obtain ⟨row', hrow', hid, -, hcount⟩ := hcurrent
      obtain rfl : row' = row := Table.eq_of_key_eq hrow' hrow hid
      have hnow : n = s.tickets.issued row'.id := by rw [issued_of_mem hrow, hcount]
      have hqp : q = p := (hsound.current_iff_owner howner hheld').mp hnow
      exact hother (by rw [hq, hqp])
    exact complete_ne_of_owned hrow hrunning hworker now c (hlate hstale)
  · intro himp hstale
    obtain ⟨f, hf, -, heq⟩ := s.db.complete_eq e (workerIdOf p) now c
    dsimp only
    rw [heq]
    apply EvaluationDb.updateOwned_eq_self
    by_contra howns
    obtain ⟨row, hrow, rfl, hrunning, hworker⟩ :=
      EvaluationDb.owns_iff.mp (by simpa using howns)
    have hclaimant := himp row hrow rfl hrunning hworker
    have howner : s.tickets.owner row.id = some p := by
      rw [owner_of_running hrow hrunning, hclaimant]
    have hnow := hsound.owner_current howner hheld'
    exact hstale ⟨row, hrow, rfl, hrunning, by rw [hnow, issued_of_mem hrow]⟩

end Runs

/-- A first process claims evaluation 1 and hangs; the row is recovered, and a
restarted process claims it again. -/
def reusedIdRun : List (FleetAction Bool) :=
  [.createQueued 1 1 .light .legacy none 0 1,
   .claimNext true (laptopClaim "") 2,
   .recoverStaleRunning 10 3 40 (fun _ => idleOs),
   .claimNext false (laptopClaim "") 41]

/-- **A late write lands.**  The two processes share their worker id, and the
hung one's result of attempt 1 is written over the running attempt 2. -/
theorem late_write_lands :
    ∃ s t : Fleet Bool, (evaluationFleet (fun _ => "worker-a")).Reach always s ∧
      s.held true = some (1, 1) ∧ ¬ s.Current 1 1 ∧
      s.step (fun _ => "worker-a") (.complete true 50 (.succeeded ⟨7, by decide⟩ [])) =
        some t ∧
      t.db ≠ s.db := by
  obtain ⟨s, hreach, htest⟩ : ∃ s : Fleet Bool,
      (evaluationFleet (fun _ => "worker-a")).Reach always s ∧
      decide (s.held true = some (1, 1) ∧
        ∃ row ∈ s.db.evaluations.rows, row.id = 1 ∧ row.status = .running ∧
          row.workerId = some "worker-a" ∧ row.attemptCount = 2) = true :=
    System.reach_of_test ⟨emptyEvaluationDb, fun _ => none, fun _ => none⟩ reusedIdRun _
      ⟨rfl, fun _ => rfl⟩ (by decide)
  obtain ⟨hheld, row, hrow, hid, hrunning, hworker, hcount⟩ := of_decide_eq_true htest
  refine ⟨s, _, hreach, hheld, ?_, by simp only [step, hheld, Option.map_some]; rfl, ?_⟩
  · exact not_current_of_mem hrow hid (by omega)
  · have hne := complete_ne_of_owned hrow hrunning hworker 50 (.succeeded ⟨7, by decide⟩ [])
    rw [hid] at hne
    exact hne

/-- Two processes with distinct worker ids. -/
def twoWorkers : Bool → String
  | true => "worker-a"
  | false => "worker-b"

/-- `late_write_iff` where the ids differ: the late write changes nothing. -/
theorem late_write_iff_distinct :
    ∃ s t : Fleet Bool, (evaluationFleet twoWorkers).Reach always s ∧
      ¬ s.Current 1 1 ∧
      s.step twoWorkers (.complete true 50 (.succeeded ⟨7, by decide⟩ [])) =
        some t ∧
      t.db = s.db := by
  obtain ⟨s, hreach, htest⟩ : ∃ s : Fleet Bool,
      (evaluationFleet twoWorkers).Reach always s ∧
      decide (s.held true = some (1, 1) ∧ s.claimant 1 = some false ∧
        ∃ row ∈ s.db.evaluations.rows, row.id = 1 ∧ row.status = .running ∧
          row.workerId = some "worker-b" ∧ row.attemptCount = 2) = true :=
    System.reach_of_test ⟨emptyEvaluationDb, fun _ => none, fun _ => none⟩ reusedIdRun _
      ⟨rfl, fun _ => rfl⟩ (by decide)
  obtain ⟨hheld, hclaimant, row, hrow, hid, hrunning, hworker, hcount⟩ :=
    of_decide_eq_true htest
  have hstale : ¬ s.Current 1 1 := not_current_of_mem hrow hid (by omega)
  have himp : s.NotImpersonated twoWorkers true 1 := by
    intro row' hrow' hid' _ hworker'
    obtain rfl : row' = row := Table.eq_of_key_eq hrow' hrow (hid'.trans hid.symm)
    rw [hworker] at hworker'
    exact absurd hworker' (by decide)
  obtain ⟨t, hstep⟩ : ∃ t, s.step twoWorkers
      (.complete true 50 (.succeeded ⟨7, by decide⟩ [])) = some t :=
    ⟨_, by simp only [step, hheld, Option.map_some]; rfl⟩
  exact ⟨s, t, hreach, hstale, hstep, (late_write_iff hreach hheld hstep).mpr himp hstale⟩

end Fleet

end ChallengeForge
