import ChallengeForge.EvaluationLifecycle
import ChallengeForge.QueuePosition
import ChallengeForge.ReadAccess

/-!
# What a participant is shown of an evaluation

`EvaluationService.get_participant_view` looks the evaluation of a submission up,
checks that the actor may see it, and shows a product-facing state of it: no worker,
no lock, no attempt, no stored reason.

* `ViewCoherent` — in every store the queue reaches, each view shows exactly what
  belongs to its status (`view_coherent`): a place while QUEUED, a start once it has
  started, a completion once it is over, a score on success and one of three fixed
  texts on failure;
* `settled_view_kept` — the view of a finished evaluation never changes again;
* `view_hides` — two stores whose rows agree on `PublicEvaluation` show the same.
-/

namespace ChallengeForge

open Keyed Labelled

/-- Product-facing evaluation state: no worker or lock internals. -/
structure ParticipantEvaluationView where
  id : UUID
  submissionId : UUID
  status : EvaluationStatus
  estimatedJobsAhead : Option Nat
  estimatedWaitSeconds : Option Rat
  estimateIsApproximate : Bool
  score : Option Score
  failureMessage : Option String
  createdAt : Timestamp
  startedAt : Option Timestamp
  completedAt : Option Timestamp
  submissionAccepted : Bool
  message : String
  deriving DecidableEq

/-- `needle in text`. -/
def isInText (needle : String) (text : List Char) : Bool :=
  decide (needle.toList <:+: text)

/-- The text shown for a stored failure reason.  Only ASCII letters lower to ASCII
letters of "stale", so the ASCII fold decides as `str.lower` does. -/
def friendlyFailure (reason : Option String) : String :=
  match reason with
  | none => "Evaluation could not complete. Your submission remains on record."
  | some reason =>
      if reason = "" then "Evaluation could not complete. Your submission remains on record."
      else if isInText "Forced evaluation failure" reason.toList then
        "Evaluation could not complete for this submission. Your submission remains on record."
      else if isInText "Abandoned after" reason.toList ∨
          isInText "stale" (reason.toList.map Char.toLower) then
        "Evaluation could not finish after several attempts. Your submission remains on record."
      else "Evaluation could not complete. Your submission remains on record."

/-- The `messages` of `_to_participant_view`. -/
def EvaluationStatus.participantMessage : EvaluationStatus → String
  | .queued => "Your submission was accepted. Evaluation is waiting in the queue."
  | .running => "Your submission was accepted. Evaluation is in progress."
  | .succeeded => "Your submission was accepted and evaluation completed."
  | .failed => "Your submission was accepted, but evaluation could not complete."

/-- The texts that may stand for a failure. -/
def FRIENDLY_FAILURES : List String :=
  ["Evaluation could not complete. Your submission remains on record.",
   "Evaluation could not complete for this submission. Your submission remains on record.",
   "Evaluation could not finish after several attempts. Your submission remains on record."]

/-- The text shown is one of three. -/
theorem friendlyFailure_mem (reason : Option String) :
    friendlyFailure reason ∈ FRIENDLY_FAILURES := by
  unfold friendlyFailure FRIENDLY_FAILURES
  split
  · simp
  · split
    · simp
    · split
      · simp
      · split <;> simp

namespace EvaluationDb

/-- `SELECT … WHERE submission_id = …`, the column being unique. -/
def getBySubmission (db : EvaluationDb) (submissionId : UUID) : Option EvaluationRow :=
  db.evaluations.rows.find? (fun row => decide (row.submissionId = submissionId))

/-- `_to_participant_view`. -/
def toParticipantView (db : EvaluationDb) (evaluation : EvaluationRow) :
    ParticipantEvaluationView where
  id := evaluation.id
  submissionId := evaluation.submissionId
  status := evaluation.status
  estimatedJobsAhead :=
    if evaluation.status = .queued then db.queuePosition evaluation.id else none
  -- a wait is never estimated: one service rate is false precision
  estimatedWaitSeconds := none
  estimateIsApproximate := true
  score := if evaluation.status = .succeeded then evaluation.score else none
  failureMessage :=
    if evaluation.status = .failed then some (friendlyFailure evaluation.failureReason) else none
  createdAt := evaluation.createdAt
  startedAt :=
    if evaluation.status ∈ [.running, .succeeded, .failed] then evaluation.startedAt else none
  completedAt :=
    if evaluation.status ∈ [.succeeded, .failed] then evaluation.completedAt else none
  submissionAccepted := true
  message := evaluation.status.participantMessage

/-- The evaluation of a submission, for an actor who may see it. -/
def getForSubmission (db : EvaluationDb) (access : AccessDb) (actor : Actor)
    (submissionId : UUID) : Except DomainError EvaluationRow :=
  match access.submissions.find? submissionId with
  | none => .error (.notFound "Submission not found.")
  | some submission =>
      match access.authorizeView actor submission with
      | .error e => .error e
      | .ok () =>
          match db.getBySubmission submissionId with
          | none => .error (.notFound "Evaluation not found for this submission.")
          | some evaluation => .ok evaluation

/-- `get_participant_view(actor, submission_id)`. -/
def getParticipantView (db : EvaluationDb) (access : AccessDb) (actor : Actor)
    (submissionId : UUID) : Except DomainError ParticipantEvaluationView :=
  (db.getForSubmission access actor submissionId).map db.toParticipantView

variable {db db' : EvaluationDb}

/-- What is found belongs to the submission. -/
theorem getBySubmission_eq_some {submissionId : UUID} {row : EvaluationRow}
    (h : db.getBySubmission submissionId = some row) :
    row ∈ db.evaluations ∧ row.submissionId = submissionId :=
  ⟨List.mem_of_find?_eq_some h, by simpa using List.find?_some h⟩

/-- Who may see the submission is shown its evaluation, nobody else is. -/
theorem getForSubmission_eq_ok_iff {access : AccessDb} {actor : Actor} {submissionId : UUID}
    {row : EvaluationRow} :
    db.getForSubmission access actor submissionId = .ok row ↔
      (∃ submission ∈ access.submissions, submission.id = submissionId ∧
        access.MayView actor submission) ∧ db.getBySubmission submissionId = some row := by
  constructor
  · intro h
    unfold getForSubmission at h
    split at h
    · cases h
    · rename_i submission hfound
      split at h
      · cases h
      · rename_i hauthorized
        split at h
        · cases h
        · rename_i evaluation hget
          cases h
          obtain ⟨hmem, hid⟩ := Table.find?_eq_some_iff.mp hfound
          exact ⟨⟨submission, hmem, hid, AccessDb.authorizeView_eq_ok_iff.mp hauthorized⟩, hget⟩
  · intro h
    obtain ⟨⟨submission, hmem, rfl, hmay⟩, hget⟩ := h
    have hfound : access.submissions.find? submission.id = some submission :=
      Table.find?_of_mem hmem
    simp [getForSubmission, hfound, AccessDb.authorizeView_eq_ok_iff.mpr hmay, hget]

/-- What is shown is a row of the submission. -/
theorem getParticipantView_eq_ok {access : AccessDb} {actor : Actor} {submissionId : UUID}
    {view : ParticipantEvaluationView}
    (h : db.getParticipantView access actor submissionId = .ok view) :
    ∃ row, db.getBySubmission submissionId = some row ∧ view = db.toParticipantView row := by
  unfold getParticipantView at h
  cases hfound : db.getForSubmission access actor submissionId with
  | error e =>
      rw [hfound] at h
      cases h
  | ok row =>
      rw [hfound] at h
      cases h
      exact ⟨row, (getForSubmission_eq_ok_iff.mp hfound).2, rfl⟩

end EvaluationDb

/-! ## What belongs to a status -/

/-- A row that has left the queue has a start. -/
def Started (row : EvaluationRow) : Prop := row.status ≠ .queued → row.startedAt ≠ none

/-- A step of a row keeps its start. -/
theorem Started.step {row row' : EvaluationRow} (hcoherent : RowCoherent row)
    (hstep : RowStep row row') : Started row' := by
  cases hstep with
  | claimed workerId now hqueued =>
      intro _
      simp [EvaluationRow.startRunning]
  | recorded attempt hrunning =>
      intro _
      exact (hcoherent.of_running hrunning).2.1
  | completed now c hrunning =>
      have hstarted := (hcoherent.of_running hrunning).2.1
      cases c <;> simp [Started, Completion.apply, hstarted]
  | recovered os maxAttempts now hrunning =>
      have hstarted := (hcoherent.of_running hrunning).2.1
      obtain ⟨metadata, hquarantine | habandon⟩ := row.recover_cases os maxAttempts now
      · rw [hquarantine]
        intro _
        exact hstarted
      · rw [habandon]
        unfold EvaluationRow.requeueOrAbandon
        split <;> simp [Started, hstarted]

/-- In every state that is reached the rows have started when they should. -/
theorem started_of_reach {db : EvaluationDb} (h : evaluationQueue.Reach always db) :
    ∀ row ∈ db.evaluations, Started row := by
  refine h.induct (P := fun db => ∀ row ∈ db.evaluations, Started row) ?_ ?_
  · intro db hempty row hrow
    exact absurd hrow (by simp [Table.mem_iff, show db.evaluations.rows = [] from hempty])
  · intro db a db' hreach hall _ hstep row' hrow'
    rcases (transact_evolves hstep).source row' hrow' with ⟨row, hrow, -, rfl | hrowStep⟩ | hnew
    · exact hall row' hrow
    · exact Started.step (coherent_of_reach hreach row hrow) hrowStep
    · obtain ⟨_, _, _, _, hnew⟩ := hnew
      exact fun hne => absurd hnew.status hne

/-- A view shows what belongs to the status it shows, all of it and nothing else. -/
structure ViewCoherent (view : ParticipantEvaluationView) : Prop where
  ahead : view.estimatedJobsAhead.isSome ↔ view.status = .queued
  started : view.startedAt.isSome ↔ view.status ≠ .queued
  completed : view.completedAt.isSome ↔ view.status.terminal
  scored : view.score.isSome ↔ view.status = .succeeded
  failed : view.failureMessage.isSome ↔ view.status = .failed
  /-- The stored reason is never shown, only one of the fixed texts. -/
  friendly : ∀ text ∈ view.failureMessage, text ∈ FRIENDLY_FAILURES
  unestimated : view.estimatedWaitSeconds = none
  accepted : view.submissionAccepted = true

/-- The view of a coherent row is coherent. -/
theorem viewCoherent_of_row {db : EvaluationDb} {row : EvaluationRow}
    (hrow : row ∈ db.evaluations) (hcoherent : RowCoherent row) (hstarted : Started row) :
    ViewCoherent (db.toParticipantView row) := by
  have hsome : ∀ {α : Type} (x : Option α), x ≠ none → x.isSome = true :=
    fun x hx => Option.isSome_iff_ne_none.mpr hx
  constructor
  · by_cases hqueued : row.status = .queued
    · simp [EvaluationDb.toParticipantView, hqueued,
        EvaluationDb.queuePosition_of_mem hrow hqueued]
    · simp [EvaluationDb.toParticipantView, hqueued]
  · cases hstatus : row.status <;>
      simp_all [EvaluationDb.toParticipantView, Started]
  · cases hstatus : row.status <;>
      simp_all [EvaluationDb.toParticipantView, RowCoherent, EvaluationStatus.terminal]
  · cases hstatus : row.status <;>
      simp_all [EvaluationDb.toParticipantView, RowCoherent]
  · cases hstatus : row.status <;> simp [EvaluationDb.toParticipantView, hstatus]
  · intro text htext
    simp only [EvaluationDb.toParticipantView] at htext
    split at htext
    · obtain rfl : friendlyFailure row.failureReason = text := by simpa using htext
      exact friendlyFailure_mem row.failureReason
    · simp at htext
  · rfl
  · rfl

/-! ## One row per submission -/

/-- What no write assigns. -/
def EvaluationRow.identity (row : EvaluationRow) : UUID × UUID × Timestamp :=
  (row.id, row.submissionId, row.createdAt)

/-- A claim leaves what identifies the row. -/
@[simp] theorem identity_startRunning (row : EvaluationRow) (workerId : String)
    (now : Timestamp) : (row.startRunning workerId now).identity = row.identity := rfl

/-- A completion leaves it. -/
@[simp] theorem identity_apply (now : Timestamp) (row : EvaluationRow) (c : Completion) :
    (c.apply now row).identity = row.identity := by
  cases c <;> rfl

/-- A recovery leaves it. -/
@[simp] theorem identity_recover (row : EvaluationRow) (os : OsView) (maxAttempts : Int)
    (now : Timestamp) : (row.recover os maxAttempts now).identity = row.identity := by
  obtain ⟨hid, hsubmission, hcreated, -⟩ := row.recover_spec os maxAttempts now
  simp only [EvaluationRow.identity, hid, hsubmission, hcreated]

/-- Whether a transaction is an arrival. -/
def QueueAction.creates : QueueAction → Bool
  | .createQueued .. => true
  | _ => false

/-- **Only arrivals add rows.**  Any other transaction leaves the rows in their order,
each with its identity. -/
theorem identities_of_transact {db db' : EvaluationDb} {a : QueueAction}
    (hnot : a.creates = false) (h : db.transact a = some db') :
    db'.evaluations.rows.map EvaluationRow.identity =
      db.evaluations.rows.map EvaluationRow.identity := by
  cases a with
  | createQueued id submissionId workload mode deadline stage now => cases hnot
  | claimNext args now =>
      simp only [EvaluationDb.transact] at h
      split at h
      · rename_i x db'' hclaim
        cases h
        obtain ⟨row, state, hdec, rfl, rfl⟩ :=
          EvaluationDb.claimTransaction_eq_some_iff.mp hclaim
        exact Table.map_update (EvaluationRow.startRunning_id args.workerId now)
          (fun row => identity_startRunning row args.workerId now)
      · cases h
        rfl
  | complete id workerId now c =>
      cases h
      rw [EvaluationDb.complete_eq_apply]
      exact Table.map_update (fun row => c.apply_id now row) (fun row => identity_apply now row c)
  | beginExecutionAttempt id workerId attempt =>
      cases h
      exact Table.map_update (f := EvaluationDb.recordAttempt attempt) (fun _ => rfl) (fun _ => rfl)
  | recoverStaleRunning staleBefore maxAttempts now os =>
      cases h
      exact Table.map_update (EvaluationDb.recover_rewrite staleBefore maxAttempts now os).id
        (fun row => identity_recover row (os row.id) maxAttempts now)
  | persistRuntimeState pressure workers =>
      cases h
      rfl
  | persistInteractiveHint p95 samples poolWait =>
      cases h
      rfl

/-- No submission has two rows. -/
def OneEach (db : EvaluationDb) : Prop :=
  (db.evaluations.rows.map EvaluationRow.submissionId).Nodup

/-- A submission has one evaluation. -/
theorem OneEach.eq {db : EvaluationDb} (h : OneEach db) {row row' : EvaluationRow}
    (hrow : row ∈ db.evaluations) (hrow' : row' ∈ db.evaluations)
    (hsame : row.submissionId = row'.submissionId) : row = row' :=
  List.inj_on_of_nodup_map h hrow hrow' hsame

/-- The row found for a submission is the submission's only row. -/
theorem OneEach.getBySubmission_iff {db : EvaluationDb} (h : OneEach db) {submissionId : UUID}
    {row : EvaluationRow} :
    db.getBySubmission submissionId = some row ↔
      row ∈ db.evaluations ∧ row.submissionId = submissionId := by
  constructor
  · exact EvaluationDb.getBySubmission_eq_some
  · intro hrow
    obtain ⟨hmem, rfl⟩ := hrow
    cases hfound : db.getBySubmission row.submissionId with
    | none =>
        have hnone := List.find?_eq_none.mp hfound row hmem
        simp at hnone
    | some other =>
        obtain ⟨hother, hsame⟩ := EvaluationDb.getBySubmission_eq_some hfound
        rw [h.eq hother hmem hsame]

/-- Rows with the same identities belong to the same submissions. -/
theorem submissionIds_of_identities {rows rows' : List EvaluationRow}
    (h : rows'.map EvaluationRow.identity = rows.map EvaluationRow.identity) :
    rows'.map EvaluationRow.submissionId = rows.map EvaluationRow.submissionId := by
  have hcolumn := congrArg (List.map (fun x : UUID × UUID × Timestamp => x.2.1)) h
  rw [List.map_map, List.map_map] at hcolumn
  exact hcolumn

/-- A transaction keeps one evaluation for each submission. -/
theorem oneEach_of_transact {db db' : EvaluationDb} {a : QueueAction} (hone : OneEach db)
    (h : db.transact a = some db') : OneEach db' := by
  by_cases hcreates : a.creates = true
  · cases a with
    | createQueued id submissionId workload mode deadline stage now =>
        obtain ⟨hfirst, row, evaluations, hnew, hinsert, rfl⟩ :=
          EvaluationDb.createQueued_inserts h
        unfold OneEach
        rw [(Table.insert_eq_some_iff.mp hinsert).2, List.map_append]
        apply hone.append (by simp)
        intro x hx hnewId
        obtain ⟨other, hother, rfl⟩ := List.mem_map.mp hx
        have hsame : other.submissionId = row.submissionId := by simpa using hnewId
        exact hfirst other hother (hsame.trans hnew.submissionId)
    | _ => cases hcreates
  · unfold OneEach
    rw [submissionIds_of_identities (identities_of_transact (by simpa using hcreates) h)]
    exact hone

/-- So does a run. -/
theorem oneEach_of_path {db db' : EvaluationDb} (h : evaluationQueue.Path always db db')
    (hone : OneEach db) : OneEach db' :=
  h.preserves (I := OneEach) (fun _ _ _ hI _ hstep => oneEach_of_transact hI hstep) hone

/-- So it is in every state that is reached. -/
theorem oneEach_of_reach {db : EvaluationDb} (h : evaluationQueue.Reach always db) :
    OneEach db := by
  obtain ⟨start, hempty, hpath⟩ := h
  apply oneEach_of_path hpath
  simp [OneEach, show start.evaluations.rows = [] from hempty]

/-! ## Finished evaluations -/

/-- A finished row is not rewritten. -/
theorem finished_kept {db db' : EvaluationDb} (h : evaluationQueue.Path always db db') :
    ∀ row ∈ db.evaluations, row.status.terminal → row ∈ db'.evaluations := by
  refine h.preserves (I := fun db' => ∀ row ∈ db.evaluations, row.status.terminal →
    row ∈ db'.evaluations) ?_ (fun _ hrow _ => hrow)
  intro u a u' hI _ hstep row hrow hterminal
  obtain ⟨row', hrow', -, rfl | hrowStep⟩ :=
    (transact_evolves hstep).kept row (hI row hrow hterminal)
  · exact hrow'
  · exact absurd hterminal hrowStep.live

/-- The view of a finished row reads the row alone. -/
theorem toParticipantView_finished {row : EvaluationRow} (h : row.status.terminal)
    (db db' : EvaluationDb) : db.toParticipantView row = db'.toParticipantView row := by
  have hnot : row.status ≠ .queued := by
    rcases h with hsucceeded | hfailed
    · rw [hsucceeded]
      decide
    · rw [hfailed]
      decide
  simp [EvaluationDb.toParticipantView, hnot]

/-! ## What is hidden -/

/-- The part of a row that participants are shown. -/
structure PublicEvaluation where
  id : UUID
  submissionId : UUID
  status : EvaluationStatus
  createdAt : Timestamp
  startedAt : Option Timestamp
  completedAt : Option Timestamp
  score : Option Score
  failureMessage : String
  deriving DecidableEq

/-- What of a row can be told from a view. -/
def EvaluationRow.public (row : EvaluationRow) : PublicEvaluation where
  id := row.id
  submissionId := row.submissionId
  status := row.status
  createdAt := row.createdAt
  startedAt := row.startedAt
  completedAt := row.completedAt
  score := row.score
  failureMessage := friendlyFailure row.failureReason

/-- Two stores show the same columns, row by row. -/
def SamePublic (db db' : EvaluationDb) : Prop :=
  db.evaluations.rows.map EvaluationRow.public = db'.evaluations.rows.map EvaluationRow.public

/-- A search by public columns finds public columns. -/
theorem find?_public {rows rows' : List EvaluationRow} (q : PublicEvaluation → Bool)
    (h : rows.map EvaluationRow.public = rows'.map EvaluationRow.public) :
    (rows.find? (fun row => q row.public)).map EvaluationRow.public =
      (rows'.find? (fun row => q row.public)).map EvaluationRow.public := by
  have hfind : ∀ rows : List EvaluationRow,
      (rows.find? (fun row => q row.public)).map EvaluationRow.public =
        (rows.map EvaluationRow.public).find? q := by
    intro rows
    rw [List.find?_map]
    rfl
  rw [hfind, hfind, h]

/-- A count by public columns counts public columns. -/
theorem countP_public {rows rows' : List EvaluationRow} (q : PublicEvaluation → Bool)
    (h : rows.map EvaluationRow.public = rows'.map EvaluationRow.public) :
    rows.countP (fun row => q row.public) = rows'.countP (fun row => q row.public) := by
  have hcount : ∀ rows : List EvaluationRow,
      rows.countP (fun row => q row.public) = (rows.map EvaluationRow.public).countP q := by
    intro rows
    rw [List.countP_map]
    rfl
  rw [hcount, hcount, h]

namespace SamePublic

variable {db db' : EvaluationDb}

/-- The position is the same. -/
theorem queuePosition (h : SamePublic db db') (id : UUID) :
    db.queuePosition id = db'.queuePosition id := by
  have hget := find?_public (fun p => decide (p.id = id)) h
  have hcount : ∀ row row' : EvaluationRow, row.public = row'.public →
      db.evaluations.count row.isAheadOf = db'.evaluations.count row'.isAheadOf := by
    intro row row' hsame
    have hcreated : row.createdAt = row'.createdAt := congrArg PublicEvaluation.createdAt hsame
    have hid : row.id = row'.id := congrArg PublicEvaluation.id hsame
    have hahead : row'.isAheadOf = row.isAheadOf := by
      funext r
      unfold EvaluationRow.isAheadOf
      congr 1
      rw [decide_eq_decide, EvaluationRow.comesBefore, EvaluationRow.comesBefore, hcreated, hid]
    rw [hahead]
    exact countP_public (fun p => decide (p.status = .queued) &&
      decide (p.createdAt < row.createdAt ∨ p.createdAt = row.createdAt ∧ p.id < row.id)) h
  change (db.get id).map EvaluationRow.public = (db'.get id).map EvaluationRow.public at hget
  unfold EvaluationDb.queuePosition
  cases hrow : db.get id with
  | none =>
      rw [hrow] at hget
      have hnone : db'.get id = none := by simpa using hget.symm
      rw [hnone]
  | some row =>
      rw [hrow] at hget
      obtain ⟨row', hrow', hsame⟩ := Option.map_eq_some_iff.mp hget.symm
      have hstatus : row'.status = row.status := congrArg PublicEvaluation.status hsame
      simp only [hrow', hstatus, hcount row row' hsame.symm]

/-- Rows that agree publicly have the same view. -/
theorem toParticipantView (h : SamePublic db db') {row row' : EvaluationRow}
    (hsame : row.public = row'.public) :
    db.toParticipantView row = db'.toParticipantView row' := by
  obtain ⟨hid, hsubmission, hstatus, hcreated, hstarted, hcompleted, hscore, hfailure⟩ :=
    PublicEvaluation.mk.inj hsame
  simp only [EvaluationDb.toParticipantView, hid, hsubmission, hstatus, hcreated, hstarted,
    hcompleted, hscore, hfailure, h.queuePosition]

/-- The row found is the same, as far as it can be told. -/
theorem getBySubmission (h : SamePublic db db') (submissionId : UUID) :
    (db.getBySubmission submissionId).map EvaluationRow.public =
      (db'.getBySubmission submissionId).map EvaluationRow.public :=
  find?_public (fun p => decide (p.submissionId = submissionId)) h

end SamePublic

/-! ## What participants see -/

/-- **Every view is coherent.**  Whoever asks, whatever ran before: a view shows the
fields of its status, all of them and no others, and never a stored reason. -/
theorem view_coherent {db : EvaluationDb} (h : evaluationQueue.Reach always db)
    {access : AccessDb} {actor : Actor} {submissionId : UUID} {view : ParticipantEvaluationView}
    (hview : db.getParticipantView access actor submissionId = .ok view) :
    view.submissionId = submissionId ∧ ViewCoherent view := by
  obtain ⟨row, hget, rfl⟩ := EvaluationDb.getParticipantView_eq_ok hview
  obtain ⟨hrow, hsubmission⟩ := EvaluationDb.getBySubmission_eq_some hget
  exact ⟨hsubmission, viewCoherent_of_row hrow (coherent_of_reach h row hrow)
    (started_of_reach h row hrow)⟩

/-- A score of 80. -/
def eighty : Score := ⟨80, by decide⟩

/-- The evaluation of `foreignRow` is created, claimed and completed. -/
def completedRun : List QueueAction :=
  [.createQueued 1 30 .light .legacy none 0 10, .claimNext (laptopClaim "worker-a") 11,
   .complete 1 "worker-a" 12 (.succeeded eighty [])]

/-- The participant of `foreignRow` is shown a success. -/
def showsSuccess (db : EvaluationDb) : Bool :=
  match db.getParticipantView foreignDb ⟨3, .participant⟩ 30 with
  | .ok view => view.status = .succeeded
  | .error _ => false

/-- The owner is shown the success. -/
theorem view_of_showsSuccess {db : EvaluationDb} (h : showsSuccess db = true) :
    ∃ view, db.getParticipantView foreignDb ⟨3, .participant⟩ 30 = .ok view ∧
      view.status = .succeeded := by
  unfold showsSuccess at h
  split at h
  · rename_i view hview
    exact ⟨view, hview, by simpa using h⟩
  · cases h

/-- `view_coherent` once the evaluation of `foreignRow` is over. -/
theorem view_coherent_completed :
    ∃ db view, evaluationQueue.Reach always db ∧
      db.getParticipantView foreignDb ⟨3, .participant⟩ 30 = .ok view ∧
      view.status = .succeeded ∧ view.submissionId = 30 ∧ ViewCoherent view := by
  obtain ⟨db, hreach, htest⟩ : ∃ db, evaluationQueue.Reach always db ∧ showsSuccess db = true :=
    System.reach_of_test emptyEvaluationDb completedRun _ rfl (by decide)
  obtain ⟨view, hview, hsucceeded⟩ := view_of_showsSuccess htest
  exact ⟨db, view, hreach, hview, hsucceeded, view_coherent hreach hview⟩

/-- **Results stand.**  Once a view shows a finished evaluation, every later view of the
submission is that view, whoever may see it then. -/
theorem settled_view_kept {db db' : EvaluationDb} (h : evaluationQueue.Reach always db)
    (hpath : evaluationQueue.Path always db db') {access access' : AccessDb}
    {actor actor' : Actor} {submissionId : UUID} {view view' : ParticipantEvaluationView}
    (hview : db.getParticipantView access actor submissionId = .ok view)
    (hterminal : view.status.terminal)
    (hview' : db'.getParticipantView access' actor' submissionId = .ok view') : view' = view := by
  obtain ⟨row, hget, rfl⟩ := EvaluationDb.getParticipantView_eq_ok hview
  obtain ⟨row', hget', rfl⟩ := EvaluationDb.getParticipantView_eq_ok hview'
  obtain ⟨hrow, hsubmission⟩ := EvaluationDb.getBySubmission_eq_some hget
  obtain ⟨hrow', hsubmission'⟩ := EvaluationDb.getBySubmission_eq_some hget'
  have hterminal : row.status.terminal := hterminal
  have hstill : row ∈ db'.evaluations := finished_kept hpath row hrow hterminal
  have hone : OneEach db' := oneEach_of_path hpath (oneEach_of_reach h)
  obtain rfl : row' = row := hone.eq hrow' hstill (hsubmission'.trans hsubmission.symm)
  exact toParticipantView_finished hterminal db' db

/-- `settled_view_kept` while another job arrives. -/
theorem settled_view_kept_arrival :
    ∃ db db' view view', evaluationQueue.Reach always db ∧ evaluationQueue.Path always db db' ∧
      db.getParticipantView foreignDb ⟨3, .participant⟩ 30 = .ok view ∧
      db'.getParticipantView foreignDb ⟨3, .participant⟩ 30 = .ok view' ∧ db'.queued = 1 ∧
      view' = view := by
  obtain ⟨db, hreach, htest⟩ : ∃ db, evaluationQueue.Reach always db ∧
      (showsSuccess db &&
        (db.transact (.createQueued 2 31 .light .legacy none 0 13)).any (fun db' =>
          showsSuccess db' && decide (db'.queued = 1))) = true :=
    System.reach_of_test emptyEvaluationDb completedRun _ rfl (by decide)
  obtain ⟨hbefore, hafter⟩ := Bool.and_eq_true_iff.mp htest
  obtain ⟨view, hview, hsucceeded⟩ := view_of_showsSuccess hbefore
  cases hstep : db.transact (.createQueued 2 31 .light .legacy none 0 13) with
  | none => simp [hstep] at hafter
  | some db' =>
      rw [hstep] at hafter
      obtain ⟨hshows, hqueued⟩ := Bool.and_eq_true_iff.mp hafter
      obtain ⟨view', hview', -⟩ := view_of_showsSuccess hshows
      have hpath : evaluationQueue.Path always db db' := System.Path.single
        (a := .createQueued 2 31 .light .legacy none 0 13) trivial hstep
      exact ⟨db, db', view, view', hreach, hpath, hview, hview', of_decide_eq_true hqueued,
        settled_view_kept hreach hpath hview (Or.inl hsucceeded) hview'⟩

/-- **Internals are hidden.**  Two stores whose rows agree on their public columns, and
on the class of text a failure is shown with, answer every actor alike: workers, stages,
attempts, metadata and reasons cannot be told from a view. -/
theorem view_hides {db db' : EvaluationDb} (h : SamePublic db db') (access : AccessDb)
    (actor : Actor) (submissionId : UUID) :
    db.getParticipantView access actor submissionId =
      db'.getParticipantView access actor submissionId := by
  have hget := h.getBySubmission submissionId
  unfold EvaluationDb.getParticipantView EvaluationDb.getForSubmission
  split
  · rfl
  · split
    · rfl
    · cases hrow : db.getBySubmission submissionId with
      | none =>
          rw [hrow] at hget
          have hnone : db'.getBySubmission submissionId = none := by simpa using hget.symm
          rw [hnone]
          rfl
      | some row =>
          rw [hrow] at hget
          obtain ⟨row', hrow', hsame⟩ := Option.map_eq_some_iff.mp hget.symm
          rw [hrow']
          exact congrArg Except.ok (h.toParticipantView hsame.symm)

/-- A worker of this name claims the evaluation of `foreignRow`. -/
def claimedRun (workerId : String) : List QueueAction :=
  [.createQueued 1 30 .light .legacy none 0 10, .claimNext (laptopClaim workerId) 11]

/-- The public columns of that run, and the worker. -/
def runsUnder (workerId : String) (db : EvaluationDb) : Bool :=
  decide (∃ row ∈ db.evaluations, row.workerId = some workerId) &&
    decide (db.evaluations.rows.map EvaluationRow.public =
      [⟨1, 30, .running, 10, some 11, none, none, friendlyFailure none⟩])

/-- `view_hides` of the worker that runs an evaluation. -/
theorem view_hides_worker :
    ∃ db db' : EvaluationDb, (∃ row ∈ db.evaluations, row.workerId = some "worker-a") ∧
      (∃ row ∈ db'.evaluations, row.workerId = some "worker-b") ∧
      db.getParticipantView foreignDb ⟨3, .participant⟩ 30 =
        db'.getParticipantView foreignDb ⟨3, .participant⟩ 30 := by
  obtain ⟨db, -, htest⟩ : ∃ db, evaluationQueue.Reach always db ∧
      runsUnder "worker-a" db = true :=
    System.reach_of_test emptyEvaluationDb (claimedRun "worker-a") _ rfl (by decide)
  obtain ⟨db', -, htest'⟩ : ∃ db, evaluationQueue.Reach always db ∧
      runsUnder "worker-b" db = true :=
    System.reach_of_test emptyEvaluationDb (claimedRun "worker-b") _ rfl (by decide)
  obtain ⟨hworker, hrows⟩ := Bool.and_eq_true_iff.mp htest
  obtain ⟨hworker', hrows'⟩ := Bool.and_eq_true_iff.mp htest'
  have hsame : SamePublic db db' :=
    (of_decide_eq_true hrows).trans (of_decide_eq_true hrows').symm
  exact ⟨db, db', of_decide_eq_true hworker, of_decide_eq_true hworker',
    view_hides hsame foreignDb _ 30⟩

end ChallengeForge
