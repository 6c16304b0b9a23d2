import ChallengeForge.ArtifactStorage
import ChallengeForge.KeyedTable
import ChallengeForge.LabelledSystem
import ChallengeForge.PythonText

/-!
# The lifecycle of a challenge

`publish_challenge` and `close_challenge` write the same status column.  A
close reads `FOR UPDATE` and holds the row lock up to its commit.  A publish
reads without a lock, reloads the row in the same session, and writes by
primary key when the lock is free: the status column only if the session's
copy does not say PUBLISHED already.

* `status_advances` — over every run in which no publish writes the status of a
  CLOSED challenge, the status only moves along draft, published, closed; and
  such a write is the only step that breaks this;
* `published_after_close` — a publish that has read DRAFT reopens a challenge
  that was published and closed in the meantime.
-/

namespace ChallengeForge

open Keyed Labelled

/-- What the two requests read of a challenge. -/
structure ChallengeRow where
  status : ChallengeStatus
  specificationBody : String
  /-- Name, description and weight of each criterion. -/
  evaluationCriteria : List (String × String × Int)
  updatedAt : Timestamp

/-- `is_publishable`: a specification that is not blank, and a criterion. -/
def ChallengeRow.isPublishable (row : ChallengeRow) : Bool :=
  !(strip row.specificationBody.toList).isEmpty && row.evaluationCriteria.length > 0

/-- Where a request stands: a publish that has passed its checks, or has
reloaded the row; a close that holds the row lock. -/
inductive StatusPhase
  | checked
  | reloaded (status : ChallengeStatus)
  | locked
  deriving DecidableEq, Repr

/-- A request that changes the status, in progress. -/
structure StatusRequest where
  id : UUID
  phase : StatusPhase
  deriving DecidableEq, Repr

/-- What the organizer is answered. -/
inductive StatusReply
  | challenge (status : ChallengeStatus)
  | refused (error : DomainError)
  | raised
  deriving DecidableEq, Repr

/-- One challenge, the organizer of its hackathon, who holds the row lock, and
the requests in progress. -/
structure ChallengeService where
  row : ChallengeRow
  organizerId : Option UUID
  lock : Option UUID
  requests : Table StatusRequest StatusRequest.id
  replies : List (UUID × StatusReply)
  nextUuid : UUID

namespace ChallengeService

/-! ## Bookkeeping of requests -/

/-- A request that is answered at once. -/
def answer (s : ChallengeService) (reply : StatusReply) : ChallengeService :=
  { s with
    replies := (s.nextUuid, reply) :: s.replies
    nextUuid := s.nextUuid + 1 }

/-- A request that goes on after its checks. -/
def startRequest (s : ChallengeService) (phase : StatusPhase) : Option ChallengeService :=
  (s.requests.insert { id := s.nextUuid, phase := phase }).map
    fun requests => { s with requests := requests, nextUuid := s.nextUuid + 1 }

/-- A request that ends with a reply. -/
def finish (s : ChallengeService) (request : StatusRequest) (reply : StatusReply) :
    ChallengeService :=
  { s with
    requests := s.requests.delete (fun other => decide (other.id = request.id))
    replies := (request.id, reply) :: s.replies }

/-! ## Publishing -/

/-- The checks of `publish_challenge` on an unlocked read. -/
def checkPublish (s : ChallengeService) (actor : Actor) : Except StatusReply Unit :=
  match requireOrganizer actor with
  | .error e => .error (.refused e)
  | .ok () =>
      if s.organizerId ≠ some actor.id then
        .error (.refused
          (.permissionDenied "Only the creating organizer may publish this challenge."))
      else if s.row.status = .published then .error (.challenge .published)
      else if s.row.status ≠ .draft then
        .error (.refused (.validationFailed "Only draft challenges can be published."))
      else if s.row.isPublishable = false then
        .error (.refused (.validationFailed ("A challenge needs a specification and at least " ++
          "one evaluation criterion before publish.")))
      else .ok ()

/-- `publish`: the checks, and the start of a request. -/
def publish (s : ChallengeService) (actor : Actor) : Option ChallengeService :=
  match s.checkPublish actor with
  | .error reply => some (s.answer reply)
  | .ok () => s.startRequest .checked

/-- `get_row` of `save_status`: the row as the session has it, which is the copy
of the first read if the session still holds it. -/
def reload (s : ChallengeService) (request : StatusRequest) (cached : Bool) :
    Option ChallengeService :=
  if request.phase ≠ .checked then none
  else
    let status := if cached then .draft else s.row.status
    some
      { s with
        requests := s.requests.update (fun other => decide (other.id = request.id))
          (fun other => { other with phase := .reloaded status }) (fun _ => rfl) }

/-- The flush and the commit of a publish; the UPDATE waits for the row lock. -/
def commitPublish (s : ChallengeService) (request : StatusRequest) (outcome : CallOutcome)
    (now : Timestamp) : Option ChallengeService :=
  match request.phase, s.lock with
  | .reloaded loaded, none =>
      if outcome = .failed then some (s.finish request .raised)
      else
        let status := if loaded = .published then s.row.status else .published
        let reply := if outcome = .ok then .challenge .published else .raised
        some { s.finish request reply with
          row := { s.row with status := status, updatedAt := now } }
  | _, _ => none

/-! ## Closing -/

/-- The checks of `close_challenge` on the locked row. -/
def checkClose (s : ChallengeService) (actor : Actor) : Except StatusReply Unit :=
  if s.organizerId ≠ some actor.id then
    .error (.refused
      (.permissionDenied "Only the creating organizer may close this challenge."))
  else if s.row.status = .closed then .error (.challenge .closed)
  else if s.row.status ≠ .published then
    .error (.refused (.validationFailed "Only published challenges can be closed."))
  else .ok ()

/-- The locking read waits until the row lock is free; a request that is
answered at once gives it back. -/
def close (s : ChallengeService) (actor : Actor) : Option ChallengeService :=
  match requireOrganizer actor, s.lock with
  | .error e, _ => some (s.answer (.refused e))
  | .ok (), some _ => none
  | .ok (), none =>
      match s.checkClose actor with
      | .error reply => some (s.answer reply)
      | .ok () => { s with lock := some s.nextUuid }.startRequest .locked

/-- The commit of a close, which releases the lock. -/
def commitClose (s : ChallengeService) (request : StatusRequest) (outcome : CallOutcome)
    (now : Timestamp) : Option ChallengeService :=
  if request.phase ≠ .locked then none
  else if outcome = .failed then
    some { s.finish request .raised with lock := none }
  else
    let reply := if outcome = .ok then .challenge .closed else .raised
    some { s.finish request reply with
      lock := none
      row := { s.row with status := .closed, updatedAt := now } }

/-- The process dies, and the server rolls its transaction back. -/
def die (s : ChallengeService) (request : StatusRequest) : ChallengeService :=
  { s with
    requests := s.requests.delete (fun other => decide (other.id = request.id))
    lock := if request.phase = .locked then none else s.lock }

end ChallengeService

/-- A call of an organizer, or the next call of a request in progress. -/
inductive StatusAction
  | publish (actor : Actor)
  | reload (requestId : UUID) (cached : Bool)
  | commitPublish (requestId : UUID) (outcome : CallOutcome) (now : Timestamp)
  | close (actor : Actor)
  | commitClose (requestId : UUID) (outcome : CallOutcome) (now : Timestamp)
  | die (requestId : UUID)
  deriving DecidableEq, Repr

namespace ChallengeService

/-- What an action does; `none` where it cannot happen. -/
def step (s : ChallengeService) : StatusAction → Option ChallengeService
  | .publish actor => s.publish actor
  | .reload id cached => (s.requests.find? id).bind (fun r => s.reload r cached)
  | .commitPublish id outcome now =>
      (s.requests.find? id).bind (fun r => s.commitPublish r outcome now)
  | .close actor => s.close actor
  | .commitClose id outcome now =>
      (s.requests.find? id).bind (fun r => s.commitClose r outcome now)
  | .die id => (s.requests.find? id).map s.die

end ChallengeService

/-- Any number of publish and close requests on one challenge. -/
def challengeService : System ChallengeService StatusAction where
  start := fun s => s.lock = none ∧ s.requests.rows = []
  step := ChallengeService.step

/-! ## The order of the committed statuses -/

namespace ChallengeStatus

/-- The order in which a challenge goes through its statuses. -/
def rank : ChallengeStatus → Nat
  | .draft => 0
  | .published => 1
  | .closed => 2

/-- One status stays, or moves to the next. -/
def Advances (before after : ChallengeStatus) : Prop :=
  before = after ∨ before = .draft ∧ after = .published ∨ before = .published ∧ after = .closed

instance (before after : ChallengeStatus) : Decidable (before.Advances after) :=
  inferInstanceAs (Decidable (_ ∨ _))

theorem Advances.rank_le {before after : ChallengeStatus} (h : before.Advances after) :
    before.rank ≤ after.rank := by
  rcases h with rfl | ⟨rfl, rfl⟩ | ⟨rfl, rfl⟩
  · exact le_refl _
  · decide
  · decide

end ChallengeStatus

namespace ChallengeService

variable {s s' : ChallengeService}

/-- No publish writes the status of a CLOSED challenge. -/
def sparesClosed : Condition ChallengeService StatusAction := fun s a =>
  match a with
  | .commitPublish id outcome _ => outcome ≠ .failed → s.row.status = .closed →
      ∀ request ∈ s.requests, request.id = id → request.phase = .reloaded .published
  | _ => True

instance (s : ChallengeService) (a : StatusAction) : Decidable (sparesClosed s a) :=
  match a with
  | .commitPublish .. => inferInstanceAs (Decidable (_ → _))
  | .publish .. | .reload .. | .close .. | .commitClose .. | .die .. => isTrue trivial

/-- A close in progress holds the row lock, and the row is PUBLISHED. -/
def LockHeld (s : ChallengeService) : Prop :=
  ∀ request ∈ s.requests, request.phase = .locked →
    s.lock = some request.id ∧ s.row.status = .published

theorem mem_startRequest {phase : StatusPhase} (h : s.startRequest phase = some s') :
    s'.row = s.row ∧ s'.lock = s.lock ∧
      ∀ other, other ∈ s'.requests ↔ other ∈ s.requests ∨ other = ⟨s.nextUuid, phase⟩ := by
  obtain ⟨requests, hinsert, rfl⟩ := Option.map_eq_some_iff.mp h
  exact ⟨rfl, rfl, fun other => Table.mem_of_insert hinsert⟩

/-- A close that goes on holds the lock of a PUBLISHED row. -/
theorem published_of_checkClose {actor : Actor} (h : s.checkClose actor = .ok ()) :
    s.row.status = .published := by
  unfold checkClose at h
  split at h
  · cases h
  split at h
  · cases h
  split at h
  · cases h
  · rename_i hpublished
    exact not_not.mp hpublished

/-- A publish that starts leaves the row, the lock and the requests that hold it. -/
theorem publish_cases {actor : Actor} (h : s.publish actor = some s') :
    s'.row = s.row ∧ s'.lock = s.lock ∧
      ∀ other ∈ s'.requests, other.phase = .locked → other ∈ s.requests := by
  unfold publish at h
  split at h
  · obtain rfl := Option.some.inj h
    exact ⟨rfl, rfl, fun _ hother _ => hother⟩
  · obtain ⟨hrow, hlock, hmem⟩ := mem_startRequest h
    refine ⟨hrow, hlock, ?_⟩
    intro other hother hphase
    rcases (hmem other).mp hother with hbefore | rfl
    · exact hbefore
    · cases hphase

/-- A close is refused, or it locks a PUBLISHED row that nobody had locked. -/
theorem close_cases {actor : Actor} (h : s.close actor = some s') :
    s'.row = s.row ∧ ((s'.lock = s.lock ∧ s'.requests = s.requests) ∨
      (s.lock = none ∧ s.row.status = .published ∧
        ∀ other ∈ s'.requests, other ∈ s.requests ∨ s'.lock = some other.id)) := by
  unfold close at h
  split at h
  · obtain rfl := Option.some.inj h
    exact ⟨rfl, Or.inl ⟨rfl, rfl⟩⟩
  · simp at h
  · rename_i hfree
    split at h
    · obtain rfl := Option.some.inj h
      exact ⟨rfl, Or.inl ⟨rfl, rfl⟩⟩
    · rename_i hcheck
      obtain ⟨hrow, hlock, hmem⟩ := mem_startRequest h
      refine ⟨hrow, Or.inr ⟨hfree, published_of_checkClose hcheck, ?_⟩⟩
      intro other hother
      rcases (hmem other).mp hother with hbefore | rfl
      · exact Or.inl hbefore
      · exact Or.inr hlock

/-- A reload leaves the row, the lock and the requests that hold it. -/
theorem reload_cases {request : StatusRequest} {cached : Bool}
    (h : s.reload request cached = some s') :
    s'.row = s.row ∧ s'.lock = s.lock ∧
      ∀ other ∈ s'.requests, other.phase = .locked → other ∈ s.requests := by
  unfold reload at h
  split at h
  · simp at h
  obtain rfl := Option.some.inj h
  refine ⟨rfl, rfl, ?_⟩
  intro other hother hphase
  simp only [Table.mem_update] at hother
  obtain ⟨before, hbefore, rfl⟩ := hother
  split at hphase
  · cases hphase
  · rename_i hne
    rw [if_neg hne]
    exact hbefore

/-- The outcome of `commitPublish`, when it is enabled. -/
theorem commitPublish_cases {request : StatusRequest} {outcome : CallOutcome} {now : Timestamp}
    (h : s.commitPublish request outcome now = some s') :
    s.lock = none ∧ s'.lock = none ∧ (∀ other ∈ s'.requests, other ∈ s.requests) ∧
    ∃ loaded, request.phase = .reloaded loaded ∧
      s'.row.status =
        if outcome = .failed ∨ loaded = .published then s.row.status else .published := by
  unfold commitPublish at h
  split at h
  · rename_i loaded hphase hlock
    refine ⟨hlock, ?_⟩
    split at h
    · rename_i hfailed
      obtain rfl := Option.some.inj h
      exact ⟨hlock, fun _ hother => (Table.mem_delete.mp hother).1, loaded, hphase, by
        rw [if_pos (Or.inl hfailed)]; rfl⟩
    · rename_i hfailed
      obtain rfl := Option.some.inj h
      exact ⟨hlock, fun _ hother => (Table.mem_delete.mp hother).1, loaded, hphase, by
        simp [hfailed]⟩
  · simp at h

/-- The outcome of `commitClose`, when it is enabled. -/
theorem commitClose_cases {request : StatusRequest} {outcome : CallOutcome} {now : Timestamp}
    (h : s.commitClose request outcome now = some s') :
    request.phase = .locked ∧
    (∀ other ∈ s'.requests, other ∈ s.requests ∧ other.id ≠ request.id) ∧
    (s'.row.status = s.row.status ∨ s'.row.status = .closed) := by
  have hdelete : ∀ other ∈ s.requests.delete (fun other => decide (other.id = request.id)),
      other ∈ s.requests ∧ other.id ≠ request.id := by
    intro other hother
    obtain ⟨hmem, hne⟩ := Table.mem_delete.mp hother
    exact ⟨hmem, of_decide_eq_false hne⟩
  unfold commitClose at h
  split at h
  · simp at h
  rename_i hphase
  refine ⟨not_not.mp hphase, ?_⟩
  split at h
  · obtain rfl := Option.some.inj h
    exact ⟨hdelete, Or.inl rfl⟩
  · obtain rfl := Option.some.inj h
    exact ⟨hdelete, Or.inr rfl⟩

/-- A step that leaves the row and the lock, and lets nobody lock. -/
theorem LockHeld.frame (h : s.LockHeld) (hrow : s'.row = s.row) (hlock : s'.lock = s.lock)
    (hmem : ∀ other ∈ s'.requests, other.phase = .locked → other ∈ s.requests) :
    s'.LockHeld := by
  intro other hother hphase
  rw [hrow, hlock]
  exact h other (hmem other hother hphase) hphase

/-- While the row is unlocked no request is past its locked read. -/
theorem LockHeld.not_locked_of_free (h : s.LockHeld) (hfree : s.lock = none)
    {request : StatusRequest} (hrequest : request ∈ s.requests) : request.phase ≠ .locked := by
  intro hphase
  have hheld := (h request hrequest hphase).1
  rw [hfree] at hheld
  cases hheld

/-- The lock names one request. -/
theorem LockHeld.id_eq (h : s.LockHeld) {request other : StatusRequest}
    (hrequest : request ∈ s.requests) (hlocked : request.phase = .locked)
    (hother : other ∈ s.requests) (hphase : other.phase = .locked) : other.id = request.id := by
  have hname : s.lock = some request.id := (h request hrequest hlocked).1
  have hheld : s.lock = some other.id := (h other hother hphase).1
  exact Option.some.inj (hheld.symm.trans hname)

/-- The lock is held as it should be after every step. -/
theorem LockHeld.step {a : StatusAction} (h : s.LockHeld) (hstep : s.step a = some s') :
    s'.LockHeld := by
  cases a with
  | publish actor =>
      obtain ⟨hrow, hlock, hmem⟩ := publish_cases hstep
      exact h.frame hrow hlock hmem
  | reload id cached =>
      obtain ⟨request, -, hreload⟩ := Option.bind_eq_some_iff.mp hstep
      obtain ⟨hrow, hlock, hmem⟩ := reload_cases hreload
      exact h.frame hrow hlock hmem
  | commitPublish id outcome now =>
      obtain ⟨request, hfound, hstep⟩ := Option.bind_eq_some_iff.mp hstep
      obtain ⟨hfree, -, hmem, -⟩ := commitPublish_cases hstep
      intro other hother hphase
      exact absurd hphase (h.not_locked_of_free hfree (hmem other hother))
  | close actor =>
      obtain ⟨hrow, ⟨hlock, hsame⟩ | ⟨hfree, hpublished, hmem⟩⟩ := close_cases hstep
      · exact h.frame hrow hlock (fun _ hother _ => hsame ▸ hother)
      · intro other hother hphase
        rcases hmem other hother with hbefore | hlocked
        · exact absurd hphase (h.not_locked_of_free hfree hbefore)
        · exact ⟨hlocked, by rw [hrow]; exact hpublished⟩
  | commitClose id outcome now =>
      obtain ⟨request, hfound, hcommit⟩ := Option.bind_eq_some_iff.mp hstep
      obtain ⟨hrequest, -⟩ := Table.find?_eq_some_iff.mp hfound
      obtain ⟨hlocked, hmem, -⟩ := commitClose_cases hcommit
      intro other hother hphase
      -- the lock names one request, and that one is over
      obtain ⟨hbefore, hne⟩ := hmem other hother
      exact absurd (h.id_eq hrequest hlocked hbefore hphase) hne
  | die id =>
      obtain ⟨request, hfound, rfl⟩ := Option.map_eq_some_iff.mp hstep
      obtain ⟨hrequest, rfl⟩ := Table.find?_eq_some_iff.mp hfound
      intro other hother hphase
      obtain ⟨hbefore, hne⟩ := Table.mem_delete.mp hother
      obtain ⟨hheld, hpublished⟩ := h other hbefore hphase
      refine ⟨?_, hpublished⟩
      by_cases hlocked : request.phase = .locked
      · exact absurd (h.id_eq hrequest hlocked hbefore hphase) (of_decide_eq_false hne)
      · simpa [die, hlocked] using hheld

/-- A step moves the status forward exactly when it is no publish that writes
the status of a CLOSED challenge. -/
theorem advances_iff {a : StatusAction} (hheld : s.LockHeld) (hstep : s.step a = some s') :
    s.row.status.Advances s'.row.status ↔ sparesClosed s a := by
  have hstay : s'.row.status = s.row.status → sparesClosed s a →
      (s.row.status.Advances s'.row.status ↔ sparesClosed s a) :=
    fun hsame hok => iff_of_true (Or.inl hsame.symm) hok
  cases a with
  | publish actor =>
      refine hstay ?_ trivial
      rw [(publish_cases hstep).1]
  | reload id cached =>
      refine hstay ?_ trivial
      obtain ⟨request, -, hreload⟩ := Option.bind_eq_some_iff.mp hstep
      rw [(reload_cases hreload).1]
  | commitPublish id outcome now =>
      obtain ⟨request, hfound, hcommit⟩ := Option.bind_eq_some_iff.mp hstep
      obtain ⟨hrequest, hid⟩ := Table.find?_eq_some_iff.mp hfound
      obtain ⟨-, -, -, loaded, hphase, hstatus⟩ := commitPublish_cases hcommit
      by_cases hkept : outcome = .failed ∨ loaded = .published
      · rw [if_pos hkept] at hstatus
        refine hstay hstatus ?_
        intro happlied _ other hother hsame
        obtain rfl := Table.eq_of_key_eq hother hrequest (hsame.trans hid.symm)
        rw [hphase, hkept.resolve_left happlied]
      · rw [if_neg hkept] at hstatus
        rw [not_or] at hkept
        have hspares : sparesClosed s (.commitPublish id outcome now) ↔
            s.row.status ≠ .closed := by
          constructor
          · intro hok hclosed
            have hloaded := hok hkept.1 hclosed request hrequest hid
            rw [hphase] at hloaded
            exact hkept.2 (StatusPhase.reloaded.inj hloaded)
          · exact fun hopen _ hclosed => absurd hclosed hopen
        rw [hspares, hstatus]
        cases s.row.status <;> decide
  | close actor =>
      refine hstay ?_ trivial
      rw [(close_cases hstep).1]
  | commitClose id outcome now =>
      obtain ⟨request, hfound, hcommit⟩ := Option.bind_eq_some_iff.mp hstep
      obtain ⟨hrequest, -⟩ := Table.find?_eq_some_iff.mp hfound
      obtain ⟨hlocked, -, hstatus⟩ := commitClose_cases hcommit
      -- the row has not changed since the close locked it
      have hpublished := (hheld request hrequest hlocked).2
      refine iff_of_true ?_ trivial
      rcases hstatus with hsame | hclosed
      · exact Or.inl hsame.symm
      · exact Or.inr (Or.inr ⟨hpublished, hclosed⟩)
  | die id =>
      obtain ⟨request, -, rfl⟩ := Option.map_eq_some_iff.mp hstep
      exact hstay rfl trivial

theorem lockHeld_of_reach {ok : Condition ChallengeService StatusAction}
    (hreach : challengeService.Reach ok s) : s.LockHeld := by
  refine hreach.invariant ?_ (fun s a t hs _ hstep => hs.step hstep)
  intro s hstart request hrequest
  rw [Table.mem_iff, hstart.2] at hrequest
  exact absurd hrequest List.not_mem_nil

/-- **The status moves forward.**  Along every run in which no publish writes the
status of a CLOSED challenge, the committed status never moves back; and from
every state of such a run, a step moves it along draft, published, closed
exactly when it is no such publish. -/
theorem status_advances (hreach : challengeService.Reach sparesClosed s) :
    (∀ s', challengeService.Path sparesClosed s s' → s.row.status.rank ≤ s'.row.status.rank) ∧
    ∀ a s', s.step a = some s' → (s.row.status.Advances s'.row.status ↔ sparesClosed s a) := by
  constructor
  · intro s' hpath
    refine hreach.path_mono (f := fun s => s.row.status.rank) ?_ hpath
    intro t a u ht hok hstep
    exact ((advances_iff (lockHeld_of_reach ht) hstep).mpr hok).rank_le
  · exact fun a s' hstep => advances_iff (lockHeld_of_reach hreach) hstep

/-- The organizer of the examples. -/
def organizer : Actor := ⟨1, .organizer⟩

/-- A draft challenge of that organizer, ready to be published. -/
def draftChallenge : ChallengeService where
  row :=
    { status := .draft
      specificationBody := "Sort the input."
      evaluationCriteria := [("Correctness", "All tests pass.", 1)]
      updatedAt := 0 }
  organizerId := some 1
  lock := none
  requests := Table.empty
  replies := []
  nextUuid := 0

/-- Two publishes read DRAFT; the first commits, and the challenge is closed. -/
def closedRun : List StatusAction :=
  [.publish organizer, .publish organizer, .reload 0 false, .commitPublish 0 .ok 10,
   .close organizer, .commitClose 2 .ok 20]

/-- The second publish goes on. -/
def latePublish : List StatusAction := [.reload 1 false, .commitPublish 1 .ok 30]

/-- `status_advances` up to the close, and on to a further close request. -/
theorem status_advances_closed :
    ∃ s s', challengeService.Reach sparesClosed s ∧ challengeService.Path sparesClosed s s' ∧
      s.row.status = .closed ∧ s.row.status.rank ≤ s'.row.status.rank := by
  obtain ⟨s, hreach, htest⟩ : ∃ s, challengeService.Reach sparesClosed s ∧
      (decide (s.row.status = .closed) &&
        (challengeService.run sparesClosed s [.die 1, .close organizer]).isSome) = true :=
    System.reach_of_test draftChallenge closedRun _ ⟨rfl, rfl⟩ (by decide)
  obtain ⟨hclosed, hrun⟩ := Bool.and_eq_true_iff.mp htest
  obtain ⟨s', hrun⟩ := Option.isSome_iff_exists.mp hrun
  have hpath := System.path_of_run hrun
  exact ⟨s, s', hreach, hpath, of_decide_eq_true hclosed, (status_advances hreach).1 s' hpath⟩

/-- **A closed challenge is reopened.**  The committed status goes from CLOSED
back to PUBLISHED. -/
theorem published_after_close :
    ∃ s s', challengeService.Reach always s ∧ challengeService.Path always s s' ∧
      s.row.status = .closed ∧ s'.row.status = .published := by
  obtain ⟨s, hreach, htest⟩ : ∃ s, challengeService.Reach always s ∧
      (decide (s.row.status = .closed) &&
        (challengeService.run always s latePublish).any (fun s' =>
          decide (s'.row.status = .published))) = true :=
    System.reach_of_test draftChallenge closedRun _ ⟨rfl, rfl⟩ (by decide)
  obtain ⟨hclosed, hreopened⟩ := Bool.and_eq_true_iff.mp htest
  obtain ⟨s', hrun, hpublished⟩ := (Option.any_eq_true ..).mp hreopened
  exact ⟨s, s', hreach, System.path_of_run hrun, of_decide_eq_true hclosed,
    of_decide_eq_true hpublished⟩

end ChallengeService

end ChallengeForge
