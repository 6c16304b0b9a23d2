import ChallengeForge.SubmissionRequests

/-!
# How a request of the service moves on

`Effect` says what a step does to the database and the storage.  The results about
replies also need to know which phase a request was in, and what it answers:

* `Served` — one call of a request in progress, with the reply it may lead to;
* `served_of_step` — every step that names a request is such a call;
* `edit_of_update`, `edit_of_attach` — the first step of an edit;
* `Unserved` — what the steps of edits and transitions that name no request have in
  common.
-/

namespace ChallengeForge

open Keyed

/-- The row of the request is not written yet. -/
def Phase.pending : Phase → Bool
  | .publishing => true
  | .committing => true
  | _ => false

/-- A reply that reports a create. -/
def Reply.reportsCreation : Reply → Bool
  | created .. => true
  | _ => false

/-- The request in progress whose call an action is. -/
def ServiceAction.request : ServiceAction → Option UUID
  | .publish id _ | .commit id _ _ | .compensate id _ | .drop id _ | .enqueue id _ _ | .die id =>
      some id
  | .create .. | .updateCreated .. | .attachIncoming .. | .submit .. | .cancel .. => none

/-- Who sends the request that an action starts. -/
def ServiceAction.requester : ServiceAction → Option UUID
  | .create actor .. | .updateCreated actor .. | .attachIncoming actor .. => some actor.id
  | _ => none

namespace Service

/-- One call of the request `q`. -/
inductive Served (cfg : SubmissionConfig) (s : Service) (q : Request) : Service → Prop
  | published (storage : Storage) (hphase : q.phase = .publishing) :
      Served cfg s q ({ s with storage := storage }.proceed q (some .committing) .raised)
  | unpublished (storage : Storage) (hphase : q.phase = .publishing) :
      Served cfg s q ({ s with storage := storage }.proceed q none .raised)
  /-- The commit raises and nothing is applied. -/
  | rejected (integrity : Bool) (hphase : q.phase = .committing) :
      Served cfg s q (s.proceed q (some (.compensating integrity)) .raised)
  | inserted {outcome now new submissions} (hphase : q.phase = .committing)
      (hwork : q.work = .insert new)
      (hadd : s.submissions.add s.nextUuid new q.newKey now = some submissions) :
      Served cfg s q ({ s with
        submissions := submissions
        nextUuid := s.nextUuid + 1 }.proceed q (q.afterWrite cfg outcome s.nextUuid)
          (q.successReply s.nextUuid))
  | flushed {outcome now loaded metadata} (hphase : q.phase = .committing)
      (hwork : q.work = .rewrite loaded metadata) :
      Served cfg s q ({ s with
        submissions := s.submissions.flushEdit loaded (q.edited loaded metadata) now }.proceed q
          (q.afterWrite cfg outcome loaded.id) (q.successReply loaded.id))
  | compensated {integrity} (outcome : CallOutcome) (hphase : q.phase = .compensating integrity) :
      Served cfg s q ((s.deleteArtifact q.newKey outcome).proceed q none
        (s.failureReply cfg q integrity))
  | dropped {submissionId} (outcome : CallOutcome) (hphase : q.phase = .dropping submissionId) :
      Served cfg s q ((s.deleteArtifact q.replacedKey outcome).proceed q
        (q.afterDrop cfg submissionId) (q.successReply submissionId))
  /-- The job of the new artifact; its commit may be applied and raise. -/
  | enqueued {submissionId} (jobs : IngestionJobs) (acknowledged : Bool)
      (hphase : q.phase = .enqueueing submissionId) :
      Served cfg s q ({ s with
        ingestionJobs := jobs
        nextUuid := s.nextUuid + 1 }.proceed q none
          (if acknowledged then q.successReply submissionId else .raised))
  | unqueued {submissionId} (hphase : q.phase = .enqueueing submissionId) :
      Served cfg s q (s.proceed q none .raised)
  | died : Served cfg s q (s.die q)

variable {cfg : SubmissionConfig} {s s' : Service} {q : Request} {a : ServiceAction}

/-- `publish` serves its request. -/
theorem served_of_publish {outcome : CallOutcome} (h : s.publish q outcome = some s') :
    Served cfg s q s' := by
  unfold publish at h
  split at h
  · rename_i key blob hphase hupload
    obtain rfl := Option.some.inj h
    by_cases hok : outcome = .ok
    · rw [if_pos hok]
      exact .published _ hphase
    · rw [if_neg hok]
      exact .unpublished _ hphase
  · cases h

/-- `commit` serves its request. -/
theorem served_of_commit {outcome : CallOutcome} {now : Timestamp}
    (h : s.commit cfg q outcome now = some s') : Served cfg s q s' := by
  unfold commit at h
  split at h
  · cases h
  rename_i hphase
  rw [not_not] at hphase
  split at h
  · obtain rfl := Option.some.inj h
    exact .rejected false hphase
  split at h
  · rename_i new hwork
    split at h
    · obtain rfl := Option.some.inj h
      exact .rejected true hphase
    · rename_i submissions hadd
      obtain rfl := Option.some.inj h
      exact .inserted hphase hwork hadd
  · rename_i loaded metadata hwork
    obtain rfl := Option.some.inj h
    exact .flushed hphase hwork

/-- `enqueue` serves its request. -/
theorem served_of_enqueue {outcome : CallOutcome} {now : Timestamp}
    (h : s.enqueue q outcome now = some s') : Served cfg s q s' := by
  unfold enqueue at h
  split at h
  · rename_i submissionId key hphase hkey
    split at h
    · obtain rfl := Option.some.inj h
      exact .unqueued hphase
    · obtain rfl := Option.some.inj h
      exact .unqueued hphase
    · rename_i outcome _ _ jobs _ _
      obtain rfl := Option.some.inj h
      have hserved : Served cfg s q _ := .enqueued jobs (decide (outcome = .ok)) hphase
      simpa only [decide_eq_true_eq] using hserved
  · cases h

/-- The deletion of a replaced blob serves its request. -/
theorem served_of_drop {outcome : CallOutcome} (h : s.drop cfg q outcome = some s') :
    Served cfg s q s' := by
  unfold drop at h
  split at h
  · rename_i submissionId hphase
    obtain rfl := Option.some.inj h
    exact .dropped outcome hphase
  · cases h

/-- **Inversion.**  A step that names a request is one of its calls. -/
theorem served_of_step {id : UUID} (hid : a.request = some id) (h : s.step cfg a = some s') :
    ∃ q ∈ s.requests, q.id = id ∧ Served cfg s q s' := by
  have hcall : ∀ {call : Request → Option Service},
      (∀ q, call q = some s' → Served cfg s q s') → (s.requests.find? id).bind call = some s' →
      ∃ q ∈ s.requests, q.id = id ∧ Served cfg s q s' := by
    intro call hserved hbind
    obtain ⟨q, hfound, hq⟩ := Option.bind_eq_some_iff.mp hbind
    exact ⟨q, Table.mem_of_find? hfound, Table.key_of_find? hfound, hserved q hq⟩
  cases a with
  | create | updateCreated | attachIncoming | submit | cancel => cases hid
  | publish id' outcome =>
      cases hid
      exact hcall (fun _ hq => served_of_publish hq) h
  | commit id' outcome now =>
      cases hid
      exact hcall (fun _ hq => served_of_commit hq) h
  | compensate id' outcome =>
      cases hid
      refine hcall (fun q hq => ?_) h
      obtain ⟨integrity, hphase, rfl⟩ := compensate_eq_some hq
      exact .compensated outcome hphase
  | drop id' outcome =>
      cases hid
      exact hcall (fun _ hq => served_of_drop hq) h
  | enqueue id' outcome now =>
      cases hid
      exact hcall (fun _ hq => served_of_enqueue hq) h
  | die id' =>
      cases hid
      obtain ⟨q, hfound, rfl⟩ := Option.map_eq_some_iff.mp h
      exact ⟨q, Table.mem_of_find? hfound, Table.key_of_find? hfound, .died⟩

/-- The requests in progress after one of `s` has moved on, in whatever state. -/
theorem mem_of_proceed {t : Service} {other : Request} {phase : Option Phase} {reply : Reply}
    (hsame : t.requests = s.requests) (hq : q ∈ s.requests)
    (hother : other ∈ (t.proceed q phase reply).requests) :
    (other ∈ s.requests ∧ other.id ≠ q.id) ∨
      ∃ next, phase = some next ∧ other = { q with phase := next } := by
  rw [← hsame] at hq ⊢
  exact (mem_proceed hq).mp hother

/-- A call leaves the other requests. -/
theorem Served.requests (h : Served cfg s q s') (hq : q ∈ s.requests) : ∀ other ∈ s'.requests,
    (other ∈ s.requests ∧ other.id ≠ q.id) ∨ ∃ next, other = { q with phase := next } := by
  have hproceed : ∀ {t : Service} {phase : Option Phase} {reply : Reply},
      t.requests = s.requests → ∀ other ∈ (t.proceed q phase reply).requests,
      (other ∈ s.requests ∧ other.id ≠ q.id) ∨ ∃ next, other = { q with phase := next } := by
    intro t phase reply hsame other hother
    rcases mem_of_proceed hsame hq hother with hold | ⟨next, _, hnext⟩
    · exact Or.inl hold
    · exact Or.inr ⟨next, hnext⟩
  cases h with
  | died =>
      intro other hother
      obtain ⟨hold, hne⟩ := Table.mem_delete.mp hother
      exact Or.inl ⟨hold, of_decide_eq_false hne⟩
  | compensated _ _ => exact hproceed deleteArtifact_requests
  | dropped _ _ => exact hproceed deleteArtifact_requests
  | _ => exact hproceed rfl

/-- Ids are drawn upwards. -/
theorem Served.nextUuid (h : Served cfg s q s') : s.nextUuid ≤ s'.nextUuid := by
  cases h with
  | died => exact Nat.le_refl _
  | inserted _ _ _ =>
      rw [proceed_nextUuid]
      exact Nat.le_add_right _ 1
  | enqueued _ _ _ =>
      rw [proceed_nextUuid]
      exact Nat.le_add_right _ 1
  | compensated _ _ => rw [proceed_nextUuid, deleteArtifact_nextUuid]
  | dropped _ _ => rw [proceed_nextUuid, deleteArtifact_nextUuid]
  | _ => rw [proceed_nextUuid]

/-- The call of an edit inserts no row. -/
theorem Served.identities {loaded : SubmissionRow} {metadata : JsonDict}
    (h : Served cfg s q s') (hwork : q.work = .rewrite loaded metadata) :
    s'.submissions.identities = s.submissions.identities := by
  cases h with
  | died => rfl
  | inserted _ hinsert _ => exact absurd (hwork.symm.trans hinsert) (by simp)
  | flushed _ _ => rw [proceed_submissions, Submissions.identities_flushEdit]
  | compensated _ _ => rw [proceed_submissions, deleteArtifact_submissions]
  | dropped _ _ => rw [proceed_submissions, deleteArtifact_submissions]
  | _ => rw [proceed_submissions]

/-- What the call of an edit answers. -/
theorem Served.replies {loaded : SubmissionRow} {metadata : JsonDict}
    (h : Served cfg s q s') (hwork : q.work = .rewrite loaded metadata) :
    ∃ sent : List (UUID × Reply), s'.replies = sent ++ s.replies ∧
      ∀ x ∈ sent, x.2.reportsCreation = false := by
  have hproceed : ∀ {t : Service} {phase : Option Phase} {reply : Reply},
      t.replies = s.replies → reply.reportsCreation = false →
      ∃ sent : List (UUID × Reply), (t.proceed q phase reply).replies = sent ++ s.replies ∧
        ∀ x ∈ sent, x.2.reportsCreation = false := by
    intro t phase reply hsame hreply
    cases phase with
    | some next => exact ⟨[], hsame, by simp⟩
    | none => exact ⟨[(q.id, reply)], congrArg (List.cons _) hsame, by simpa using hreply⟩
  have hsuccess : ∀ submissionId, (q.successReply submissionId).reportsCreation = false := by
    intro submissionId
    unfold Request.successReply
    rw [hwork]
    rfl
  have hdelete : ∀ {key : Option ArtifactKey} {outcome : CallOutcome},
      (s.deleteArtifact key outcome).replies = s.replies := by
    intro key outcome
    unfold deleteArtifact
    split <;> rfl
  cases h with
  | died => exact ⟨[], rfl, by simp⟩
  | inserted _ _ _ => exact hproceed rfl (hsuccess _)
  | flushed _ _ => exact hproceed rfl (hsuccess _)
  | compensated _ _ =>
      refine hproceed hdelete ?_
      unfold failureReply
      rw [hwork]
      rfl
  | dropped _ _ => exact hproceed hdelete (hsuccess _)
  | enqueued _ acknowledged _ =>
      refine hproceed rfl ?_
      split
      · exact hsuccess _
      · rfl
  | _ => exact hproceed rfl rfl

/-! ## The first step of an edit -/

/-- An edit is refused, or goes on with the row it has loaded, which is its actor's. -/
inductive EditStarted (s : Service) (actorId : UUID) : Service → Prop
  | refused (e : DomainError) : EditStarted s actorId (s.answer (.refused e))
  | started {s' loaded metadata upload} (hloaded : loaded ∈ s.submissions)
      (howner : loaded.participantId = actorId)
      (hstart : s.startRequest (.rewrite loaded metadata) upload = some s') :
      EditStarted s actorId s'

/-- `update_created` starts an edit or answers at once. -/
theorem edit_of_update {actor : Actor} {submissionId : UUID} {metadata : Option JsonDict}
    {upload : Option Upload}
    (h : s.updateCreated cfg actor submissionId metadata upload = some s') :
    EditStarted s actor.id s' := by
  unfold updateCreated at h
  split at h
  · obtain rfl := Option.some.inj h
    exact .refused _
  · rename_i loaded payload hcheck
    obtain ⟨hmem, howner⟩ := of_checkUpdate hcheck
    exact .started hmem howner h

/-- `attach_incoming` starts an edit or answers at once. -/
theorem edit_of_attach {actor : Actor} {submissionId : UUID} {incoming : Upload}
    (h : s.attachIncoming cfg actor submissionId incoming = some s') :
    EditStarted s actor.id s' := by
  unfold attachIncoming at h
  split at h
  · obtain rfl := Option.some.inj h
    exact .refused _
  · rename_i loaded payload hcheck
    obtain ⟨hmem, howner⟩ := of_checkUpdate hcheck
    exact .started hmem howner h

/-! ## Steps that serve no request in progress -/

/-- No row is inserted, and what starts is an edit. -/
structure Unserved (s s' : Service) : Prop where
  identities : s'.submissions.identities = s.submissions.identities
  requests : ∀ q ∈ s'.requests, q ∈ s.requests ∨
    q.id = s.nextUuid ∧ q.id < s'.nextUuid ∧ ∃ loaded metadata, q.work = .rewrite loaded metadata
  replies : ∃ sent : List (UUID × Reply), s'.replies = sent ++ s.replies ∧
    ∀ x ∈ sent, x.2.reportsCreation = false
  nextUuid : s.nextUuid ≤ s'.nextUuid

/-- An answer that reports no creation serves nothing. -/
theorem Unserved.of_answer {reply : Reply} (hreply : reply.reportsCreation = false) :
    Unserved s (s.answer reply) where
  identities := rfl
  requests := fun _ hq => Or.inl hq
  replies := ⟨[(s.nextUuid, reply)], rfl, by simpa using hreply⟩
  nextUuid := Nat.le_add_right _ 1

/-- Starting an edit serves nothing yet. -/
theorem EditStarted.unserved {actorId : UUID} (h : EditStarted s actorId s') : Unserved s s' := by
  cases h with
  | refused e => exact .of_answer rfl
  | @started _ loaded metadata _ _ _ hstart =>
      obtain ⟨hmem, hrows, _, _, huuid⟩ := mem_startRequest hstart
      have hreplies : s'.replies = s.replies := by
        obtain ⟨requests, _, rfl⟩ := Option.map_eq_some_iff.mp hstart
        rfl
      refine ⟨by rw [hrows], ?_, ⟨[], hreplies, by simp⟩, huuid ▸ Nat.le_add_right _ 2⟩
      intro q hq
      rcases (hmem q).mp hq with hold | rfl
      · exact Or.inl hold
      · have hdrawn : s.nextUuid < s'.nextUuid := huuid ▸ Nat.lt_add_of_pos_right (by decide)
        exact Or.inr ⟨rfl, hdrawn, loaded, metadata, rfl⟩

/-- `submit` serves none of the pending requests. -/
theorem unserved_of_submit {actor : Actor} {submissionId : UUID} {outcome : CallOutcome}
    {now : Timestamp} (h : s.submit cfg actor submissionId outcome now = some s') :
    Unserved s s' := by
  unfold submit at h
  split at h
  · obtain rfl := Option.some.inj h
    exact .of_answer rfl
  split at h
  · rename_i row submissions hrow
    dsimp only at h
    split at h
    · obtain rfl := Option.some.inj h
      exact .of_answer rfl
    · obtain rfl := Option.some.inj h
      exact .of_answer rfl
    · obtain rfl := Option.some.inj h
      refine ⟨Submissions.identities_of_transition hrow, fun _ hq => Or.inl hq,
        ⟨[_], rfl, ?_⟩, Nat.le_add_right _ 2⟩
      intro x hx
      rw [List.mem_singleton.mp hx]
      dsimp only
      split <;> rfl
  · repeat' split at h
    all_goals
      obtain rfl := Option.some.inj h
      exact .of_answer rfl

/-- `cancel` serves none of the pending requests. -/
theorem unserved_of_cancel {actor : Actor} {submissionId : UUID} {outcome : CallOutcome}
    {now : Timestamp} (h : s.cancel actor submissionId outcome now = some s') :
    Unserved s s' := by
  unfold cancel at h
  split at h
  · obtain rfl := Option.some.inj h
    exact .of_answer rfl
  · rename_i hrow _
    obtain rfl := Option.some.inj h
    refine ⟨Submissions.identities_of_transition hrow, fun _ hq => Or.inl hq,
      ⟨[_], rfl, ?_⟩, Nat.le_add_right _ 1⟩
    intro x hx
    rw [List.mem_singleton.mp hx]
    dsimp only
    split <;> rfl
  · repeat' split at h
    all_goals
      obtain rfl := Option.some.inj h
      exact .of_answer rfl

end Service

end ChallengeForge
