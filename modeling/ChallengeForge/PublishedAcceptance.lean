import ChallengeForge.AcceptanceGate

/-!
# Submissions are accepted while their challenge is published

* `Tickets` — where a create stands: it waits for its lock, or goes on with it, or
  has been answered, and it inserts at most one row;
* `Gate` — the challenge of a create that holds its lock stays PUBLISHED;
* `accepted_while_published` — over every interleaving of creates, publishes and
  closes, every row is committed while its challenge is PUBLISHED; a create whose
  locking read returns another status inserts nothing, and neither does a replay.
-/

namespace ChallengeForge

open Keyed Labelled

/-- The request has no row in the table, and knows. -/
def Request.uninserted (q : Request) : Bool :=
  q.phase.pending || decide (q.phase = .compensating true)

/-- The columns of the row that the create has inserted. -/
def Creation.identity (c : Creation) : SubmissionIdentity := c.new.identity c.submissionId

namespace Acceptance

variable {cfg : SubmissionConfig} {s s' : Acceptance} {a : AcceptanceAction}

/-- Every id that is in use was drawn, and none is used twice. -/
structure Tickets (s : Acceptance) : Prop where
  waiting : ∀ w ∈ s.waiting, w.id < s.service.nextUuid
  answered : ∀ r ∈ s.responses, r.requestId < s.service.nextUuid
  drawn : ∀ g ∈ s.grants, g.1 < s.service.nextUuid
  once : (s.responses.map Response.requestId).Nodup
  grantedOnce : (s.grants.map Prod.fst).Nodup
  ungranted : ∀ w ∈ s.waiting, ∀ g ∈ s.grants, g.1 ≠ w.id
  unanswered : ∀ w ∈ s.waiting, ∀ r ∈ s.responses, r.requestId ≠ w.id
  /-- A create that goes on has been granted its lock, and is not answered. -/
  requests : ∀ q ∈ s.service.requests, ∀ new, q.work = .insert new →
    (q.id, some ChallengeStatus.published) ∈ s.grants ∧ ∀ r ∈ s.responses, r.requestId ≠ q.id
  uninserted : ∀ q ∈ s.service.requests, ∀ new, q.work = .insert new → q.uninserted = true →
    ∀ c ∈ s.creations, c.requestId ≠ q.id
  creations : ∀ c ∈ s.creations, (c.requestId, some ChallengeStatus.published) ∈ s.grants
  replays : ∀ r ∈ s.responses, ∀ submissionId, r.reply = .created submissionId true →
    ∀ c ∈ s.creations, c.requestId ≠ r.requestId

namespace Tickets

/-- The id of a creation was drawn. -/
theorem creation_lt (h : Tickets s) {c : Creation} (hc : c ∈ s.creations) :
    c.requestId < s.service.nextUuid := h.drawn _ (h.creations c hc)

/-- A create that waits has not inserted anything. -/
theorem creation_ne (h : Tickets s) {w : WaitingCreate} (hw : w ∈ s.waiting) {c : Creation}
    (hc : c ∈ s.creations) : c.requestId ≠ w.id := h.ungranted w hw _ (h.creations c hc)

/-- Requests go on or end, and nothing is recorded. -/
theorem frame (h : Tickets s) (huuid : s.service.nextUuid ≤ s'.service.nextUuid)
    (hwaiting : ∀ w ∈ s'.waiting, w ∈ s.waiting) (hgrants : s'.grants = s.grants)
    (hresponses : s'.responses = s.responses) (hcreations : s'.creations = s.creations)
    (hrequests : ∀ q ∈ s'.service.requests, ∀ new, q.work = .insert new →
      ∃ before ∈ s.service.requests, before.id = q.id ∧ before.work = q.work ∧
        (q.uninserted = true → before.uninserted = true)) : Tickets s' := by
  refine ⟨?_, ?_, ?_, hresponses ▸ h.once, hgrants ▸ h.grantedOnce, ?_, ?_, ?_, ?_, ?_, ?_⟩
  · exact fun w hw => Nat.lt_of_lt_of_le (h.waiting w (hwaiting w hw)) huuid
  · rw [hresponses]
    exact fun r hr => Nat.lt_of_lt_of_le (h.answered r hr) huuid
  · rw [hgrants]
    exact fun g hg => Nat.lt_of_lt_of_le (h.drawn g hg) huuid
  · rw [hgrants]
    exact fun w hw => h.ungranted w (hwaiting w hw)
  · rw [hresponses]
    exact fun w hw => h.unanswered w (hwaiting w hw)
  · intro q hq new hwork
    obtain ⟨before, hbefore, hid, hsame, _⟩ := hrequests q hq new hwork
    rw [hgrants, hresponses, ← hid]
    exact h.requests before hbefore new (hsame.trans hwork)
  · intro q hq new hwork hun
    obtain ⟨before, hbefore, hid, hsame, hstill⟩ := hrequests q hq new hwork
    rw [hcreations, ← hid]
    exact h.uninserted before hbefore new (hsame.trans hwork) (hstill hun)
  · rw [hcreations, hgrants]
    exact h.creations
  · rw [hresponses, hcreations]
    exact h.replays

/-- A create is answered. -/
theorem respond {r : Response} (h : Tickets s) (huuid : s'.service.nextUuid = s.service.nextUuid)
    (hrequests : s'.service.requests = s.service.requests) (hwaiting : s'.waiting = s.waiting)
    (hgrants : s'.grants = s.grants) (hcreations : s'.creations = s.creations)
    (hresponses : s'.responses = r :: s.responses) (hdrawn : r.requestId < s.service.nextUuid)
    (hnew : ∀ other ∈ s.responses, other.requestId ≠ r.requestId)
    (hleft : ∀ w ∈ s.waiting, r.requestId ≠ w.id)
    (hover : ∀ q ∈ s.service.requests, ∀ new, q.work = .insert new → r.requestId ≠ q.id)
    (hreplay : ∀ submissionId, r.reply = .created submissionId true →
      ∀ c ∈ s.creations, c.requestId ≠ r.requestId) : Tickets s' := by
  refine ⟨?_, ?_, ?_, ?_, hgrants ▸ h.grantedOnce, ?_, ?_, ?_, ?_, ?_, ?_⟩
  · rw [hwaiting, huuid]
    exact h.waiting
  · rw [hresponses, huuid]
    exact List.forall_mem_cons.mpr ⟨hdrawn, h.answered⟩
  · rw [hgrants, huuid]
    exact h.drawn
  · rw [hresponses, List.map_cons, List.nodup_cons]
    refine ⟨?_, h.once⟩
    intro hmem
    obtain ⟨other, hother, hid⟩ := List.mem_map.mp hmem
    exact hnew other hother hid
  · rw [hwaiting, hgrants]
    exact h.ungranted
  · rw [hwaiting, hresponses]
    exact fun w hw => List.forall_mem_cons.mpr ⟨hleft w hw, h.unanswered w hw⟩
  · rw [hrequests, hgrants, hresponses]
    intro q hq new hwork
    obtain ⟨hgranted, hopen⟩ := h.requests q hq new hwork
    exact ⟨hgranted, List.forall_mem_cons.mpr ⟨hover q hq new hwork, hopen⟩⟩
  · rw [hrequests, hcreations]
    exact h.uninserted
  · rw [hcreations, hgrants]
    exact h.creations
  · rw [hresponses, hcreations]
    exact List.forall_mem_cons.mpr ⟨hreplay, h.replays⟩

/-- A locking read returns, to a create that has left the queue. -/
theorem grant {g : UUID × Option ChallengeStatus} (h : Tickets s)
    (hdrawn : g.1 < s.service.nextUuid) (hnew : ∀ other ∈ s.grants, other.1 ≠ g.1)
    (hleft : ∀ w ∈ s.waiting, g.1 ≠ w.id) : Tickets { s with grants := g :: s.grants } where
  waiting := h.waiting
  answered := h.answered
  drawn := List.forall_mem_cons.mpr ⟨hdrawn, h.drawn⟩
  once := h.once
  grantedOnce := by
    rw [List.map_cons, List.nodup_cons]
    refine ⟨?_, h.grantedOnce⟩
    intro hmem
    obtain ⟨other, hother, hid⟩ := List.mem_map.mp hmem
    exact hnew other hother hid
  ungranted := fun w hw => List.forall_mem_cons.mpr ⟨hleft w hw, h.ungranted w hw⟩
  unanswered := h.unanswered
  requests := by
    intro q hq new hwork
    obtain ⟨hgranted, hopen⟩ := h.requests q hq new hwork
    exact ⟨List.mem_cons_of_mem _ hgranted, hopen⟩
  uninserted := h.uninserted
  creations := fun c hc => List.mem_cons_of_mem _ (h.creations c hc)
  replays := h.replays

/-- A create holds its lock. -/
theorem accept {w : WaitingCreate} (h : Tickets s) (hw : w ∈ s.waiting)
    {requests : Table Request Request.id}
    (hinsert : s.service.requests.insert (s.accepted w) = some requests) :
    Tickets { s.leave w with
      grants := (w.id, some .published) :: s.grants
      service := { s.service with requests := requests, nextUuid := s.service.nextUuid + 2 } } := by
  have hleft : ∀ other ∈ (s.leave w).waiting, w.id ≠ other.id := fun other hother =>
    Ne.symm (of_decide_eq_false (Table.mem_delete.mp hother).2)
  have hbase : Tickets (s.leave w) :=
    h.frame (Nat.le_refl _) (fun other hother => (Table.mem_delete.mp hother).1) rfl rfl rfl
      (fun q hq new hwork => ⟨q, hq, rfl, rfl, id⟩)
  have hgrant : Tickets { s.leave w with grants := (w.id, some .published) :: s.grants } :=
    hbase.grant (h.waiting w hw) (h.ungranted w hw) hleft
  have hmem : ∀ q, q ∈ requests ↔ q ∈ s.service.requests ∨ q = s.accepted w :=
    fun q => Table.mem_of_insert hinsert
  have hmore : s.service.nextUuid ≤ s.service.nextUuid + 2 := Nat.le_add_right _ 2
  refine ⟨fun v hv => Nat.lt_of_lt_of_le (hgrant.waiting v hv) hmore,
    fun r hr => Nat.lt_of_lt_of_le (hgrant.answered r hr) hmore,
    fun g hg => Nat.lt_of_lt_of_le (hgrant.drawn g hg) hmore, hgrant.once, hgrant.grantedOnce,
    hgrant.ungranted, hgrant.unanswered, ?_, ?_, hgrant.creations, hgrant.replays⟩
  · intro q hq new hwork
    rcases (hmem q).mp hq with hold | rfl
    · exact hgrant.requests q hold new hwork
    · exact ⟨List.mem_cons_self, h.unanswered w hw⟩
  · intro q hq new hwork hun
    rcases (hmem q).mp hq with hold | rfl
    · exact hgrant.uninserted q hold new hwork hun
    · exact fun c hc => h.creation_ne hw hc

/-- A row is inserted, and its request does not insert again. -/
theorem insert {q : Request} {new : NewSubmission} {service : Service} (h : Tickets s)
    (hq : q ∈ s.service.requests) (hwork : q.work = .insert new)
    (submissionId : UUID) (huuid : s.service.nextUuid ≤ service.nextUuid)
    (hrequests : ∀ other ∈ service.requests,
      (other ∈ s.service.requests ∧ other.id ≠ q.id) ∨
      ∃ next, other = { q with phase := next } ∧ other.uninserted = false) :
    Tickets { s with
      service := service
      creations := ⟨submissionId, q.id, new⟩ :: s.creations } := by
  obtain ⟨hgranted, hopen⟩ := h.requests q hq new hwork
  refine ⟨fun w hw => Nat.lt_of_lt_of_le (h.waiting w hw) huuid,
    fun r hr => Nat.lt_of_lt_of_le (h.answered r hr) huuid,
    fun g hg => Nat.lt_of_lt_of_le (h.drawn g hg) huuid, h.once, h.grantedOnce, h.ungranted,
    h.unanswered, ?_, ?_, List.forall_mem_cons.mpr ⟨hgranted, h.creations⟩, ?_⟩
  · intro other hother new' hwork'
    rcases hrequests other hother with ⟨hold, _⟩ | ⟨next, rfl, _⟩
    · exact h.requests other hold new' hwork'
    · exact h.requests q hq new' hwork'
  · intro other hother new' hwork' hstill
    rcases hrequests other hother with ⟨hold, hne⟩ | ⟨next, rfl, hno⟩
    · exact List.forall_mem_cons.mpr ⟨Ne.symm hne, h.uninserted other hold new' hwork' hstill⟩
    · rw [hno] at hstill
      cases hstill
  · intro r hr submissionId' hreply
    exact List.forall_mem_cons.mpr ⟨Ne.symm (hopen r hr), h.replays r hr submissionId' hreply⟩

end Tickets

/-- A request that goes on has not inserted before either. -/
theorem uninserted_of_goesOn {q : Request} {next : Phase} (h : GoesOn q next)
    (hun : Request.uninserted { q with phase := next } = true) : q.uninserted = true := by
  cases h with
  | published hphase => simp [Request.uninserted, hphase, Phase.pending]
  | rejected integrity hphase => simp [Request.uninserted, hphase, Phase.pending]
  | dropped hphase => simp [Request.uninserted, Phase.pending] at hun

/-- After its write a request has inserted. -/
theorem not_uninserted_of_afterWrite {q : Request} {outcome : CallOutcome} {submissionId : UUID}
    {next : Phase} (h : q.afterWrite cfg outcome submissionId = some next) :
    Request.uninserted { q with phase := next } = false := by
  rcases Request.afterWrite_cases h with rfl | rfl | rfl <;> rfl

/-- The rows of a step that serves an edit or a transition. -/
theorem before_of_other {service : Service} (h : Service.Unserved s.service service) :
    ∀ q ∈ service.requests, ∀ new, q.work = .insert new → q ∈ s.service.requests := by
  intro q hq new hwork
  rcases h.requests q hq with hold | ⟨_, _, loaded, metadata, hrewrite⟩
  · exact hold
  · rw [hwork] at hrewrite
    cases hrewrite

/-- A move draws its ids. -/
theorem tickets_of_moved (h : Tickets s) (hmoved : Moved cfg s a s') : Tickets s' := by
  have hnone : ∀ q ∈ s.service.requests, ∀ new, q.work = .insert new →
      ∃ before ∈ s.service.requests, before.id = q.id ∧ before.work = q.work ∧
        (q.uninserted = true → before.uninserted = true) :=
    fun q hq _ _ => ⟨q, hq, rfl, rfl, id⟩
  have hleave : ∀ w, Tickets (s.leave w) := fun w =>
    h.frame (Nat.le_refl _) (fun other hother => (Table.mem_delete.mp hother).1) rfl rfl rfl hnone
  have hleft : ∀ w, ∀ other ∈ (s.leave w).waiting, w.id ≠ other.id := fun w other hother =>
    Ne.symm (of_decide_eq_false (Table.mem_delete.mp hother).2)
  cases hmoved with
  | answered hnew hlookup =>
      have hbump : Tickets
          { s with service := { s.service with nextUuid := s.service.nextUuid + 1 } } :=
        h.frame (Nat.le_add_right _ 1) (fun _ hw => hw) rfl rfl rfl hnone
      refine hbump.respond rfl rfl rfl rfl rfl rfl (Nat.lt_add_one _) ?_ ?_ ?_ ?_
      · exact fun r hr => Nat.ne_of_lt (h.answered r hr)
      · exact fun w hw => Nat.ne_of_gt (h.waiting w hw)
      · exact fun q hq new hwork => Nat.ne_of_gt (h.drawn _ (h.requests q hq new hwork).1)
      · exact fun _ _ c hc => Nat.ne_of_lt (h.creation_lt hc)
  | arrived hnew hinsert =>
      have hbump : Tickets
          { s with service := { s.service with nextUuid := s.service.nextUuid + 1 } } :=
        h.frame (Nat.le_add_right _ 1) (fun _ hw => hw) rfl rfl rfl hnone
      refine ⟨?_, hbump.answered, hbump.drawn, h.once, h.grantedOnce, ?_, ?_, h.requests,
        h.uninserted, h.creations, h.replays⟩
      · intro w hw
        rcases (Table.mem_of_insert hinsert).mp hw with hold | rfl
        · exact hbump.waiting w hold
        · exact Nat.lt_add_one _
      · intro w hw g hg
        rcases (Table.mem_of_insert hinsert).mp hw with hold | rfl
        · exact h.ungranted w hold g hg
        · exact Nat.ne_of_lt (h.drawn g hg)
      · intro w hw r hr
        rcases (Table.mem_of_insert hinsert).mp hw with hold | rfl
        · exact h.unanswered w hold r hr
        · exact Nat.ne_of_lt (h.answered r hr)
  | @refused w _ e hw =>
      have hgrant := (hleave w).grant (g := (w.id, (s.challenges w.new.challengeId).map
        (fun (c : ChallengeService) => c.row.status))) (h.waiting w hw) (h.ungranted w hw) (hleft w)
      refine hgrant.respond rfl rfl rfl rfl rfl rfl (h.waiting w hw) (h.unanswered w hw) (hleft w)
        ?_ ?_
      · exact fun q hq new hwork => Ne.symm (h.ungranted w hw _ (h.requests q hq new hwork).1)
      · exact fun _ _ c hc => h.creation_ne hw hc
  | granted hw _ _ _ hinsert => exact h.accept hw hinsert
  | @failed w hw =>
      refine (hleave w).respond rfl rfl rfl rfl rfl rfl (h.waiting w hw) (h.unanswered w hw)
        (hleft w) ?_ ?_
      · exact fun q hq new hwork => Ne.symm (h.ungranted w hw _ (h.requests q hq new hwork).1)
      · exact fun _ _ c hc => h.creation_ne hw hc
  | died _ => exact hleave _
  | other hother =>
      exact h.frame hother.nextUuid (fun _ hw => hw) rfl rfl rfl
        (fun q hq new hwork => ⟨q, before_of_other hother q hq new hwork, rfl, rfl, id⟩)
  | edited hq hwork hserved =>
      refine h.frame (hserved.nextUuid) (fun _ hw => hw) rfl rfl rfl ?_
      intro other hother new hinsert
      rcases hserved.requests hq.mem other hother with ⟨hold, _⟩ | ⟨next, rfl⟩
      · exact ⟨other, hold, rfl, rfl, id⟩
      · exact absurd (hwork.symm.trans hinsert) (by simp)
  | wentOn hq hwork hnext hsame =>
      refine h.frame (by rw [Service.proceed_nextUuid]; exact hsame.nextUuid) (fun _ hw => hw) rfl
        rfl rfl ?_
      intro other hother new hinsert
      rcases Service.mem_of_proceed hsame.requests hq.mem hother with
        ⟨hold, _⟩ | ⟨next, hphase, rfl⟩
      · exact ⟨other, hold, rfl, rfl, id⟩
      · obtain rfl := Option.some.inj hphase
        exact ⟨_, hq.mem, rfl, rfl, uninserted_of_goesOn hnext⟩
  | @inserted _ q new outcome now submissions next hq hwork hphase hadd hnext =>
      have hsame : ({ s.service with
          submissions := submissions
          nextUuid := s.service.nextUuid + 1 } : Service).requests = s.service.requests := rfl
      have hins : Tickets { s with
          service := { s.service with
            submissions := submissions
            nextUuid := s.service.nextUuid + 1 }.proceed q next (.created s.service.nextUuid false)
          creations := ⟨s.service.nextUuid, q.id, new⟩ :: s.creations } := by
        refine h.insert hq.mem hwork _ ?_ ?_
        · rw [Service.proceed_nextUuid]
          exact Nat.le_add_right _ 1
        · intro other hother
          rcases Service.mem_of_proceed hsame hq.mem hother with hold | ⟨next', hsome, rfl⟩
          · exact Or.inl hold
          · exact Or.inr ⟨next', rfl, not_uninserted_of_afterWrite (hnext.trans hsome)⟩
      split
      · rename_i hover
        obtain ⟨hgranted, hopen⟩ := h.requests q hq.mem new hwork
        refine hins.respond rfl rfl rfl rfl rfl rfl ?_ hopen ?_ ?_ ?_
        · rw [Service.proceed_nextUuid]
          exact Nat.lt_of_lt_of_le (h.drawn _ hgranted) (Nat.le_add_right _ 1)
        · exact fun w hw => h.ungranted w hw _ hgranted
        · intro other hother new' _
          rcases Service.mem_of_proceed hsame hq.mem hother with ⟨_, hne⟩ | ⟨next', hsome, _⟩
          · exact Ne.symm hne
          · rw [hover] at hsome
            cases hsome
        · intro submissionId hreply
          cases hreply
      · exact hins
  | @finished _ q new t reply hq hwork hends hsame =>
      have hover : Tickets { s with service := t.proceed q none reply } := by
        refine h.frame (by rw [Service.proceed_nextUuid]; exact hsame.nextUuid) (fun _ hw => hw) rfl
          rfl rfl ?_
        intro other hother new' hinsert
        rcases Service.mem_of_proceed hsame.requests hq.mem hother with
          ⟨hold, _⟩ | ⟨next, hphase, _⟩
        · exact ⟨other, hold, rfl, rfl, id⟩
        · cases hphase
      obtain ⟨hgranted, hopen⟩ := h.requests q hq.mem new hwork
      refine hover.respond rfl rfl rfl rfl rfl rfl ?_ hopen ?_ ?_ ?_
      · rw [Service.proceed_nextUuid]
        exact Nat.lt_of_lt_of_le (h.drawn _ hgranted) hsame.nextUuid
      · exact fun w hw => h.ungranted w hw _ hgranted
      · intro other hother new' _
        rcases Service.mem_of_proceed hsame.requests hq.mem hother with
          ⟨_, hne⟩ | ⟨next', hsome, _⟩
        · exact Ne.symm hne
        · cases hsome
      · intro submissionId hreply
        cases hends with
        | raised => cases hreply
        | inserted _ => cases hreply
        | replayed hphase _ =>
            exact h.uninserted q hq.mem new hwork (by simp [Request.uninserted, hphase])
  | abandoned hq hwork =>
      refine h.frame (Nat.le_refl _) (fun _ hw => hw) rfl rfl rfl ?_
      intro other hother new' _
      exact ⟨other, (Table.mem_delete.mp hother).1, rfl, rfl, id⟩
  | challenge _ _ _ =>
      exact h.frame (Nat.le_refl _) (fun _ hw => hw) rfl rfl rfl hnone

/-! ## The challenge under the shared locks -/

/-- A free challenge that no statement needs the row lock of stays as it is. -/
theorem row_of_free {c c' : ChallengeService} {a : StatusAction} (hheld : c.LockHeld)
    (hfree : c.lock = none) (hneeds : a.needsRow = false) (hstep : c.step a = some c') :
    c'.lock = none ∧ c'.row = c.row := by
  cases a with
  | publish actor =>
      obtain ⟨hrow, hlock, _⟩ := ChallengeService.publish_cases hstep
      exact ⟨hlock.trans hfree, hrow⟩
  | reload id cached =>
      obtain ⟨request, _, hreload⟩ := Option.bind_eq_some_iff.mp hstep
      obtain ⟨hrow, hlock, _⟩ := ChallengeService.reload_cases hreload
      exact ⟨hlock.trans hfree, hrow⟩
  | commitPublish => cases hneeds
  | close actor =>
      have hclose : c.close actor = some c' := hstep
      simp only [StatusAction.needsRow] at hneeds
      unfold ChallengeService.close at hclose
      cases hrole : requireOrganizer actor with
      | ok u =>
          rw [hrole] at hneeds
          cases hneeds
      | error e =>
          rw [hrole] at hclose
          obtain rfl := Option.some.inj hclose
          exact ⟨hfree, rfl⟩
  | commitClose id outcome now =>
      obtain ⟨request, hfound, hcommit⟩ := Option.bind_eq_some_iff.mp hstep
      have hlocked := (ChallengeService.commitClose_cases hcommit).1
      exact absurd hlocked (hheld.not_locked_of_free hfree (Table.mem_of_find? hfound))
  | die id =>
      obtain ⟨request, _, rfl⟩ := Option.map_eq_some_iff.mp hstep
      refine ⟨?_, rfl⟩
      unfold ChallengeService.die
      dsimp only
      split
      · rfl
      · exact hfree

/-- Nobody closes or publishes a challenge while a create holds its lock. -/
structure Gate (s : Acceptance) : Prop where
  held : ∀ id c, s.challenges id = some c → c.LockHeld
  opened : ∀ q ∈ s.service.requests, ∀ new, q.work = .insert new → q.phase.pending = true →
    ∃ c, s.challenges new.challengeId = some c ∧ c.lock = none ∧ c.row.status = .published

/-- What touches no challenge and starts no insert keeps the gate. -/
theorem Gate.frame (h : Gate s) (hchallenges : s'.challenges = s.challenges)
    (hrequests : ∀ q ∈ s'.service.requests, ∀ new, q.work = .insert new →
      q.phase.pending = true → ∃ before ∈ s.service.requests, before.work = q.work ∧
        before.phase.pending = true) : Gate s' where
  held := hchallenges ▸ h.held
  opened := by
    intro q hq new hwork hpending
    obtain ⟨before, hbefore, hsame, hwas⟩ := hrequests q hq new hwork hpending
    rw [hchallenges]
    exact h.opened before hbefore new (hsame.trans hwork) hwas

/-- A request that is still to commit was so before. -/
theorem pending_of_goesOn {q : Request} {next : Phase} (h : GoesOn q next)
    (hpending : next.pending = true) : q.phase.pending = true := by
  cases h with
  | published hphase => rw [hphase]; rfl
  | rejected integrity hphase => rw [hphase]; rfl
  | dropped hphase => cases hpending

/-- A move keeps the gate. -/
theorem gate_of_moved (h : Gate s) (hmoved : Moved cfg s a s') : Gate s' := by
  have hold : ∀ q ∈ s.service.requests, ∀ new, q.work = .insert new → q.phase.pending = true →
      ∃ before ∈ s.service.requests, before.work = q.work ∧ before.phase.pending = true :=
    fun q hq _ _ hpending => ⟨q, hq, rfl, hpending⟩
  cases hmoved with
  | answered _ _ => exact h.frame rfl hold
  | arrived _ _ => exact h.frame rfl hold
  | refused _ _ => exact h.frame rfl hold
  | failed _ => exact h.frame rfl hold
  | died _ => exact h.frame rfl hold
  | granted _ hc hfree hopen hinsert =>
      refine ⟨h.held, ?_⟩
      intro q hq new hwork hpending
      rcases (Table.mem_of_insert hinsert).mp hq with hbefore | rfl
      · exact h.opened q hbefore new hwork hpending
      · obtain rfl := Work.insert.inj hwork
        exact ⟨_, hc, hfree, hopen⟩
  | other hother =>
      exact h.frame rfl
        (fun q hq new hwork => hold q (before_of_other hother q hq new hwork) new hwork)
  | edited hq hwork hserved =>
      refine h.frame rfl ?_
      intro q hq' new hinsert hpending
      rcases hserved.requests hq.mem q hq' with ⟨hbefore, _⟩ | ⟨next, rfl⟩
      · exact ⟨q, hbefore, rfl, hpending⟩
      · exact absurd (hwork.symm.trans hinsert) (by simp)
  | wentOn hq hwork hnext hsame =>
      refine h.frame rfl ?_
      intro q hq' new hinsert hpending
      rcases Service.mem_of_proceed hsame.requests hq.mem hq' with
        ⟨hbefore, _⟩ | ⟨next, hphase, rfl⟩
      · exact ⟨q, hbefore, rfl, hpending⟩
      · obtain rfl := Option.some.inj hphase
        exact ⟨_, hq.mem, rfl, pending_of_goesOn hnext hpending⟩
  | @inserted _ q new outcome now submissions next hq hwork hphase hadd hnext =>
      have hsame : ({ s.service with
          submissions := submissions
          nextUuid := s.service.nextUuid + 1 } : Service).requests = s.service.requests := rfl
      refine h.frame rfl ?_
      intro other hother new' hinsert hpending
      rcases Service.mem_of_proceed hsame hq.mem hother with ⟨hbefore, _⟩ | ⟨next', _, rfl⟩
      · exact ⟨other, hbefore, rfl, hpending⟩
      · exact ⟨q, hq.mem, rfl, by rw [hphase]; rfl⟩
  | finished hq hwork hends hsame =>
      refine h.frame rfl ?_
      intro q hq' new' hinsert hpending
      rcases Service.mem_of_proceed hsame.requests hq.mem hq' with ⟨hbefore, _⟩ | ⟨_, hphase, _⟩
      · exact ⟨q, hbefore, rfl, hpending⟩
      · cases hphase
  | abandoned hq hwork =>
      refine h.frame rfl ?_
      intro q hq' new' hinsert hpending
      exact ⟨q, (Table.mem_delete.mp hq').1, rfl, hpending⟩
  | @challenge id a c c' hc hstep hwait =>
      constructor
      · intro other d hd
        dsimp only at hd
        by_cases hid : other = id
        · subst hid
          rw [Function.update_self] at hd
          obtain rfl := Option.some.inj hd
          exact (h.held _ c hc).step hstep
        · rw [Function.update_of_ne hid] at hd
          exact h.held other d hd
      · intro q hq new hwork hpending
        obtain ⟨d, hd, hfree, hopen⟩ := h.opened q hq new hwork hpending
        by_cases hid : new.challengeId = id
        · rw [hid] at hd ⊢
          obtain rfl := Option.some.inj (hd.symm.trans hc)
          -- the create holds the shared lock that a writer of the row waits for
          have hshared : s.shared id = true := by
            refine List.any_eq_true.mpr ⟨q, hq, ?_⟩
            simp [holdsShare, hpending, hwork, hid]
          have hneeds : a.needsRow = false := by
            by_contra hneeds
            have hnot := hwait ((Bool.not_eq_false _).mp hneeds)
            rw [hshared] at hnot
            cases hnot
          obtain ⟨hfree', hrow⟩ := row_of_free (h.held id d hd) hfree hneeds hstep
          exact ⟨c', Function.update_self .., hfree', by rw [hrow]; exact hopen⟩
        · exact ⟨d, (Function.update_of_ne hid ..).trans hd, hfree, hopen⟩

/-! ## The rows and their records -/

/-- The create `c.requestId` inserts the row of `c`. -/
structure Inserts (s s' : Acceptance) (c : Creation) : Prop where
  identities : s'.service.submissions.identities =
    s.service.submissions.identities ++ [c.identity]
  creations : s'.creations = c :: s.creations
  challenges : s'.challenges = s.challenges
  request : ∃ q ∈ s.service.requests, q.work = .insert c.new ∧ q.phase = .committing ∧
    q.id = c.requestId

/-- A move inserts one submission, or none. -/
theorem inserts_of_moved (hmoved : Moved cfg s a s') :
    (s'.service.submissions.identities = s.service.submissions.identities ∧
      s'.creations = s.creations) ∨ ∃ c, Inserts s s' c := by
  cases hmoved with
  | other hother => exact Or.inl ⟨hother.identities, rfl⟩
  | edited hq hwork hserved => exact Or.inl ⟨hserved.identities hwork, rfl⟩
  | wentOn _ _ _ hsame =>
      left
      rw [Service.proceed_submissions, hsame.submissions]
      exact ⟨rfl, rfl⟩
  | finished _ _ _ hsame =>
      left
      dsimp only
      rw [Service.proceed_submissions, hsame.submissions]
      exact ⟨rfl, rfl⟩
  | @inserted _ q new outcome now submissions next hq hwork hphase hadd hnext =>
      refine Or.inr ⟨⟨s.service.nextUuid, q.id, new⟩, ?_, rfl, rfl,
        ⟨q, hq.mem, hwork, hphase, rfl⟩⟩
      dsimp only
      rw [Service.proceed_submissions]
      exact Submissions.identities_of_add hadd
  | _ => exact Or.inl ⟨rfl, rfl⟩

/-- The rows are those that the records name. -/
def Accounted (s : Acceptance) : Prop :=
  s.service.submissions.identities = (s.creations.map Creation.identity).reverse

namespace Accounted

/-- Every row has its record. -/
theorem creation (h : s.Accounted) {row : SubmissionRow} (hrow : row ∈ s.service.submissions) :
    ∃ c ∈ s.creations, row.identity = c.identity := by
  have hidentity : row.identity ∈ s.service.submissions.identities :=
    Submissions.mem_identities.mpr ⟨row, hrow, rfl⟩
  rw [h, List.mem_reverse] at hidentity
  obtain ⟨c, hc, hsame⟩ := List.mem_map.mp hidentity
  exact ⟨c, hc, hsame.symm⟩

/-- Every record has its row. -/
theorem row (h : s.Accounted) {c : Creation} (hc : c ∈ s.creations) :
    ∃ row ∈ s.service.submissions, row.identity = c.identity := by
  have hidentity : c.identity ∈ s.service.submissions.identities := by
    rw [h, List.mem_reverse]
    exact List.mem_map_of_mem hc
  exact Submissions.mem_identities.mp hidentity

/-- A row is inserted by one create. -/
theorem submissionId_inj (h : s.Accounted) {c c' : Creation} (hc : c ∈ s.creations)
    (hc' : c' ∈ s.creations) (hid : c.submissionId = c'.submissionId) : c = c' := by
  have hids : s.service.submissions.rows.map SubmissionRow.id =
      (s.creations.map Creation.submissionId).reverse := by
    have hmapped := congrArg (List.map SubmissionIdentity.id) h
    rwa [Submissions.identities, List.map_map, List.map_reverse, List.map_map] at hmapped
  have hnodup : (s.creations.map Creation.submissionId).Nodup := by
    rw [← List.nodup_reverse, ← hids]
    exact s.service.submissions.nodup
  exact List.inj_on_of_nodup_map hnodup hc hc' hid

end Accounted

/-- A move keeps every submission accounted for. -/
theorem accounted_of_moved (h : s.Accounted) (hmoved : Moved cfg s a s') : s'.Accounted := by
  unfold Accounted at h ⊢
  rcases inserts_of_moved hmoved with ⟨hrows, hcreations⟩ | ⟨c, hinserts⟩
  · rw [hrows, hcreations, h]
  · rw [hinserts.identities, hinserts.creations, h, List.map_cons, List.reverse_cons]

/-- Grants stay on record. -/
theorem grants_of_moved (hmoved : Moved cfg s a s') : ∀ g ∈ s.grants, g ∈ s'.grants := by
  intro g hg
  cases hmoved with
  | refused _ _ => exact List.mem_cons_of_mem _ hg
  | granted _ _ _ _ _ => exact List.mem_cons_of_mem _ hg
  | _ => exact hg

/-- So do responses. -/
theorem responses_of_moved (hmoved : Moved cfg s a s') : ∀ r ∈ s.responses, r ∈ s'.responses := by
  intro r hr
  cases hmoved with
  | answered _ _ => exact List.mem_cons_of_mem _ hr
  | refused _ _ => exact List.mem_cons_of_mem _ hr
  | failed _ => exact List.mem_cons_of_mem _ hr
  | finished _ _ _ _ => exact List.mem_cons_of_mem _ hr
  | inserted _ _ _ _ _ =>
      dsimp only
      split
      · exact List.mem_cons_of_mem _ hr
      · exact hr
  | _ => exact hr

/-- What a locking read returns of a challenge that is not PUBLISHED. -/
theorem granted_of_moved {w : WaitingCreate} {hackathonPublished : Bool} (hw : w ∈ s.waiting)
    (hclosed : ∀ c, s.challenges w.new.challengeId = some c → c.row.status ≠ .published)
    (hmoved : Moved cfg s (.grant w.id hackathonPublished) s') :
    ∃ status, status ≠ some ChallengeStatus.published ∧ (w.id, status) ∈ s'.grants := by
  generalize ha : AcceptanceAction.grant w.id hackathonPublished = a at hmoved
  cases hmoved with
  | @refused w' _ e hw' =>
      obtain ⟨hsame, -⟩ := AcceptanceAction.grant.inj ha
      obtain rfl := Table.eq_of_key_eq hw hw' hsame
      refine ⟨_, ?_, List.mem_cons_self⟩
      intro hstatus
      obtain ⟨c, hc, hopen⟩ := Option.map_eq_some_iff.mp hstatus
      exact hclosed c hc hopen
  | @granted w' _ requests c hw' hc _ hopen _ =>
      obtain ⟨hsame, -⟩ := AcceptanceAction.grant.inj ha
      obtain rfl := Table.eq_of_key_eq hw hw' hsame
      exact absurd hopen (hclosed c hc)
  | _ => cases ha

/-- The invariants of every run. -/
theorem gate_of_reach (hreach : (acceptance cfg).Reach always s) :
    Tickets s ∧ Gate s ∧ s.Accounted := by
  refine hreach.invariant (I := fun s => Tickets s ∧ Gate s ∧ s.Accounted) ?_ ?_
  · rintro ⟨service, challenges, waiting, grants, responses, creations⟩ hstart
    obtain ⟨rfl, rfl, rfl, rfl, rfl, hfree⟩ := hstart
    refine ⟨⟨?_, ?_, ?_, ?_, ?_, ?_, ?_, ?_, ?_, ?_, ?_⟩, ⟨?_, ?_⟩, rfl⟩
    case refine_12 =>
      intro id c hc request hrequest
      rw [Table.mem_iff, (hfree id c hc).2] at hrequest
      exact absurd hrequest List.not_mem_nil
    all_goals simp [emptyService]
  · intro s a s' hs _ hstep
    obtain ⟨htickets, hgate, haccounted⟩ := hs
    have hmoved := moved_of_step hstep
    exact ⟨tickets_of_moved htickets hmoved, gate_of_moved hgate hmoved,
      accounted_of_moved haccounted hmoved⟩

end Acceptance

/-- What holds of a state, and from it on, in every run. -/
structure PublishedGate (cfg : SubmissionConfig) (s : Acceptance) : Prop where
  /-- A row is committed while the committed status of its challenge is PUBLISHED. -/
  accepts : ∀ a t, (acceptance cfg).step s a = some t → ∀ row ∈ t.service.submissions,
    (∀ old ∈ s.service.submissions, old.id ≠ row.id) →
      ∃ c, s.challenges row.challengeId = some c ∧ c.row.status = .published ∧
        t.challenges row.challengeId = some c
  /-- A create whose locking read is granted while its challenge is CLOSED, or not
  PUBLISHED yet, or not there, inserts nothing. -/
  gated : ∀ w ∈ s.waiting,
    (∀ c, s.challenges w.new.challengeId = some c → c.row.status ≠ .published) →
      ∀ hackathonPublished t, (acceptance cfg).step s (.grant w.id hackathonPublished) = some t →
        ∀ u, (acceptance cfg).Path always t u → ∀ c ∈ u.creations, c.requestId ≠ w.id
  /-- A create that is answered with an earlier submission inserts nothing. -/
  replays : ∀ r ∈ s.responses, ∀ submissionId, r.reply = .created submissionId true →
    ∀ u, (acceptance cfg).Path always s u → ∀ c ∈ u.creations, c.requestId ≠ r.requestId
  /-- The records of what was inserted are those of the rows. -/
  accounted : s.service.submissions.identities = (s.creations.map Creation.identity).reverse

/-- **The acceptance gate.**  Over every interleaving of creates, edits and
transitions with publishes and closes of their challenges, whichever fails or dies. -/
theorem accepted_while_published (cfg : SubmissionConfig) (s : Acceptance)
    (hreach : (acceptance cfg).Reach always s) : PublishedGate cfg s := by
  obtain ⟨htickets, hgate, haccounted⟩ := Acceptance.gate_of_reach hreach
  refine ⟨?_, ?_, ?_, haccounted⟩
  · intro a t hstep row hrow hnew
    have hin : row.identity ∈ t.service.submissions.identities :=
      Submissions.mem_identities.mpr ⟨row, hrow, rfl⟩
    have hnot : row.identity ∉ s.service.submissions.identities := by
      intro hold
      obtain ⟨old, hmem, hid⟩ := Submissions.mem_identities.mp hold
      exact hnew old hmem (congrArg SubmissionIdentity.id hid)
    rcases Acceptance.inserts_of_moved (Acceptance.moved_of_step hstep) with
      ⟨hsame, _⟩ | ⟨c, hinserts⟩
    · rw [hsame] at hin
      exact absurd hin hnot
    · rw [hinserts.identities] at hin
      have hrowId : row.identity = c.identity :=
        List.mem_singleton.mp ((List.mem_append.mp hin).resolve_left hnot)
      have hchallenge : row.challengeId = c.new.challengeId :=
        congrArg SubmissionIdentity.challengeId hrowId
      obtain ⟨q, hq, hwork, hphase, _⟩ := hinserts.request
      obtain ⟨d, hd, _, hopen⟩ := hgate.opened q hq c.new hwork (by rw [hphase]; rfl)
      rw [hchallenge, hinserts.challenges]
      exact ⟨d, hd, hopen, hd⟩
  · intro w hw hclosed hackathonPublished t hstep u hpath c hc hid
    have hmoved : Acceptance.Moved cfg s (.grant w.id hackathonPublished) t :=
      Acceptance.moved_of_step hstep
    obtain ⟨status, hstatus, hgrant⟩ := Acceptance.granted_of_moved hw hclosed hmoved
    have hkept : (w.id, status) ∈ u.grants :=
      hpath.preserves (I := fun u => (w.id, status) ∈ u.grants)
        (fun v a v' hv _ hvstep =>
          Acceptance.grants_of_moved (Acceptance.moved_of_step hvstep) _ hv)
        hgrant
    have hthere : (acceptance cfg).Reach always u := (hreach.snoc trivial hstep).path hpath
    have hgranted := (Acceptance.gate_of_reach hthere).1.creations c hc
    rw [hid] at hgranted
    have hsame := List.inj_on_of_nodup_map (Acceptance.gate_of_reach hthere).1.grantedOnce hkept
      hgranted rfl
    exact hstatus (Prod.mk.inj hsame).2
  · intro r hr submissionId hreply u hpath
    have hkept : r ∈ u.responses :=
      hpath.preserves (I := fun u => r ∈ u.responses)
        (fun v a v' hv _ hvstep =>
          Acceptance.responses_of_moved (Acceptance.moved_of_step hvstep) _ hv) hr
    exact (Acceptance.gate_of_reach (hreach.path hpath)).1.replays r hkept submissionId hreply

/-- The challenge once it is PUBLISHED. -/
def openChallenge : ChallengeService :=
  { ChallengeService.draftChallenge with
    row := { ChallengeService.draftChallenge.row with status := .published } }

/-- Two creates arrive; the first is granted its lock and inserts its row; then the
challenge is closed, and the second is granted its lock. -/
def closingRun : List AcceptanceAction :=
  [.create participant 5 none none none, .create participant 5 none (some " k ") none,
    .grant 0 true, .service (.commit 0 .ok 10), .challenge 5 (.close ChallengeService.organizer),
    .challenge 5 (.commitClose 0 .ok 20), .grant 1 true]

/-- A create that waits for the lock while the challenge is closed. -/
theorem accepted_while_published_closing :
    ∃ s, s.grants = [(1, some .closed), (0, some .published)] ∧
      PublishedGate defaultConfig s := by
  obtain ⟨s, hreach, htest⟩ : ∃ s, (acceptance defaultConfig).Reach always s ∧
      decide (s.grants = [(1, some .closed), (0, some .published)]) = true :=
    System.reach_of_test ⟨emptyService, fun _ => some openChallenge, Table.empty, [], [], []⟩
      closingRun _ ⟨rfl, rfl, rfl, rfl, rfl, fun _ _ hc => Option.some.inj hc ▸ ⟨rfl, rfl⟩⟩
      (by decide)
  exact ⟨s, of_decide_eq_true htest, accepted_while_published defaultConfig s hreach⟩

end ChallengeForge
