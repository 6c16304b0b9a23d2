import ChallengeForge.PublishedAcceptance

/-!
# Idempotent creation

A create looks its key up, is granted its lock, inserts, and if the unique index
refuses the row, looks the key up again.  Racing creates may all pass the first
lookup.

* `Justified` — what stands behind the reply to a create: its own row, or the row of
  a create with the same participant, key and fingerprint;
* `one_submission_for_key` — over every interleaving, a participant has one row for a
  key, and every success with that key reports it, all but one as a replay.
-/

namespace ChallengeForge

open Keyed Labelled

/-- The row that a create has inserted, while it is not answered. -/
def Phase.submission? : Phase → Option UUID
  | .dropping submissionId => some submissionId
  | .enqueueing submissionId => some submissionId
  | _ => none

/-- The fingerprint is that of the request, if there is a key. -/
def NewSubmission.Fingerprinted (cfg : SubmissionConfig) (new : NewSubmission) : Prop :=
  new.requestFingerprint =
    new.idempotencyKey.map (fun _ => cfg.requestFingerprint new.challengeId new.metadata)

/-- A request carries its own fingerprint. -/
theorem fingerprinted_requested (cfg : SubmissionConfig) (actor : Actor) (challengeId : UUID)
    (metadata : Option JsonDict) (idempotencyKey : Option String) :
    (requested cfg actor challengeId metadata idempotencyKey).Fingerprinted cfg := by
  simp only [NewSubmission.Fingerprinted, requested]

namespace Acceptance

variable {cfg : SubmissionConfig} {s s' : Acceptance} {a : AcceptanceAction}

/-- What stands behind the reply to the create `requestId`. -/
inductive Justified (cfg : SubmissionConfig) (creations : List Creation) (requestId : UUID)
    (new : NewSubmission) : Reply → Prop
  | own {submissionId} (hown : ⟨submissionId, requestId, new⟩ ∈ creations) :
      Justified cfg creations requestId new (.created submissionId false)
  | replay {c key} (hc : c ∈ creations) (howner : c.new.participantId = new.participantId)
      (hnew : new.idempotencyKey = some key) (hkey : c.new.idempotencyKey = some key)
      (hsame : cfg.requestFingerprint c.new.challengeId c.new.metadata =
        cfg.requestFingerprint new.challengeId new.metadata) :
      Justified cfg creations requestId new (.created c.submissionId true)
  | none {reply} (hreply : reply.reportsCreation = false) :
      Justified cfg creations requestId new reply

/-- More creations justify as much. -/
theorem Justified.mono {creations more : List Creation} {requestId : UUID} {new : NewSubmission}
    {reply : Reply} (h : Justified cfg creations requestId new reply)
    (hmore : ∀ c ∈ creations, c ∈ more) : Justified cfg more requestId new reply := by
  cases h with
  | own hown => exact .own (hmore _ hown)
  | replay hc howner hnew hkey hsame => exact .replay (hmore _ hc) howner hnew hkey hsame
  | none hreply => exact .none hreply

namespace Justified

variable {creations : List Creation} {requestId : UUID} {new : NewSubmission} {reply : Reply}
  {submissionId : UUID} {replayed : Bool}

/-- A success reports a row of the same participant, under the same key. -/
theorem creation (h : Justified cfg creations requestId new reply)
    (hreply : reply = .created submissionId replayed) :
    ∃ c ∈ creations, c.submissionId = submissionId ∧ c.new.participantId = new.participantId ∧
      c.new.idempotencyKey = new.idempotencyKey := by
  cases h with
  | own hown =>
      obtain ⟨rfl, -⟩ := Reply.created.inj hreply
      exact ⟨_, hown, rfl, rfl, rfl⟩
  | replay hc howner hnew hkey _ =>
      obtain ⟨rfl, -⟩ := Reply.created.inj hreply
      exact ⟨_, hc, rfl, howner, hkey.trans hnew.symm⟩
  | none hnot =>
      rw [hreply] at hnot
      cases hnot

/-- A success reports a row of a create with the same fingerprint. -/
theorem fingerprint (h : Justified cfg creations requestId new reply)
    (hreply : reply = .created submissionId replayed) :
    ∃ c ∈ creations, c.submissionId = submissionId ∧
      cfg.requestFingerprint c.new.challengeId c.new.metadata =
        cfg.requestFingerprint new.challengeId new.metadata := by
  cases h with
  | own hown =>
      obtain ⟨rfl, -⟩ := Reply.created.inj hreply
      exact ⟨_, hown, rfl, rfl⟩
  | replay hc _ _ _ hsame =>
      obtain ⟨rfl, -⟩ := Reply.created.inj hreply
      exact ⟨_, hc, rfl, hsame⟩
  | none hnot =>
      rw [hreply] at hnot
      cases hnot

/-- A reply that is no replay reports its own creation. -/
theorem own_of_first (h : Justified cfg creations requestId new reply)
    (hreply : reply = .created submissionId false) :
    (⟨submissionId, requestId, new⟩ : Creation) ∈ creations := by
  cases h with
  | own hown =>
      obtain ⟨rfl, -⟩ := Reply.created.inj hreply
      exact hown
  | replay => cases hreply
  | none hnot =>
      rw [hreply] at hnot
      cases hnot

/-- Without a key every success is its own. -/
theorem own_of_keyless (h : Justified cfg creations requestId new reply)
    (hkey : new.idempotencyKey = Option.none) (hreply : reply = .created submissionId replayed) :
    replayed = false ∧ (⟨submissionId, requestId, new⟩ : Creation) ∈ creations := by
  cases h with
  | own hown =>
      obtain ⟨rfl, rfl⟩ := Reply.created.inj hreply
      exact ⟨rfl, hown⟩
  | replay _ _ hnew _ _ =>
      rw [hkey] at hnew
      cases hnew
  | none hnot =>
      rw [hreply] at hnot
      cases hnot

end Justified

/-- What the unique index says of the rows. -/
def UniqueKeys (creations : List Creation) : Prop :=
  ∀ c ∈ creations, ∀ c' ∈ creations, c.new.participantId = c'.new.participantId →
    ∀ key, c.new.idempotencyKey = some key → c'.new.idempotencyKey = some key → c = c'

/-- Where the creates in progress, the rows and the replies come from. -/
structure Origins (cfg : SubmissionConfig) (s : Acceptance) : Prop where
  waiting : ∀ w ∈ s.waiting, w.new.Fingerprinted cfg
  requests : ∀ q ∈ s.service.requests, ∀ new, q.work = .insert new →
    new.Fingerprinted cfg ∧ ∀ submissionId, q.phase.submission? = some submissionId →
      (⟨submissionId, q.id, new⟩ : Creation) ∈ s.creations
  creations : ∀ c ∈ s.creations, c.new.Fingerprinted cfg
  unique : UniqueKeys s.creations
  responses : ∀ r ∈ s.responses, Justified cfg s.creations r.requestId r.new r.reply

/-- Nothing is inserted. -/
theorem Origins.frame (h : Origins cfg s) (hcreations : s'.creations = s.creations)
    (hwaiting : ∀ w ∈ s'.waiting, w ∈ s.waiting ∨ w.new.Fingerprinted cfg)
    (hresponses : ∀ r ∈ s'.responses, r ∈ s.responses ∨
      Justified cfg s.creations r.requestId r.new r.reply)
    (hrequests : ∀ q ∈ s'.service.requests, ∀ new, q.work = .insert new →
      (∃ before ∈ s.service.requests, before.id = q.id ∧ before.work = q.work ∧
        ∀ submissionId, q.phase.submission? = some submissionId →
          before.phase.submission? = some submissionId) ∨
      new.Fingerprinted cfg ∧ q.phase.submission? = none) : Origins cfg s' where
  waiting := by
    intro w hw
    rcases hwaiting w hw with hold | hnew
    · exact h.waiting w hold
    · exact hnew
  requests := by
    intro q hq new hwork
    rw [hcreations]
    rcases hrequests q hq new hwork with ⟨before, hbefore, hid, hsame, hphase⟩ | ⟨hnew, hnone⟩
    · obtain ⟨hprint, hrow⟩ := h.requests before hbefore new (hsame.trans hwork)
      exact ⟨hprint, fun submissionId hsub => hid ▸ hrow submissionId (hphase submissionId hsub)⟩
    · refine ⟨hnew, fun submissionId hsub => ?_⟩
      rw [hnone] at hsub
      cases hsub
  creations := hcreations ▸ h.creations
  unique := hcreations ▸ h.unique
  responses := by
    intro r hr
    rw [hcreations]
    rcases hresponses r hr with hold | hnew
    · exact h.responses r hold
    · exact hnew

/-- A row that the first or the second lookup finds. -/
theorem justified_of_existing (h : Origins cfg s) (haccounted : s.Accounted)
    {new : NewSubmission} {existing : SubmissionRow} (requestId : UUID)
    (hfound : s.service.submissions.findExisting new = some existing) :
    Justified cfg s.creations requestId new (replayOrConflict cfg existing
      (cfg.requestFingerprint new.challengeId new.metadata)) := by
  obtain ⟨hmem, howner, key, hkey, hkey'⟩ := Submissions.findExisting_eq_some hfound
  obtain ⟨c, hc, hsame⟩ := haccounted.creation hmem
  have hid : existing.id = c.submissionId := congrArg SubmissionIdentity.id hsame
  have hcowner : existing.participantId = c.new.participantId :=
    congrArg SubmissionIdentity.participantId hsame
  have hckey : existing.idempotencyKey = c.new.idempotencyKey :=
    congrArg SubmissionIdentity.idempotencyKey hsame
  have hprint : existing.requestFingerprint =
      some (cfg.requestFingerprint c.new.challengeId c.new.metadata) := by
    have hstored : existing.requestFingerprint = c.new.requestFingerprint :=
      congrArg SubmissionIdentity.requestFingerprint hsame
    rw [hstored, h.creations c hc, ← hckey, hkey']
    rfl
  unfold replayOrConflict
  simp only [hprint, Option.getD_some]
  split
  · exact .none rfl
  · rename_i hequal
    rw [hid]
    exact .replay hc (hcowner.symm.trans howner) hkey (hckey.symm.trans hkey') (not_not.mp hequal)

/-- An answer at once is justified. -/
theorem justified_of_lookup (h : Origins cfg s) (haccounted : s.Accounted) {actor : Actor}
    {metadata : Option JsonDict} {new : NewSubmission} {reply : Reply} (requestId : UUID)
    (hlookup : s.service.lookup cfg actor metadata new = .error reply) :
    Justified cfg s.creations requestId new reply := by
  have hrefused : ∀ {α : Type} {x : Except DomainError α},
      x.mapError Reply.refused = .error reply → reply.reportsCreation = false := by
    intro α x hx
    cases x with
    | error e =>
        cases hx
        rfl
    | ok v => cases hx
  unfold Service.lookup at hlookup
  rcases except_bind_eq_error hlookup with hrole | ⟨_, _, hlookup⟩
  · exact .none (hrefused hrole)
  rcases except_bind_eq_error hlookup with hmetadata | ⟨_, _, hlookup⟩
  · exact .none (hrefused hmetadata)
  split at hlookup
  · rename_i existing hfound
    cases hlookup
    exact justified_of_existing h haccounted requestId hfound
  · cases hlookup

/-- An answer at the end of the request is justified. -/
theorem justified_of_ends (h : Origins cfg s) (haccounted : s.Accounted) {q : Request}
    {new : NewSubmission} {reply : Reply} (hq : q ∈ s.service.requests)
    (hwork : q.work = .insert new) (hends : EndsWith cfg s.service q new reply) :
    Justified cfg s.creations q.id new reply := by
  cases hends with
  | raised => exact .none rfl
  | inserted hphase =>
      refine .own ((h.requests q hq new hwork).2 _ ?_)
      rcases hphase with hdropping | henqueueing
      · rw [hdropping]
        rfl
      · rw [henqueueing]
        rfl
  | replayed _ hfound => exact justified_of_existing h haccounted q.id hfound

/-- The unique index has let a row in. -/
theorem UniqueKeys.cons (hunique : UniqueKeys s.creations) (haccounted : s.Accounted)
    {first : Creation} (hfresh : s.service.submissions.findExisting first.new = none) :
    UniqueKeys (first :: s.creations) := by
  have hnone : ∀ c ∈ s.creations, c.new.participantId = first.new.participantId →
      ∀ key, first.new.idempotencyKey = some key → c.new.idempotencyKey ≠ some key := by
    intro c hc howner key hkey hsame
    obtain ⟨row, hrow, hrowId⟩ := haccounted.row hc
    have hrowOwner : row.participantId = c.new.participantId :=
      congrArg SubmissionIdentity.participantId hrowId
    have hrowKey : row.idempotencyKey = c.new.idempotencyKey :=
      congrArg SubmissionIdentity.idempotencyKey hrowId
    exact Submissions.findExisting_eq_none hfresh hkey hrow (hrowOwner.trans howner)
      (hrowKey.trans hsame)
  intro c hc c' hc' howner key hkey hkey'
  rcases List.mem_cons.mp hc with rfl | hold
  · rcases List.mem_cons.mp hc' with rfl | hold'
    · rfl
    · exact absurd hkey' (hnone c' hold' howner.symm key hkey)
  · rcases List.mem_cons.mp hc' with rfl | hold'
    · exact absurd hkey (hnone c hold howner key hkey')
    · exact hunique c hold c' hold' howner key hkey hkey'

/-- A move keeps the origins of the rows and replies. -/
theorem origins_of_moved (h : Origins cfg s) (haccounted : s.Accounted)
    (hmoved : Moved cfg s a s') : Origins cfg s' := by
  have hkept : ∀ q ∈ s.service.requests, ∀ new, q.work = .insert new →
      (∃ before ∈ s.service.requests, before.id = q.id ∧ before.work = q.work ∧
        ∀ submissionId, q.phase.submission? = some submissionId →
          before.phase.submission? = some submissionId) ∨
      new.Fingerprinted cfg ∧ q.phase.submission? = none :=
    fun q hq _ _ => Or.inl ⟨q, hq, rfl, rfl, fun _ hsub => hsub⟩
  have hwaits : ∀ w ∈ s.waiting, w ∈ s.waiting ∨ w.new.Fingerprinted cfg :=
    fun _ hw => Or.inl hw
  have hleaves : ∀ w, ∀ other ∈ (s.leave w).waiting,
      other ∈ s.waiting ∨ other.new.Fingerprinted cfg :=
    fun _ _ hother => Or.inl (Table.mem_delete.mp hother).1
  have hsays : ∀ r ∈ s.responses, r ∈ s.responses ∨
      Justified cfg s.creations r.requestId r.new r.reply := fun _ hr => Or.inl hr
  have hadds : ∀ {requestId : UUID} {new : NewSubmission} {reply : Reply},
      Justified cfg s.creations requestId new reply →
      ∀ r ∈ (⟨requestId, new, reply⟩ : Response) :: s.responses, r ∈ s.responses ∨
        Justified cfg s.creations r.requestId r.new r.reply := by
    intro requestId new reply hreply
    exact List.forall_mem_cons.mpr ⟨Or.inr hreply, hsays⟩
  cases hmoved with
  | answered _ hlookup =>
      exact h.frame rfl hwaits (hadds (justified_of_lookup h haccounted _ hlookup)) hkept
  | arrived hnew hinsert =>
      refine h.frame rfl ?_ hsays hkept
      intro w hw
      rcases (Table.mem_of_insert hinsert).mp hw with hold | rfl
      · exact Or.inl hold
      · right
        rw [← hnew]
        exact fingerprinted_requested ..
  | refused e _ => exact h.frame rfl (hleaves _) (hadds (.none rfl)) hkept
  | @granted w _ requests c hw _ _ _ hinsert =>
      refine h.frame rfl (hleaves _) hsays ?_
      intro q hq new hwork
      rcases (Table.mem_of_insert hinsert).mp hq with hold | rfl
      · exact hkept q hold new hwork
      · obtain rfl := Work.insert.inj hwork
        refine Or.inr ⟨h.waiting w hw, ?_⟩
        unfold accepted
        dsimp only
        split <;> rfl
  | failed _ => exact h.frame rfl (hleaves _) (hadds (.none rfl)) hkept
  | died _ => exact h.frame rfl (hleaves _) hsays hkept
  | other hother =>
      exact h.frame rfl hwaits hsays
        (fun q hq new hwork => hkept q (before_of_other hother q hq new hwork) new hwork)
  | edited hq hwork hserved =>
      refine h.frame rfl hwaits hsays ?_
      intro other hother new hinsert
      rcases hserved.requests hq.mem other hother with ⟨hold, _⟩ | ⟨next, rfl⟩
      · exact hkept other hold new hinsert
      · exact absurd (hwork.symm.trans hinsert) (by simp)
  | wentOn hq hwork hnext hsame =>
      refine h.frame rfl hwaits hsays ?_
      intro other hother new hinsert
      rcases Service.mem_of_proceed hsame.requests hq.mem hother with
        ⟨hold, _⟩ | ⟨next, hphase, rfl⟩
      · exact hkept other hold new hinsert
      · obtain rfl := Option.some.inj hphase
        refine Or.inl ⟨_, hq.mem, rfl, rfl, ?_⟩
        intro submissionId hsub
        cases hnext with
        | published _ => cases hsub
        | rejected _ _ => cases hsub
        | dropped hdropping =>
            rw [hdropping]
            exact hsub
  | @inserted a q new outcome now submissions next hq hwork hphase hadd hnext =>
      have hsame : ({ s.service with
          submissions := submissions
          nextUuid := s.service.nextUuid + 1 } : Service).requests = s.service.requests := rfl
      obtain ⟨hprint, _⟩ := h.requests q hq.mem new hwork
      have hmore : ∀ c ∈ s.creations,
          c ∈ (⟨s.service.nextUuid, q.id, new⟩ : Creation) :: s.creations :=
        fun c hc => List.mem_cons_of_mem _ hc
      have hfresh : s.service.submissions.findExisting new = none :=
        Option.not_isSome_iff_eq_none.mp (by simpa using Submissions.findExisting_of_add hadd)
      refine ⟨h.waiting, ?_, List.forall_mem_cons.mpr ⟨hprint, h.creations⟩, ?_, ?_⟩
      · intro other hother new' hwork'
        rcases Service.mem_of_proceed hsame hq.mem hother with ⟨hold, _⟩ | ⟨next', hsome, rfl⟩
        · obtain ⟨hprint', hrow⟩ := h.requests other hold new' hwork'
          exact ⟨hprint', fun submissionId hsub => hmore _ (hrow submissionId hsub)⟩
        · obtain rfl := Work.insert.inj (hwork.symm.trans hwork')
          refine ⟨hprint, fun submissionId hsub => ?_⟩
          rcases Request.afterWrite_cases (hnext.trans hsome) with rfl | rfl | rfl
          · cases hsub
          · obtain rfl := Option.some.inj hsub
            exact List.mem_cons_self
          · obtain rfl := Option.some.inj hsub
            exact List.mem_cons_self
      · exact h.unique.cons haccounted hfresh
      · intro r hr
        dsimp only at hr
        split at hr
        · rcases List.mem_cons.mp hr with rfl | hold
          · exact .own List.mem_cons_self
          · exact (h.responses r hold).mono hmore
        · exact (h.responses r hr).mono hmore
  | finished hq hwork hends hsame =>
      refine h.frame rfl hwaits (hadds (justified_of_ends h haccounted hq.mem hwork hends)) ?_
      intro other hother new' hinsert
      rcases Service.mem_of_proceed hsame.requests hq.mem hother with ⟨hold, _⟩ | ⟨_, hphase, _⟩
      · exact hkept other hold new' hinsert
      · cases hphase
  | abandoned hq hwork =>
      exact h.frame rfl hwaits hsays
        (fun other hother => hkept other (Table.mem_delete.mp hother).1)
  | challenge _ _ _ => exact h.frame rfl hwaits hsays hkept

/-- The records of what the creates were answered are the replies sent. -/
structure Recorded (s : Acceptance) : Prop where
  sent : ∀ r ∈ s.responses, (r.requestId, r.reply) ∈ s.service.replies
  kept : ∀ requestId reply, (requestId, reply) ∈ s.service.replies →
    reply.reportsCreation = true → ∃ r ∈ s.responses, r.requestId = requestId ∧ r.reply = reply

namespace Recorded

/-- Others are answered, or nobody is. -/
theorem frame (h : Recorded s) (hresponses : s'.responses = s.responses)
    (hreplies : ∃ sent : List (UUID × Reply), s'.service.replies = sent ++ s.service.replies ∧
      ∀ x ∈ sent, x.2.reportsCreation = false) : Recorded s' := by
  obtain ⟨sent, hsent, hother⟩ := hreplies
  constructor
  · rw [hresponses, hsent]
    exact fun r hr => List.mem_append_right _ (h.sent r hr)
  · rw [hresponses, hsent]
    intro requestId reply hreply hcreation
    rcases List.mem_append.mp hreply with hnew | hold
    · have hnot := hother _ hnew
      rw [hcreation] at hnot
      cases hnot
    · exact h.kept requestId reply hold hcreation

/-- A create is answered. -/
theorem respond (h : Recorded s) {requestId : UUID} {new : NewSubmission} {reply : Reply}
    (hresponses : s'.responses = ⟨requestId, new, reply⟩ :: s.responses)
    (hreplies : s'.service.replies = (requestId, reply) :: s.service.replies) : Recorded s' := by
  constructor
  · rw [hresponses, hreplies]
    exact List.forall_mem_cons.mpr ⟨List.mem_cons_self,
      fun r hr => List.mem_cons_of_mem _ (h.sent r hr)⟩
  · rw [hresponses, hreplies]
    intro requestId' reply' hreply hcreation
    rcases List.mem_cons.mp hreply with heq | hold
    · obtain ⟨rfl, rfl⟩ := Prod.mk.inj heq
      exact ⟨_, List.mem_cons_self, rfl, rfl⟩
    · obtain ⟨r, hr, hid, hsame⟩ := h.kept requestId' reply' hold hcreation
      exact ⟨r, List.mem_cons_of_mem _ hr, hid, hsame⟩

end Recorded

/-- A move keeps every creation on record. -/
theorem recorded_of_moved (h : Recorded s) (hmoved : Moved cfg s a s') : Recorded s' := by
  have hsilent : ∀ {replies : List (UUID × Reply)}, replies = s.service.replies →
      ∃ sent : List (UUID × Reply), replies = sent ++ s.service.replies ∧
        ∀ x ∈ sent, x.2.reportsCreation = false := fun hsame => ⟨[], hsame, by simp⟩
  cases hmoved with
  | answered _ _ => exact h.respond rfl rfl
  | arrived _ _ => exact h.frame rfl (hsilent rfl)
  | refused _ _ => exact h.respond rfl rfl
  | granted _ _ _ _ _ => exact h.frame rfl (hsilent rfl)
  | failed _ => exact h.respond rfl rfl
  | died _ => exact h.frame rfl (hsilent rfl)
  | other hother => exact h.frame rfl hother.replies
  | edited hq hwork hserved => exact h.frame rfl (hserved.replies hwork)
  | wentOn _ _ _ hsame => exact h.frame rfl (hsilent hsame.replies)
  | @inserted _ q new outcome now submissions next hq hwork hphase hadd hnext =>
      cases next with
      | none => exact h.respond rfl rfl
      | some next => exact h.frame rfl (hsilent rfl)
  | finished _ _ _ hsame => exact h.respond rfl (congrArg (List.cons _) hsame.replies)
  | abandoned _ _ => exact h.frame rfl (hsilent rfl)
  | challenge _ _ _ => exact h.frame rfl (hsilent rfl)

/-- The invariants of every run. -/
theorem origins_of_reach (hreach : (acceptance cfg).Reach always s) :
    Origins cfg s ∧ Recorded s := by
  have hall : Origins cfg s ∧ Recorded s ∧ s.Accounted := by
    refine hreach.invariant (I := fun s => Origins cfg s ∧ Recorded s ∧ s.Accounted) ?_ ?_
    · rintro ⟨service, challenges, waiting, grants, responses, creations⟩ hstart
      obtain ⟨rfl, rfl, rfl, rfl, rfl, _⟩ := hstart
      refine ⟨⟨?_, ?_, ?_, ?_, ?_⟩, ⟨?_, ?_⟩, rfl⟩ <;> simp [emptyService, UniqueKeys]
    · rintro s a s' ⟨horigins, hrecorded, haccounted⟩ _ hstep
      have hmoved := moved_of_step hstep
      exact ⟨origins_of_moved horigins haccounted hmoved, recorded_of_moved hrecorded hmoved,
        accounted_of_moved haccounted hmoved⟩
  exact ⟨hall.1, hall.2.1⟩

end Acceptance

/-- The participant and the key of a request, if it has one. -/
def Response.usesKey (r : Response) (participantId : UUID) (key : String) : Prop :=
  r.new.participantId = participantId ∧ r.new.idempotencyKey = some key

/-- What holds of every state of every run, metadata being equal as `same` says. -/
structure CreatedOnce (same : JsonDict → JsonDict → Prop) (s : Acceptance) : Prop where
  /-- A participant has at most one row for a key. -/
  row : ∀ participantId key, ∀ row ∈ s.service.submissions, ∀ row' ∈ s.service.submissions,
    row.hasIdempotencyKey participantId key = true →
      row'.hasIdempotencyKey participantId key = true → row = row'
  /-- Every success reports that row. -/
  reported : ∀ participantId key, ∀ r ∈ s.responses, r.usesKey participantId key →
    ∀ submissionId replayed, r.reply = .created submissionId replayed →
      ∃ row ∈ s.service.submissions, row.id = submissionId ∧
        row.hasIdempotencyKey participantId key = true
  /-- At most one success is not marked as a replay. -/
  first : ∀ participantId key, ∀ r ∈ s.responses, r.usesKey participantId key →
    ∀ r' ∈ s.responses, r'.usesKey participantId key → ∀ submissionId submissionId',
      r.reply = .created submissionId false → r'.reply = .created submissionId' false → r = r'
  /-- A create whose challenge or metadata differ from those of the create that has
  inserted the row is not answered with that row. -/
  winner : ∀ r ∈ s.responses, r.new.idempotencyKey.isSome → ∀ submissionId replayed,
    r.reply = .created submissionId replayed → ∀ c ∈ s.creations,
      c.submissionId = submissionId →
        c.new.challengeId = r.new.challengeId ∧ same c.new.metadata r.new.metadata
  /-- Without a key a create is answered with its own row. -/
  keyless : ∀ r ∈ s.responses, r.new.idempotencyKey = none → ∀ submissionId replayed,
    r.reply = .created submissionId replayed →
      replayed = false ∧ ∀ c ∈ s.creations, c.submissionId = submissionId ↔
        c = ⟨submissionId, r.requestId, r.new⟩
  /-- Every row has been inserted by one create. -/
  inserted : s.service.submissions.identities = (s.creations.map Creation.identity).reverse
  /-- The records of the replies are the replies, one for each create. -/
  recorded : s.Recorded
  once : (s.responses.map Response.requestId).Nodup

/-- **Idempotent creation.**  Over every interleaving of any number of creates, with
edits, transitions, publishes and closes between them, the fingerprint being
injective on challenges and metadata. -/
theorem one_submission_for_key (cfg : SubmissionConfig) (same : JsonDict → JsonDict → Prop)
    (hinjective : ∀ challengeId metadata challengeId' metadata',
      cfg.requestFingerprint challengeId metadata =
          cfg.requestFingerprint challengeId' metadata' →
        challengeId = challengeId' ∧ same metadata metadata')
    (s : Acceptance) (hreach : (acceptance cfg).Reach always s) : CreatedOnce same s := by
  obtain ⟨htickets, _, haccounted⟩ := Acceptance.gate_of_reach hreach
  obtain ⟨horigins, hrecorded⟩ := Acceptance.origins_of_reach hreach
  have hkeyed : ∀ {participantId key row}, row ∈ s.service.submissions →
      row.hasIdempotencyKey participantId key = true → ∃ c ∈ s.creations,
        row.identity = c.identity ∧ c.new.participantId = participantId ∧
          c.new.idempotencyKey = some key := by
    intro participantId key row hrow hmatch
    obtain ⟨howner, hkey⟩ := of_decide_eq_true hmatch
    obtain ⟨c, hc, hsame⟩ := haccounted.creation hrow
    exact ⟨c, hc, hsame, (congrArg SubmissionIdentity.participantId hsame).symm.trans howner,
      (congrArg SubmissionIdentity.idempotencyKey hsame).symm.trans hkey⟩
  refine ⟨?_, ?_, ?_, ?_, ?_, haccounted, hrecorded, htickets.once⟩
  · intro participantId key row hrow row' hrow' hmatch hmatch'
    obtain ⟨c, hc, hid, howner, hkey⟩ := hkeyed hrow hmatch
    obtain ⟨c', hc', hid', howner', hkey'⟩ := hkeyed hrow' hmatch'
    obtain rfl := horigins.unique c hc c' hc' (howner.trans howner'.symm) key hkey hkey'
    exact Table.eq_of_key_eq hrow hrow' (congrArg SubmissionIdentity.id (hid.trans hid'.symm))
  · rintro participantId key r hr ⟨howner, hkey⟩ submissionId replayed hreply
    obtain ⟨c, hc, hsub, hcowner, hckey⟩ : ∃ c ∈ s.creations, c.submissionId = submissionId ∧
        c.new.participantId = participantId ∧ c.new.idempotencyKey = some key := by
      obtain ⟨c, hc, hsub, hsame⟩ := (horigins.responses r hr).creation hreply
      exact ⟨c, hc, hsub, hsame.1.trans howner, hsame.2.trans hkey⟩
    obtain ⟨row, hrow, hid⟩ := haccounted.row hc
    refine ⟨row, hrow, (congrArg SubmissionIdentity.id hid).trans hsub, decide_eq_true ⟨?_, ?_⟩⟩
    · exact (congrArg SubmissionIdentity.participantId hid).trans hcowner
    · exact (congrArg SubmissionIdentity.idempotencyKey hid).trans hckey
  · rintro participantId key r hr ⟨howner, hkey⟩ r' hr' ⟨howner', hkey'⟩ submissionId submissionId'
      hreply hreply'
    have hown := (horigins.responses r hr).own_of_first hreply
    have hown' := (horigins.responses r' hr').own_of_first hreply'
    have hsame := horigins.unique _ hown _ hown' (howner.trans howner'.symm) key hkey hkey'
    exact List.inj_on_of_nodup_map htickets.once hr hr' (congrArg Creation.requestId hsame)
  · intro r hr hkeyed submissionId replayed hreply c hc hsub
    obtain ⟨c', hc', hsub', hprint⟩ := (horigins.responses r hr).fingerprint hreply
    obtain rfl := haccounted.submissionId_inj hc hc' (hsub.trans hsub'.symm)
    exact hinjective _ _ _ _ hprint
  · intro r hr hkey submissionId replayed hreply
    obtain ⟨rfl, hown⟩ := (horigins.responses r hr).own_of_keyless hkey hreply
    refine ⟨rfl, fun c hc => ⟨fun hsub => ?_, fun heq => heq ▸ rfl⟩⟩
    exact haccounted.submissionId_inj hc hown hsub

/-- A digest that tells challenges and the names of the members apart. -/
def memberDigest (challengeId : UUID) (metadata : JsonDict) : String :=
  String.ofList (List.replicate challengeId '-' ++
    '/' :: metadata.flatMap (fun member => jsonString member.1))

/-- Metadata with the same keys in the same order. -/
def sameMembers (metadata metadata' : JsonDict) : Prop :=
  metadata.flatMap (fun member => jsonString member.1) =
    metadata'.flatMap (fun member => jsonString member.1)

/-- The digest tells the challenge and the keys. -/
theorem memberDigest_injective (challengeId : UUID) (metadata : JsonDict) (challengeId' : UUID)
    (metadata' : JsonDict)
    (h : memberDigest challengeId metadata = memberDigest challengeId' metadata') :
    challengeId = challengeId' ∧ sameMembers metadata metadata' := by
  have hlists := String.ofList_injective h
  have hsplit : ∀ (n n' : Nat) (text text' : List Char),
      List.replicate n '-' ++ '/' :: text = List.replicate n' '-' ++ '/' :: text' →
      n = n' ∧ text = text' := by
    intro n
    induction n with
    | zero =>
        intro n' text text' heq
        cases n' with
        | zero => exact ⟨rfl, (List.cons.inj heq).2⟩
        | succ n' => exact absurd (List.cons.inj heq).1 (by decide)
    | succ n ih =>
        intro n' text text' heq
        cases n' with
        | zero => exact absurd (List.cons.inj heq).1 (by decide)
        | succ n' =>
            obtain ⟨rfl, htext⟩ := ih n' text text' (List.cons.inj heq).2
            exact ⟨rfl, htext⟩
  exact hsplit _ _ _ _ hlists

/-- A configuration with that digest for fingerprints. -/
def digestConfig : SubmissionConfig :=
  { defaultConfig with ingestionEnabled := false, requestFingerprint := memberDigest }

/-- Two creates with one key, and one without, pass their lookups and their locks
before the first of them inserts; then the key is used for other metadata. -/
def racingCreates : List AcceptanceAction :=
  [.create participant 5 (some [("a", .null)]) (some " k ") none,
    .create participant 5 (some [("a", .null)]) (some "k") none,
    .create participant 5 (some [("a", .null)]) none none,
    .grant 0 true, .grant 1 true, .grant 2 true,
    .service (.commit 0 .ok 10), .service (.commit 1 .ok 11), .service (.compensate 1 .ok),
    .service (.commit 2 .ok 12), .create participant 5 (some [("b", .null)]) (some "k") none]

/-- Two creates race under one key, a replay follows, and a different request. -/
theorem one_submission_for_key_racing :
    ∃ s, s.responses.map Response.reply = [.refused (.conflict
        "Idempotency-Key is already associated with a different submission request."),
        .created 10 false, .created 9 true, .created 9 false] ∧
      CreatedOnce sameMembers s := by
  have hstart : (acceptance digestConfig).start
      ⟨emptyService, fun _ => some openChallenge, Table.empty, [], [], []⟩ :=
    ⟨rfl, rfl, rfl, rfl, rfl, fun _ _ hc => Option.some.inj hc ▸ ⟨rfl, rfl⟩⟩
  obtain ⟨s, hreach, htest⟩ : ∃ s, (acceptance digestConfig).Reach always s ∧
      decide (s.responses.map Response.reply = [.refused (.conflict
        "Idempotency-Key is already associated with a different submission request."),
        .created 10 false, .created 9 true, .created 9 false]) = true :=
    System.reach_of_test _ racingCreates _ hstart (by decide)
  exact ⟨s, of_decide_eq_true htest,
    one_submission_for_key digestConfig sameMembers memberDigest_injective s hreach⟩

end ChallengeForge
