import ChallengeForge.SubmissionTransitions

/-!
# One terminal transition for each submission

The invariants of `submissionTransitions`.  The row lock makes the UPDATE, the
INSERT of the evaluation and the commit one step for every other writer of the
row; the reads of a late transition may fall anywhere between them.

* `Coherent` — the evaluations and the replies agree with the rows;
* `TransitionService.Held` — who holds a row lock, and what its row is meanwhile;
* `TransitionService.Attributed` — which request was sent by whom;
* `leaves_created_once` — what follows for every run.
-/

namespace ChallengeForge

open Keyed Labelled

/-! ## Submissions and their evaluations -/

/-- The evaluations and the replies agree with the rows. -/
structure Coherent (submissions : Submissions) (evaluations : Table EvaluationRow EvaluationRow.id)
    (replies : List (UUID × Reply)) : Prop where
  evaluated : ∀ e ∈ evaluations, ∃ row ∈ submissions,
    row.id = e.submissionId ∧ row.status = .submitted
  queued : ∀ row ∈ submissions, row.status = .submitted → ∃ e ∈ evaluations,
    e.submissionId = row.id
  single : ∀ e ∈ evaluations, ∀ e' ∈ evaluations, e.submissionId = e'.submissionId → e = e'
  submitted : ∀ requestId submissionId evaluationId,
    (requestId, .submitted submissionId evaluationId) ∈ replies → ∃ e ∈ evaluations,
      e.id = evaluationId ∧ e.submissionId = submissionId
  cancelled : ∀ requestId submissionId, (requestId, .cancelled submissionId) ∈ replies →
    ∃ row ∈ submissions, row.id = submissionId ∧ row.status = .cancelled

namespace Delegated

variable {s s' : Service} {a : ServiceAction}

/-- A delegated step keeps every row, its owner and its status. -/
theorem kept (h : Delegated s a s') : ∀ row ∈ s.submissions, ∃ row' ∈ s'.submissions,
    row'.id = row.id ∧ row'.participantId = row.participantId ∧ row'.status = row.status := by
  intro row hrow
  rcases h.rows with hsame | ⟨id, new, key, now, hadd⟩ |
    ⟨request, _, _, loaded, metadata, now, _, hflush⟩
  · exact ⟨row, hsame ▸ hrow, rfl, rfl, rfl⟩
  · exact ⟨row, (Submissions.mem_of_add hadd).mpr (Or.inl hrow), rfl, rfl, rfl⟩
  · rw [hflush]
    refine ⟨_, Submissions.mem_flushEdit.mpr ⟨row, hrow, rfl⟩, ?_⟩
    by_cases hid : row.id = loaded.id <;> simp [hid, SubmissionRow.writeChanges]

/-- The rows after a delegated step were there before, or are CREATED. -/
theorem origin (h : Delegated s a s') : ∀ row' ∈ s'.submissions, row'.status = .created ∨
    ∃ row ∈ s.submissions, row.id = row'.id ∧ row.participantId = row'.participantId ∧
      row.status = row'.status := by
  intro row' hrow'
  rcases h.rows with hsame | ⟨id, new, key, now, hadd⟩ |
    ⟨request, _, _, loaded, metadata, now, _, hflush⟩
  · exact Or.inr ⟨row', hsame ▸ hrow', rfl, rfl, rfl⟩
  · rcases (Submissions.mem_of_add hadd).mp hrow' with hold | rfl
    · exact Or.inr ⟨row', hold, rfl, rfl, rfl⟩
    · exact Or.inl rfl
  · rw [hflush] at hrow'
    obtain ⟨row, hrow, rfl⟩ := Submissions.mem_flushEdit.mp hrow'
    refine Or.inr ⟨row, hrow, ?_⟩
    by_cases hid : row.id = loaded.id <;> simp [hid, SubmissionRow.writeChanges]

/-- A row that a delegated step changes is the one its request has loaded. -/
theorem changed (h : Delegated s a s') {row : SubmissionRow} (hrow : row ∈ s.submissions)
    (hchanged : row ∉ s'.submissions) :
    ∃ request ∈ s.requests, a.request = some request.id ∧ ∃ loaded metadata,
      request.work = .rewrite loaded metadata ∧ row.id = loaded.id := by
  rcases h.rows with hsame | ⟨id, new, key, now, hadd⟩ |
    ⟨request, hrequest, hid, loaded, metadata, now, hwork, hflush⟩
  · exact absurd (hsame ▸ hrow) hchanged
  · exact absurd ((Submissions.mem_of_add hadd).mpr (Or.inl hrow)) hchanged
  · refine ⟨request, hrequest, hid, loaded, metadata, hwork, ?_⟩
    by_contra hother
    apply hchanged
    rw [hflush]
    exact Submissions.mem_flushEdit.mpr ⟨row, hrow, by simp [hother]⟩

theorem coherent (h : Delegated s a s')
    (hs : Coherent s.submissions s.evaluations.evaluations s.replies) :
    Coherent s'.submissions s'.evaluations.evaluations s'.replies := by
  rw [h.evaluations]
  have hold : ∀ sent ∈ s'.replies, sent.2.reportsTransition = true → sent ∈ s.replies := by
    intro sent hsent hreports
    rcases h.replies sent hsent with hmem | hnot
    · exact hmem
    · rw [hnot] at hreports
      cases hreports
  refine ⟨?_, ?_, hs.single, ?_, ?_⟩
  · intro e he
    obtain ⟨row, hrow, hid, hstatus⟩ := hs.evaluated e he
    obtain ⟨row', hrow', hid', _, hstatus'⟩ := h.kept row hrow
    exact ⟨row', hrow', hid'.trans hid, hstatus'.trans hstatus⟩
  · intro row' hrow' hstatus
    rcases h.origin row' hrow' with hcreated | ⟨row, hrow, hid, _, hsame⟩
    · rw [hcreated] at hstatus
      cases hstatus
    · obtain ⟨e, he, hsub⟩ := hs.queued row hrow (hsame.trans hstatus)
      exact ⟨e, he, hsub.trans hid⟩
  · intro requestId submissionId evaluationId hsent
    exact hs.submitted _ _ _ (hold _ hsent rfl)
  · intro requestId submissionId hsent
    obtain ⟨row, hrow, hid, hstatus⟩ := hs.cancelled _ _ (hold _ hsent rfl)
    obtain ⟨row', hrow', hid', _, hstatus'⟩ := h.kept row hrow
    exact ⟨row', hrow', hid'.trans hid, hstatus'.trans hstatus⟩

end Delegated

namespace Coherent

variable {submissions rows : Submissions} {evaluations : Table EvaluationRow EvaluationRow.id}
  {replies : List (UUID × Reply)} {submissionId participantId : UUID} {now : Timestamp}
  {winner : SubmissionRow}

/-- A reply is sent that agrees with the rows. -/
theorem reply (h : Coherent submissions evaluations replies) (requestId : UUID) {sent : Reply}
    (hsubmitted : ∀ submissionId evaluationId, sent = .submitted submissionId evaluationId →
      ∃ e ∈ evaluations, e.id = evaluationId ∧ e.submissionId = submissionId)
    (hcancelled : ∀ submissionId, sent = .cancelled submissionId →
      ∃ row ∈ submissions, row.id = submissionId ∧ row.status = .cancelled) :
    Coherent submissions evaluations ((requestId, sent) :: replies) := by
  refine ⟨h.evaluated, h.queued, h.single, ?_, ?_⟩
  · intro id submissionId evaluationId hsent
    rcases List.mem_cons.mp hsent with hnew | hold
    · exact hsubmitted _ _ (Prod.mk.inj hnew).2.symm
    · exact h.submitted _ _ _ hold
  · intro id submissionId hsent
    rcases List.mem_cons.mp hsent with hnew | hold
    · exact hcancelled _ (Prod.mk.inj hnew).2.symm
    · exact h.cancelled _ _ hold

/-- A row that is not CREATED outlives a transition. -/
theorem stays {target : SubmissionStatus}
    (hmatch : submissions.transitionIfCreated submissionId participantId target now =
      some (winner, rows)) {row : SubmissionRow} (hrow : row ∈ submissions)
    (hstatus : row.status ≠ .created) : row ∈ rows := by
  obtain ⟨found, hfound, hid, _, hcreated, _, hmem⟩ := Submissions.transition_eq_some hmatch
  refine (hmem row).mpr (Or.inl ⟨hrow, ?_⟩)
  rintro hsame
  obtain rfl := Table.eq_of_key_eq hrow hfound (hsame.trans hid.symm)
  exact hstatus hcreated

/-- **Cancelling** one CREATED row. -/
theorem cancel (h : Coherent submissions evaluations replies)
    (hmatch : submissions.transitionIfCreated submissionId participantId .cancelled now =
      some (winner, rows)) : Coherent rows evaluations replies := by
  obtain ⟨found, hfound, hid, _, hcreated, hwinner, hmem⟩ :=
    Submissions.transition_eq_some hmatch
  refine ⟨?_, ?_, h.single, h.submitted, ?_⟩
  · intro e he
    obtain ⟨row, hrow, hrowId, hstatus⟩ := h.evaluated e he
    exact ⟨row, stays hmatch hrow (by rw [hstatus]; decide), hrowId, hstatus⟩
  · intro row hrow hstatus
    rcases (hmem row).mp hrow with ⟨hold, _⟩ | rfl
    · exact h.queued row hold hstatus
    · rw [hwinner] at hstatus
      cases hstatus
  · intro requestId other hsent
    obtain ⟨row, hrow, hrowId, hstatus⟩ := h.cancelled _ _ hsent
    exact ⟨row, stays hmatch hrow (by rw [hstatus]; decide), hrowId, hstatus⟩

/-- **Submitting** one CREATED row, with its first evaluation. -/
theorem submit (h : Coherent submissions evaluations replies)
    (hmatch : submissions.transitionIfCreated submissionId participantId .submitted now =
      some (winner, rows)) {evaluations' : Table EvaluationRow EvaluationRow.id}
    {new : EvaluationRow} (hnew : new.submissionId = submissionId)
    (hfirst : ∀ other ∈ evaluations, other.submissionId ≠ submissionId)
    (hinsert : evaluations.insert new = some evaluations') :
    Coherent rows evaluations' replies := by
  obtain ⟨found, hfound, hid, _, hcreated, hwinner, hmem⟩ :=
    Submissions.transition_eq_some hmatch
  have hwinnerId : winner.id = submissionId := by rw [hwinner, ← hid]
  have hevals : ∀ e, e ∈ evaluations' ↔ e ∈ evaluations ∨ e = new :=
    fun e => Table.mem_of_insert hinsert
  refine ⟨?_, ?_, ?_, ?_, ?_⟩
  · intro e he
    rcases (hevals e).mp he with hold | rfl
    · obtain ⟨row, hrow, hrowId, hstatus⟩ := h.evaluated e hold
      exact ⟨row, stays hmatch hrow (by rw [hstatus]; decide), hrowId, hstatus⟩
    · exact ⟨winner, (hmem winner).mpr (Or.inr rfl), hwinnerId.trans hnew.symm,
        by rw [hwinner]⟩
  · intro row hrow hstatus
    rcases (hmem row).mp hrow with ⟨hold, _⟩ | rfl
    · obtain ⟨e, he, hsub⟩ := h.queued row hold hstatus
      exact ⟨e, (hevals e).mpr (Or.inl he), hsub⟩
    · exact ⟨new, (hevals new).mpr (Or.inr rfl), hnew.trans hwinnerId.symm⟩
  · intro e he e' he' hsame
    rcases (hevals e).mp he with hold | rfl <;> rcases (hevals e').mp he' with hold' | rfl
    · exact h.single e hold e' hold' hsame
    · exact absurd (hsame.trans hnew) (hfirst e hold)
    · exact absurd (hsame.symm.trans hnew) (hfirst e' hold')
    · rfl
  · intro requestId other evaluationId hsent
    obtain ⟨e, he, heq⟩ := h.submitted _ _ _ hsent
    exact ⟨e, (hevals e).mpr (Or.inl he), heq⟩
  · intro requestId other hsent
    obtain ⟨row, hrow, hrowId, hstatus⟩ := h.cancelled _ _ hsent
    exact ⟨row, stays hmatch hrow (by rw [hstatus]; decide), hrowId, hstatus⟩

end Coherent

namespace TransitionService

variable {cfg : SubmissionConfig} {s s' : TransitionService} {t other : Transition}
  {a : TransitionAction}

/-! ## The row lock -/

theorem mem_advance {phase : TransitionPhase} (ht : t ∈ s.transitions) :
    other ∈ (s.advance t phase).transitions ↔
      (other ∈ s.transitions ∧ other.id ≠ t.id) ∨ other = { t with phase := phase } := by
  simp only [advance, Table.mem_update]
  constructor
  · rintro ⟨before, hbefore, rfl⟩
    by_cases hid : before.id = t.id
    · obtain rfl := Table.eq_of_key_eq hbefore ht hid
      exact Or.inr (by simp)
    · exact Or.inl (by simp [hid, hbefore])
  · rintro (⟨hother, hid⟩ | rfl)
    · exact ⟨other, hother, by simp [hid]⟩
    · exact ⟨t, ht, by simp⟩

theorem mem_finish {reply : Reply} :
    other ∈ (s.finish t reply).transitions ↔ other ∈ s.transitions ∧ other.id ≠ t.id := by
  simp [finish]

theorem mem_die : other ∈ (s.die t).transitions ↔ other ∈ s.transitions ∧ other.id ≠ t.id := by
  simp [die]

/-- A free row lock is held by no transition. -/
theorem not_holding_of_free {submissionId : UUID} (hfree : s.locked submissionId = false)
    (hother : other ∈ s.transitions) (hsub : other.submissionId = submissionId)
    (updatedAt : Timestamp) : other.phase ≠ .holding updatedAt := by
  intro hphase
  have hany := (List.any_eq_false.mp hfree) other hother
  simp [hsub, hphase] at hany

/-- Who holds a row lock, and what the row is meanwhile. -/
structure Held (s : TransitionService) : Prop where
  /-- The row of a holder is CREATED and its actor's. -/
  row : ∀ t ∈ s.transitions, ∀ updatedAt, t.phase = .holding updatedAt →
    ∃ row ∈ s.service.submissions, row.id = t.submissionId ∧
      row.participantId = t.actor.id ∧ row.status = .created
  /-- A row has one holder at most. -/
  exclusive : ∀ t ∈ s.transitions, ∀ t' ∈ s.transitions, ∀ updatedAt updatedAt',
    t.phase = .holding updatedAt → t'.phase = .holding updatedAt' →
      t.submissionId = t'.submissionId → t = t'
  /-- A retried transition has read its own row. -/
  retried : ∀ t ∈ s.transitions, ∀ current, t.phase = .retrying current →
    current.id = t.submissionId

/-- Held locks stay held while transitions leave and the rows are kept. -/
theorem Held.shrink (h : Held s)
    (hfrom : ∀ t ∈ s'.transitions, t ∈ s.transitions)
    (hrows : ∀ t ∈ s'.transitions, ∀ row ∈ s.service.submissions,
      row.id = t.submissionId → (∃ updatedAt, t.phase = .holding updatedAt) →
      ∃ row' ∈ s'.service.submissions, row'.id = row.id ∧
        row'.participantId = row.participantId ∧ row'.status = row.status) : Held s' where
  row := by
    intro t ht updatedAt hphase
    obtain ⟨row, hrow, hid, howner, hstatus⟩ := h.row t (hfrom t ht) updatedAt hphase
    obtain ⟨row', hrow', hid', howner', hstatus'⟩ := hrows t ht row hrow hid ⟨updatedAt, hphase⟩
    exact ⟨row', hrow', hid'.trans hid, howner'.trans howner, hstatus'.trans hstatus⟩
  exclusive := fun t ht t' ht' => h.exclusive t (hfrom t ht) t' (hfrom t' ht')
  retried := fun t ht => h.retried t (hfrom t ht)

/-- A transition goes on without the lock. -/
theorem Held.advance (h : Held s) {phase : TransitionPhase} (ht : t ∈ s.transitions)
    (hfree : ∀ updatedAt, phase ≠ .holding updatedAt)
    (hretried : ∀ current, phase = .retrying current → current.id = t.submissionId) :
    Held (s.advance t phase) where
  row := by
    intro other hother updatedAt hphase
    rcases (mem_advance ht).mp hother with ⟨hold, _⟩ | rfl
    · exact h.row other hold updatedAt hphase
    · exact absurd hphase (hfree updatedAt)
  exclusive := by
    intro x hx y hy u v hxu hyv hsame
    rcases (mem_advance ht).mp hx with ⟨hx, _⟩ | rfl
    · rcases (mem_advance ht).mp hy with ⟨hy, _⟩ | rfl
      · exact h.exclusive x hx y hy u v hxu hyv hsame
      · exact absurd hyv (hfree v)
    · exact absurd hxu (hfree u)
  retried := by
    intro other hother current hphase
    rcases (mem_advance ht).mp hother with ⟨hold, _⟩ | rfl
    · exact h.retried other hold current hphase
    · exact hretried current hphase

/-- A transition takes a free lock. -/
theorem Held.take (h : Held s) {now : Timestamp} {winner : SubmissionRow} {rows : Submissions}
    (ht : t ∈ s.transitions) (hfree : s.locked t.submissionId = false)
    (hmatch : s.service.submissions.transitionIfCreated t.submissionId t.actor.id
      t.target.status now = some (winner, rows)) :
    Held (s.advance t (.holding now)) where
  row := by
    intro other hother updatedAt hphase
    rcases (mem_advance ht).mp hother with ⟨hold, _⟩ | rfl
    · exact h.row other hold updatedAt hphase
    · obtain ⟨row, hrow, hid, howner, hstatus, _⟩ := Submissions.transition_eq_some hmatch
      exact ⟨row, hrow, hid, howner, hstatus⟩
  exclusive := by
    intro x hx y hy u v hxu hyv hsame
    rcases (mem_advance ht).mp hx with ⟨hx, _⟩ | rfl
    · rcases (mem_advance ht).mp hy with ⟨hy, _⟩ | rfl
      · exact h.exclusive x hx y hy u v hxu hyv hsame
      · exact absurd hxu (not_holding_of_free hfree hx hsame u)
    · rcases (mem_advance ht).mp hy with ⟨hy, _⟩ | rfl
      · exact absurd hyv (not_holding_of_free hfree hy hsame.symm v)
      · rfl
  retried := by
    intro other hother current hphase
    rcases (mem_advance ht).mp hother with ⟨hold, _⟩ | rfl
    · exact h.retried other hold current hphase
    · cases hphase

/-- A holder commits: the rows of the other holders are untouched. -/
theorem Held.commit (h : Held s) {target : SubmissionStatus} {updatedAt : Timestamp}
    {winner : SubmissionRow} {rows : Submissions} {service : Service} {reply : Reply}
    (ht : t ∈ s.transitions) (hphase : t.phase = .holding updatedAt)
    (hmatch : s.service.submissions.transitionIfCreated t.submissionId t.actor.id target
      updatedAt = some (winner, rows)) (hservice : service.submissions = rows) :
    Held (({ s with service := service } : TransitionService).finish t reply) := by
  refine h.shrink (fun x hx => (mem_finish.mp hx).1) ?_
  intro x hx row hrow hid hholds
  obtain ⟨v, hv⟩ := hholds
  obtain ⟨hxs, hne⟩ := mem_finish.mp hx
  have hrow' : row ∈ service.submissions := by
    obtain ⟨_, _, _, _, _, _, hmem⟩ := Submissions.transition_eq_some hmatch
    rw [hservice]
    refine (hmem row).mpr (Or.inl ⟨hrow, ?_⟩)
    intro hsame
    exact hne (by rw [h.exclusive x hxs t ht v updatedAt hv hphase (hid.symm.trans hsame)])
  exact ⟨row, hrow', rfl, rfl, rfl⟩

theorem held_of_moved (h : Held s) (hmoved : Moved cfg s a s') : Held s' := by
  cases hmoved with
  | refused e =>
      exact h.shrink (fun _ ht => ht) (fun _ _ row hrow _ _ => ⟨row, hrow, rfl, rfl, rfl⟩)
  | started hinsert =>
      have hmem : ∀ {x}, x ∈ _ ↔ _ := fun {x} => Table.mem_of_insert hinsert (s := x)
      refine ⟨?_, ?_, ?_⟩
      · intro x hx u hu
        rcases hmem.mp hx with hx | rfl
        · exact h.row x hx u hu
        · cases hu
      · intro x hx y hy u v hu hv hsame
        rcases hmem.mp hx with hx | rfl
        · rcases hmem.mp hy with hy | rfl
          · exact h.exclusive x hx y hy u v hu hv hsame
          · cases hv
        · cases hu
      · intro x hx current hphase
        rcases hmem.mp hx with hx | rfl
        · exact h.retried x hx current hphase
        · cases hphase
  | held ht hfree hmatch => exact h.take ht hfree hmatch
  | missed ht => exact h.advance ht (fun _ h => by cases h) (fun _ h => by cases h)
  | retried ht hid =>
      refine h.advance ht (fun _ h => by cases h) ?_
      intro current hphase
      cases hphase
      exact hid
  | finished reply ht _ _ =>
      exact h.shrink (fun x hx => (mem_finish.mp hx).1)
        (fun _ _ row hrow _ _ => ⟨row, hrow, rfl, rfl, rfl⟩)
  | died ht =>
      exact h.shrink (fun x hx => (mem_die.mp hx).1)
        (fun _ _ row hrow _ _ => ⟨row, hrow, rfl, rfl, rfl⟩)
  | cancelled ht hphase _ hmatch => exact h.commit ht hphase hmatch rfl
  | submitted ht hphase _ hmatch _ => exact h.commit ht hphase hmatch rfl
  | delegated hstep _ =>
      exact h.shrink (fun _ ht => ht) (fun _ _ row hrow _ _ => hstep.kept row hrow)

/-- **A holder is never stuck**: under its lock the commit goes through or raises. -/
theorem commit_of_held (h : Held s) (ht : t ∈ s.transitions) {updatedAt : Timestamp}
    (hphase : t.phase = .holding updatedAt) (outcome : CallOutcome) (now : Timestamp) :
    ∃ s', s.commit cfg t outcome now = some s' := by
  obtain ⟨row, hrow, hid, howner, hstatus⟩ := h.row t ht updatedAt hphase
  obtain ⟨winner, rows, hmatch⟩ : ∃ winner rows, s.service.submissions.transitionIfCreated
      t.submissionId t.actor.id t.target.status updatedAt = some (winner, rows) :=
    Submissions.transition_isSome hrow hid howner hstatus
  unfold TransitionService.commit
  rw [hphase]
  simp only [hmatch]
  split
  · exact ⟨_, rfl⟩
  split
  · exact ⟨_, rfl⟩
  · split <;> exact ⟨_, rfl⟩

/-! ## What every run keeps -/

theorem coherent_of_moved (hheld : Held s)
    (h : Coherent s.service.submissions s.service.evaluations.evaluations s.service.replies)
    (hmoved : Moved cfg s a s') :
    Coherent s'.service.submissions s'.service.evaluations.evaluations s'.service.replies := by
  cases hmoved with
  | refused e => exact h.reply _ (fun _ _ h => by cases h) (fun _ h => by cases h)
  | started _ => exact h
  | held _ _ _ => exact h
  | missed _ => exact h
  | retried _ _ => exact h
  | died _ => exact h
  | finished reply ht hcancelled hsubmitted =>
      refine h.reply _ ?_ (fun id hreply => absurd hreply (hcancelled id))
      intro submissionId evaluationId hreply
      obtain ⟨⟨current, hphase, hid⟩, e, he, heid, hsub⟩ := hsubmitted _ _ hreply
      exact ⟨e, he, heid, by rw [hsub, ← hheld.retried _ ht current hphase, hid]⟩
  | @cancelled t outcome now updatedAt row rows ht hphase htarget hmatch =>
      obtain ⟨found, _, hid, _, _, hwinner, hmem⟩ := Submissions.transition_eq_some hmatch
      refine (h.cancel hmatch).reply _ ?_ ?_
      · intro submissionId evaluationId hreply
        split at hreply <;> cases hreply
      · intro submissionId hreply
        split at hreply
        · cases hreply
          exact ⟨row, (hmem row).mpr (Or.inr rfl), rfl, by rw [hwinner]⟩
        · cases hreply
  | @submitted t outcome now updatedAt row rows evaluations ht hphase htarget hmatch hqueued =>
      obtain ⟨found, _, hid, _, _, hwinner, hmem⟩ := Submissions.transition_eq_some hmatch
      have hrowId : row.id = t.submissionId := by rw [hwinner, ← hid]
      obtain ⟨deadline, hcreated⟩ := createQueued_of_queueEvaluation hqueued
      obtain ⟨hfirst, new, evals, hnew, hinsert, hdb⟩ :=
        EvaluationDb.createQueued_inserts hcreated
      rw [hrowId] at hfirst
      have hsubmit := h.submit hmatch (hnew.submissionId.trans hrowId) hfirst hinsert
      subst hdb
      refine hsubmit.reply _ ?_ ?_
      · intro submissionId evaluationId hreply
        split at hreply
        · cases hreply
          exact ⟨new, (Table.mem_of_insert hinsert).mpr (Or.inr rfl), hnew.id, hnew.submissionId⟩
        · cases hreply
      · intro submissionId hreply
        split at hreply <;> cases hreply
  | delegated hstep _ => exact hstep.coherent h

/-- **No row is lost, and what has left CREATED keeps its status.** -/
theorem kept_of_moved (hmoved : Moved cfg s a s') : ∀ row ∈ s.service.submissions,
    ∃ row' ∈ s'.service.submissions, row'.id = row.id ∧
      row'.participantId = row.participantId ∧
      (row.status ≠ .created → row'.status = row.status) := by
  intro row hrow
  have hmatched : ∀ {target submissionId participantId now winner rows},
      s.service.submissions.transitionIfCreated submissionId participantId target now =
        some (winner, rows) →
      ∃ row' ∈ rows, row'.id = row.id ∧ row'.participantId = row.participantId ∧
        (row.status ≠ .created → row'.status = row.status) := by
    intro target submissionId participantId now winner rows hmatch
    obtain ⟨found, hfound, hid, _, hcreated, hwinner, hmem⟩ :=
      Submissions.transition_eq_some hmatch
    by_cases hsame : row.id = submissionId
    · obtain rfl := Table.eq_of_key_eq hrow hfound (hsame.trans hid.symm)
      refine ⟨winner, (hmem winner).mpr (Or.inr rfl), ?_⟩
      rw [hwinner]
      exact ⟨rfl, rfl, fun hleft => absurd hcreated hleft⟩
    · exact ⟨row, (hmem row).mpr (Or.inl ⟨hrow, hsame⟩), rfl, rfl, fun _ => rfl⟩
  cases hmoved with
  | cancelled _ _ _ hmatch => exact hmatched hmatch
  | submitted _ _ _ hmatch _ => exact hmatched hmatch
  | delegated hstep _ =>
      obtain ⟨row', hrow', hid, howner, hstatus⟩ := hstep.kept row hrow
      exact ⟨row', hrow', hid, howner, fun _ => hstatus⟩
  | _ => exact ⟨row, hrow, rfl, rfl, fun _ => rfl⟩

/-- Who sent the transitions and the edits in progress. -/
structure Attributed (s : TransitionService) : Prop where
  unique : (s.requesters.map Prod.fst).Nodup
  drawn : ∀ sent ∈ s.requesters, sent.1 < s.service.nextUuid
  transitions : ∀ t ∈ s.transitions, (t.id, t.actor.id) ∈ s.requesters
  /-- An edit was sent by the owner of its row. -/
  edits : ∀ request ∈ s.service.requests, ∀ loaded metadata,
    request.work = .rewrite loaded metadata →
      (request.id, loaded.participantId) ∈ s.requesters ∧
      ∃ row ∈ s.service.submissions, row.id = loaded.id ∧
        row.participantId = loaded.participantId

/-- The edits in progress keep their rows, whatever a step does. -/
theorem Attributed.edits_of_kept (h : Attributed s) {service : Service}
    {requesters : List (UUID × UUID)} (hrequests : service.requests = s.service.requests)
    (hmore : ∀ sent ∈ s.requesters, sent ∈ requesters)
    (hkept : ∀ row ∈ s.service.submissions, ∃ row' ∈ service.submissions, row'.id = row.id ∧
      row'.participantId = row.participantId ∧
      (row.status ≠ .created → row'.status = row.status)) :
    ∀ request ∈ service.requests, ∀ loaded metadata, request.work = .rewrite loaded metadata →
      (request.id, loaded.participantId) ∈ requesters ∧
      ∃ row ∈ service.submissions, row.id = loaded.id ∧
        row.participantId = loaded.participantId := by
  intro request hrequest loaded metadata hwork
  rw [hrequests] at hrequest
  obtain ⟨hsent, row, hrow, hid, howner⟩ := h.edits request hrequest loaded metadata hwork
  obtain ⟨row', hrow', hid', howner', _⟩ := hkept row hrow
  exact ⟨hmore _ hsent, row', hrow', hid'.trans hid, howner'.trans howner⟩

/-- A new request is recorded under an id that nobody has drawn. -/
theorem Attributed.unique_cons (h : Attributed s) (actorId : UUID) :
    (((s.service.nextUuid, actorId) :: s.requesters).map Prod.fst).Nodup := by
  rw [List.map_cons, List.nodup_cons]
  refine ⟨?_, h.unique⟩
  intro hmem
  obtain ⟨sent, hsent, hid⟩ := List.mem_map.mp hmem
  exact absurd (h.drawn sent hsent) (by rw [hid]; exact Nat.lt_irrefl _)

theorem Attributed.drawn_cons (h : Attributed s) (actorId : UUID) {next : UUID}
    (hnext : s.service.nextUuid < next) :
    ∀ sent ∈ (s.service.nextUuid, actorId) :: s.requesters, sent.1 < next := by
  intro sent hsent
  rcases List.mem_cons.mp hsent with rfl | hold
  · exact hnext
  · exact Nat.lt_trans (h.drawn sent hold) hnext

/-- A transition ends or goes on, and the counter does not fall. -/
theorem Attributed.of_transitions (h : Attributed s)
    (hkept : ∀ row ∈ s.service.submissions, ∃ row' ∈ s'.service.submissions, row'.id = row.id ∧
      row'.participantId = row.participantId ∧
      (row.status ≠ .created → row'.status = row.status))
    (hrequesters : s'.requesters = s.requesters)
    (huuid : s.service.nextUuid ≤ s'.service.nextUuid)
    (hrequests : s'.service.requests = s.service.requests)
    (hfrom : ∀ t ∈ s'.transitions, ∃ before ∈ s.transitions, before.id = t.id ∧
      before.actor = t.actor) : Attributed s' where
  unique := hrequesters ▸ h.unique
  drawn := by
    rw [hrequesters]
    exact fun sent hsent => Nat.lt_of_lt_of_le (h.drawn sent hsent) huuid
  transitions := by
    intro t ht
    obtain ⟨before, hbefore, hid, hactor⟩ := hfrom t ht
    rw [hrequesters, ← hid, ← hactor]
    exact h.transitions before hbefore
  edits := h.edits_of_kept hrequests (fun _ hsent => hrequesters ▸ hsent) hkept

theorem from_advance {phase : TransitionPhase} (ht : t ∈ s.transitions) :
    ∀ x ∈ (s.advance t phase).transitions, ∃ before ∈ s.transitions, before.id = x.id ∧
      before.actor = x.actor := by
  intro x hx
  rcases (mem_advance ht).mp hx with ⟨hold, _⟩ | rfl
  · exact ⟨x, hold, rfl, rfl⟩
  · exact ⟨t, ht, rfl, rfl⟩

theorem from_finish {service : Service} {reply : Reply} :
    ∀ x ∈ (({ s with service := service } : TransitionService).finish t reply).transitions,
      ∃ before ∈ s.transitions, before.id = x.id ∧ before.actor = x.actor :=
  fun x hx => ⟨x, (mem_finish.mp hx).1, rfl, rfl⟩

/-- Who sent a request stays on record. -/
theorem requesters_of_moved (hmoved : Moved cfg s a s') :
    ∀ sent ∈ s.requesters, sent ∈ s'.requesters := by
  intro sent hsent
  cases hmoved with
  | refused e => exact List.mem_cons_of_mem _ hsent
  | started hinsert => exact List.mem_cons_of_mem _ hsent
  | held => exact hsent
  | missed => exact hsent
  | retried => exact hsent
  | finished => exact hsent
  | died => exact hsent
  | cancelled => exact hsent
  | submitted => exact hsent
  | delegated hstep hfree =>
      dsimp only
      split
      · exact List.mem_cons_of_mem _ hsent
      · exact hsent

theorem attributed_of_moved (h : Attributed s) (hmoved : Moved cfg s a s') : Attributed s' := by
  have hkept := kept_of_moved hmoved
  have hmore := requesters_of_moved hmoved
  cases hmoved with
  | refused e =>
      exact ⟨h.unique_cons _, h.drawn_cons _ (Nat.lt_add_one _),
        fun t ht => List.mem_cons_of_mem _ (h.transitions t ht),
        h.edits_of_kept rfl (fun _ => List.mem_cons_of_mem _) hkept⟩
  | started hinsert =>
      refine ⟨h.unique_cons _, h.drawn_cons _ (Nat.lt_add_one _), ?_,
        h.edits_of_kept rfl (fun _ => List.mem_cons_of_mem _) hkept⟩
      intro t ht
      rcases (Table.mem_of_insert hinsert).mp ht with hold | rfl
      · exact List.mem_cons_of_mem _ (h.transitions t hold)
      · exact List.mem_cons_self
  | held ht _ _ => exact h.of_transitions hkept rfl (Nat.le_refl _) rfl (from_advance ht)
  | missed ht => exact h.of_transitions hkept rfl (Nat.le_refl _) rfl (from_advance ht)
  | retried ht _ => exact h.of_transitions hkept rfl (Nat.le_refl _) rfl (from_advance ht)
  | finished reply ht _ _ => exact h.of_transitions hkept rfl (Nat.le_refl _) rfl from_finish
  | died ht =>
      exact h.of_transitions hkept rfl (Nat.le_refl _) rfl
        (fun x hx => ⟨x, (mem_die.mp hx).1, rfl, rfl⟩)
  | cancelled ht _ _ _ => exact h.of_transitions hkept rfl (Nat.le_refl _) rfl from_finish
  | submitted ht _ _ _ _ =>
      exact h.of_transitions hkept rfl (Nat.le_add_right _ 1) rfl from_finish
  | @delegated a service hstep hfree =>
      refine ⟨?_, ?_, fun t ht => hmore _ (h.transitions t ht), ?_⟩
      · dsimp only
        split
        · exact h.unique_cons _
        · exact h.unique
      · dsimp only
        split
        · rename_i actorId hrequester
          exact h.drawn_cons _ (hstep.drawn (by rw [hrequester]; rfl))
        · exact fun sent hsent => Nat.lt_of_lt_of_le (h.drawn sent hsent) hstep.nextUuid
      · intro request hrequest loaded metadata hwork
        rcases hstep.requests request hrequest with ⟨before, hbefore, hid, hsame⟩ |
          ⟨hid, _, hloaded⟩
        · obtain ⟨hsent, row, hrow, hrowId, howner⟩ :=
            h.edits before hbefore loaded metadata (hsame.trans hwork)
          obtain ⟨row', hrow', hid', howner', _⟩ := hkept row hrow
          exact ⟨hmore _ (hid ▸ hsent), row', hrow', hid'.trans hrowId, howner'.trans howner⟩
        · obtain ⟨hmem, hrequester⟩ := hloaded loaded metadata hwork
          obtain ⟨row', hrow', hid', howner', _⟩ := hkept loaded hmem
          refine ⟨?_, row', hrow', hid', howner'⟩
          simp only [hrequester, hid]
          exact List.mem_cons_self

end TransitionService

/-- The request that an action belongs to, if it has started before. -/
def TransitionAction.request : TransitionAction → Option UUID
  | start .. => none
  | update id _ | commit id _ _ | fail id => some id
  | readSubmission id | readEvaluation id | die id => some id
  | service a => a.request

namespace TransitionService

/-- **Only its owner's requests change a row.** -/
theorem changed_of_moved (h : Attributed s) (hmoved : Moved cfg s a s') {row : SubmissionRow}
    (hrow : row ∈ s.service.submissions) (hchanged : row ∉ s'.service.submissions) :
    ∃ id, a.request = some id ∧ (id, row.participantId) ∈ s.requesters := by
  have hmatched : ∀ {t target now winner rows}, t ∈ s.transitions →
      s.service.submissions.transitionIfCreated t.submissionId t.actor.id target now =
        some (winner, rows) → row ∉ rows → (t.id, row.participantId) ∈ s.requesters := by
    intro t target now winner rows ht hmatch hgone
    obtain ⟨found, hfound, hid, howner, _, _, hmem⟩ := Submissions.transition_eq_some hmatch
    have hsame : row.id = t.submissionId := by
      by_contra hother
      exact hgone ((hmem row).mpr (Or.inl ⟨hrow, hother⟩))
    obtain rfl := Table.eq_of_key_eq hrow hfound (hsame.trans hid.symm)
    rw [howner]
    exact h.transitions t ht
  cases hmoved with
  | cancelled ht _ _ hmatch => exact ⟨_, rfl, hmatched ht hmatch hchanged⟩
  | submitted ht _ _ hmatch _ => exact ⟨_, rfl, hmatched ht hmatch hchanged⟩
  | delegated hstep _ =>
      obtain ⟨request, hrequest, hcall, loaded, metadata, hwork, hid⟩ :=
        hstep.changed hrow hchanged
      obtain ⟨hsent, owned, howned, hownedId, howner⟩ :=
        h.edits request hrequest loaded metadata hwork
      obtain rfl := Table.eq_of_key_eq hrow howned (hid.trans hownedId.symm)
      rw [howner]
      exact ⟨request.id, hcall, hsent⟩
  | _ => exact absurd hrow hchanged

/-- A submission has no evaluation, or one. -/
theorem count_evaluations {submissions : Submissions}
    {evaluations : Table EvaluationRow EvaluationRow.id} {replies : List (UUID × Reply)}
    (h : Coherent submissions evaluations replies) {row : SubmissionRow}
    (hrow : row ∈ submissions) :
    evaluations.count (fun e => decide (e.submissionId = row.id)) =
      if row.status = .submitted then 1 else 0 := by
  have hle : evaluations.count (fun e => decide (e.submissionId = row.id)) ≤ 1 := by
    apply Table.count_le_one
    intro e he e' he' hsub hsub'
    exact h.single e he e' he' ((of_decide_eq_true hsub).trans (of_decide_eq_true hsub').symm)
  split
  · rename_i hstatus
    obtain ⟨e, he, hsub⟩ := h.queued row hrow hstatus
    have hne : evaluations.count (fun e => decide (e.submissionId = row.id)) ≠ 0 := by
      intro hzero
      have hnone := Table.count_eq_zero_iff.mp hzero e he
      simp [hsub] at hnone
    omega
  · rename_i hstatus
    rw [Table.count_eq_zero_iff]
    intro e he
    obtain ⟨other, hother, hid, hsubmitted⟩ := h.evaluated e he
    rw [decide_eq_false_iff_not]
    intro hsub
    obtain rfl := Table.eq_of_key_eq hrow hother (hsub.symm.trans hid.symm)
    exact hstatus hsubmitted

/-- The invariants of every run. -/
theorem invariants_of_reach (hreach : (submissionTransitions cfg).Reach always s) :
    Held s ∧ Attributed s ∧
      Coherent s.service.submissions s.service.evaluations.evaluations s.service.replies := by
  refine hreach.invariant (I := fun s => Held s ∧ Attributed s ∧
    Coherent s.service.submissions s.service.evaluations.evaluations s.service.replies) ?_ ?_
  · rintro s rfl
    refine ⟨⟨?_, ?_, ?_⟩, ⟨?_, ?_, ?_, ?_⟩, ⟨?_, ?_, ?_, ?_, ?_⟩⟩ <;> simp [emptyService]
  · intro s a s' hs _ hstep
    obtain ⟨hheld, hattributed, hcoherent⟩ := hs
    have hmoved := moved_of_step hstep
    exact ⟨held_of_moved hheld hmoved, attributed_of_moved hattributed hmoved,
      coherent_of_moved hheld hcoherent hmoved⟩

end TransitionService

/-- What holds of a state, and from it on, in every run. -/
structure SettledOnce (cfg : SubmissionConfig) (s : TransitionService) : Prop where
  /-- What has left CREATED keeps its status from then on. -/
  absorbing : ∀ t, (submissionTransitions cfg).Path always s t →
    ∀ row ∈ s.service.submissions, row.status ≠ .created → ∃ row' ∈ t.service.submissions,
      row'.id = row.id ∧ row'.status = row.status
  /-- No submission is reported both submitted and cancelled. -/
  oneWinner : ∀ submissionId evaluationId requestId requestId',
    (requestId, .submitted submissionId evaluationId) ∈ s.service.replies →
      (requestId', .cancelled submissionId) ∉ s.service.replies
  /-- A step changes a row only on behalf of a request of the row's owner. -/
  owned : ∀ a t, (submissionTransitions cfg).step s a = some t →
    ∀ row ∈ s.service.submissions, row ∉ t.service.submissions →
      ∃ requestId, a.request = some requestId ∧
        ∀ actorId, (requestId, actorId) ∈ s.requesters ↔ actorId = row.participantId
  /-- A SUBMITTED submission has exactly one evaluation; any other has none. -/
  enqueued : ∀ row ∈ s.service.submissions,
    s.service.evaluations.evaluations.count (fun e => decide (e.submissionId = row.id)) =
      if row.status = .submitted then 1 else 0
  /-- Whoever is told that a submission is submitted is told its evaluation. -/
  named : ∀ submissionId evaluationId requestId,
    (requestId, .submitted submissionId evaluationId) ∈ s.service.replies →
      (∃ row ∈ s.service.submissions, row.id = submissionId ∧ row.status = .submitted) ∧
      ∀ e ∈ s.service.evaluations.evaluations, e.submissionId = submissionId ↔ e.id = evaluationId

/-- **Single terminal transition and atomic enqueue.**  Over every interleaving
of transitions, creates and edits, whichever fails or dies and wherever. -/
theorem leaves_created_once (cfg : SubmissionConfig) (s : TransitionService)
    (hreach : (submissionTransitions cfg).Reach always s) : SettledOnce cfg s := by
  obtain ⟨_, hattributed, hcoherent⟩ := TransitionService.invariants_of_reach hreach
  refine ⟨?_, ?_, ?_, fun row hrow => TransitionService.count_evaluations hcoherent hrow, ?_⟩
  · intro t hpath row hrow hleft
    refine hpath.preserves (I := fun t => ∃ row' ∈ t.service.submissions,
      row'.id = row.id ∧ row'.status = row.status) ?_ ⟨row, hrow, rfl, rfl⟩
    rintro u a v ⟨row', hrow', hid, hstatus⟩ _ hstep
    obtain ⟨row'', hrow'', hid', _, hstays⟩ :=
      TransitionService.kept_of_moved (TransitionService.moved_of_step hstep) row' hrow'
    exact ⟨row'', hrow'', hid'.trans hid,
      (hstays (hstatus ▸ hleft)).trans hstatus⟩
  · intro submissionId evaluationId requestId requestId' hsubmitted hcancelled
    obtain ⟨e, he, _, hsub⟩ := hcoherent.submitted _ _ _ hsubmitted
    obtain ⟨row, hrow, hid, hstatus⟩ := hcoherent.evaluated e he
    obtain ⟨row', hrow', hid', hstatus'⟩ := hcoherent.cancelled _ _ hcancelled
    obtain rfl := Table.eq_of_key_eq hrow hrow' ((hid.trans hsub).trans hid'.symm)
    rw [hstatus] at hstatus'
    cases hstatus'
  · intro a t hstep row hrow hchanged
    obtain ⟨id, hid, hsent⟩ := TransitionService.changed_of_moved hattributed
      (TransitionService.moved_of_step hstep) hrow hchanged
    refine ⟨id, hid, fun actorId => ⟨fun hother => ?_, fun hactor => hactor ▸ hsent⟩⟩
    have hsame := List.inj_on_of_nodup_map hattributed.unique hother hsent rfl
    exact (Prod.mk.inj hsame).2
  · intro submissionId evaluationId requestId hsubmitted
    obtain ⟨e, he, heid, hsub⟩ := hcoherent.submitted _ _ _ hsubmitted
    obtain ⟨row, hrow, hid, hstatus⟩ := hcoherent.evaluated e he
    refine ⟨⟨row, hrow, hid.trans hsub, hstatus⟩, ?_⟩
    intro e' he'
    constructor
    · intro hsub'
      rw [hcoherent.single e' he' e he (hsub'.trans hsub.symm), heid]
    · intro hid'
      rw [Table.eq_of_key_eq he' he (hid'.trans heid.symm), hsub]

/-- A submission is created; its owner sends a submit, a cancel and, having lost the
answer to the first, another submit; a stranger sends a cancel. -/
def racingTransitions : List TransitionAction :=
  [.service (.create participant 5 none none none (.ok ())), .service (.commit 0 .ok 10),
    .start participant 2 .submitted, .start participant 2 .cancelled,
    .start ⟨8, .participant⟩ 2 .cancelled, .start participant 2 .submitted,
    .update 3 20, .update 5 21, .commit 3 .lost 22, .update 4 23, .update 6 24,
    .readSubmission 4, .readSubmission 5, .readSubmission 6, .readEvaluation 6]

theorem leaves_created_once_racing :
    ∃ s, s.service.replies.head? = some (6, .submitted 2 7) ∧ SettledOnce defaultConfig s := by
  have hstart : (submissionTransitions defaultConfig).start ⟨emptyService, Table.empty, []⟩ := rfl
  obtain ⟨s, hreach, htest⟩ : ∃ s, (submissionTransitions defaultConfig).Reach always s ∧
      decide (s.service.replies.head? = some (6, .submitted 2 7)) = true :=
    System.reach_of_test _ racingTransitions _ hstart (by decide)
  exact ⟨s, of_decide_eq_true htest, leaves_created_once defaultConfig s hreach⟩

end ChallengeForge
