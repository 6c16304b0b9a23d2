import ChallengeForge.SubmissionStore

/-!
# Who may see a submission

Four reads decide by themselves whom they show a submission to: `get` and
`list_for_user` of the submission service, `list_submissions` of the challenge
service and `_authorize_view` of the evaluation service.  The policy behind them
is `MayView`: the participant sees their own submissions, and an organizer those
made in a hackathon of theirs.

* `getSubmission_eq_ok_iff`, `authorizeView_eq_ok_iff` — two of them are the policy;
* `mem_listSubmissions_iff` — the list of a challenge follows it;
* `mem_listForUser_iff` — the list of a user shows every organizer everything;
* `listed_viewable_iff` — so what is listed can be viewed just when it is not
  another organizer who lists it.
-/

namespace ChallengeForge

open Keyed

/-- The columns of `users`, `hackathons` and `challenges` that the reads depend on. -/
structure UserRow where
  id : UUID
  deriving DecidableEq, Repr

/-- A hackathon and its organizer. -/
structure HackathonRow where
  id : UUID
  organizerId : UUID
  deriving DecidableEq, Repr

/-- A challenge and the hackathon it is held in. -/
structure HeldChallenge where
  id : UUID
  hackathonId : UUID
  deriving DecidableEq, Repr

/-- The tables the reads go through, with their foreign keys. -/
structure AccessDb where
  users : Table UserRow UserRow.id
  hackathons : Table HackathonRow HackathonRow.id
  challenges : Table HeldChallenge HeldChallenge.id
  submissions : Submissions
  organizer_exists : ∀ hackathon ∈ hackathons, (users.find? hackathon.organizerId).isSome
  hackathon_exists : ∀ challenge ∈ challenges, (hackathons.find? challenge.hackathonId).isSome
  challenge_exists : ∀ row ∈ submissions, (challenges.find? row.challengeId).isSome
  participant_exists : ∀ row ∈ submissions, (users.find? row.participantId).isSome

namespace Submissions

/-- `order_by(SubmissionRow.created_at.desc())`. -/
def newestFirst (row row' : SubmissionRow) : Prop := row'.createdAt ≤ row.createdAt

instance : DecidableRel newestFirst := fun _ _ => inferInstanceAs (Decidable (_ ≤ _))

/-- `list_for_participant`, the newest first. -/
def listForParticipant (submissions : Submissions) (participantId : UUID) : List SubmissionRow :=
  submissions.orderBy newestFirst (fun row => decide (row.participantId = participantId))

/-- `list_for_challenge`, the newest first. -/
def listForChallenge (submissions : Submissions) (challengeId : UUID) : List SubmissionRow :=
  submissions.orderBy newestFirst (fun row => decide (row.challengeId = challengeId))

end Submissions

namespace AccessDb

/-- `hackathon is None or hackathon.organizer_id != actor.id`. -/
def deniesOrganizer (db : AccessDb) (actor : Actor) (hackathonId : UUID) : Bool :=
  match db.hackathons.find? hackathonId with
  | none => true
  | some hackathon => decide (hackathon.organizerId ≠ actor.id)

/-- `SubmissionService.get(actor, submission_id)`. -/
def getSubmission (db : AccessDb) (actor : Actor) (submissionId : UUID) :
    Except DomainError SubmissionRow :=
  match db.submissions.find? submissionId with
  | none => .error (.notFound "Submission not found.")
  | some submission =>
      if submission.participantId ≠ actor.id ∧ actor.role ≠ .organizer then
        .error (.permissionDenied "You cannot view this submission.")
      else if actor.role = .organizer ∧ submission.participantId ≠ actor.id then
        match db.challenges.find? submission.challengeId with
        | none => .error (.notFound "Submission not found.")
        | some challenge =>
            if db.deniesOrganizer actor challenge.hackathonId then
              .error (.permissionDenied "You cannot view this submission.")
            else .ok submission
      else .ok submission

/-- `SubmissionService.list_for_user(actor, user_id)`. -/
def listForUser (db : AccessDb) (actor : Actor) (userId : UUID) :
    Except DomainError (List SubmissionRow) :=
  if actor.id ≠ userId ∧ actor.role ≠ .organizer then
    .error (.permissionDenied "You cannot list another participant's submissions.")
  else
    match db.users.find? userId with
    | none => .error (.notFound "User not found.")
    | some _ => .ok (db.submissions.listForParticipant userId)

/-- `ChallengeService.list_submissions(actor, challenge_id)`. -/
def listSubmissions (db : AccessDb) (actor : Actor) (challengeId : UUID) :
    Except DomainError (List SubmissionRow) :=
  match requireOrganizer actor with
  | .error e => .error e
  | .ok () =>
      match db.challenges.find? challengeId with
      | none => .error (.notFound "Challenge not found.")
      | some challenge =>
          if db.deniesOrganizer actor challenge.hackathonId then
            .error (.permissionDenied "Only the creating organizer may list these submissions.")
          else .ok (db.submissions.listForChallenge challengeId)

/-- `EvaluationService._authorize_view(actor, submission)`. -/
def authorizeView (db : AccessDb) (actor : Actor) (submission : SubmissionRow) :
    Except DomainError Unit :=
  if submission.participantId = actor.id then .ok ()
  else if actor.role ≠ .organizer then
    .error (.permissionDenied "You cannot view this evaluation.")
  else
    match db.challenges.find? submission.challengeId with
    | none => .error (.notFound "Submission not found.")
    | some challenge =>
        if db.deniesOrganizer actor challenge.hackathonId then
          .error (.permissionDenied "You cannot view this evaluation.")
        else .ok ()

/-! ## The policy -/

/-- The actor created the hackathon that the submission was made in. -/
def Organizes (db : AccessDb) (actor : Actor) (submission : SubmissionRow) : Prop :=
  ∃ challenge ∈ db.challenges, challenge.id = submission.challengeId ∧
    ∃ hackathon ∈ db.hackathons, hackathon.id = challenge.hackathonId ∧
      hackathon.organizerId = actor.id

/-- Participants see their own submissions, organizers those in their hackathons. -/
def MayView (db : AccessDb) (actor : Actor) (submission : SubmissionRow) : Prop :=
  submission.participantId = actor.id ∨
    actor.role = .organizer ∧ db.Organizes actor submission

/-- One of the two lists shows the submission. -/
def Listed (db : AccessDb) (actor : Actor) (submission : SubmissionRow) : Prop :=
  (∃ userId items, db.listForUser actor userId = .ok items ∧ submission ∈ items) ∨
    ∃ challengeId items, db.listSubmissions actor challengeId = .ok items ∧ submission ∈ items

/-- The submission and its evaluation can be read. -/
def Viewable (db : AccessDb) (actor : Actor) (submission : SubmissionRow) : Prop :=
  db.getSubmission actor submission.id = .ok submission ∧
    db.authorizeView actor submission = .ok ()

variable {db : AccessDb} {actor : Actor} {submission : SubmissionRow}

theorem deniesOrganizer_eq_false_iff {hackathonId : UUID} :
    db.deniesOrganizer actor hackathonId = false ↔
      ∃ hackathon ∈ db.hackathons, hackathon.id = hackathonId ∧
        hackathon.organizerId = actor.id := by
  unfold deniesOrganizer
  constructor
  · intro h
    split at h
    · cases h
    · rename_i hackathon hfound
      obtain ⟨hmem, hid⟩ := Table.find?_eq_some_iff.mp hfound
      exact ⟨hackathon, hmem, hid, by simpa using h⟩
  · rintro ⟨hackathon, hmem, rfl, horganizer⟩
    rw [Table.find?_of_mem hmem]
    simpa using horganizer

/-- The check of the organizer, over the challenge of a submission. -/
theorem organizes_iff :
    db.Organizes actor submission ↔
      ∃ challenge, db.challenges.find? submission.challengeId = some challenge ∧
        db.deniesOrganizer actor challenge.hackathonId = false := by
  constructor
  · rintro ⟨challenge, hmem, hid, horganizer⟩
    exact ⟨challenge, Table.find?_eq_some_iff.mpr ⟨hmem, hid⟩,
      deniesOrganizer_eq_false_iff.mpr horganizer⟩
  · rintro ⟨challenge, hfound, hdenies⟩
    obtain ⟨hmem, hid⟩ := Table.find?_eq_some_iff.mp hfound
    exact ⟨challenge, hmem, hid, deniesOrganizer_eq_false_iff.mp hdenies⟩

/-- **View.**  The evaluation of a submission is shown as the policy says. -/
theorem authorizeView_eq_ok_iff :
    db.authorizeView actor submission = .ok () ↔ db.MayView actor submission := by
  unfold authorizeView MayView
  by_cases hown : submission.participantId = actor.id
  · simp [hown]
  by_cases hrole : actor.role = .organizer
  · rw [if_neg hown, if_neg (by simpa using hrole), organizes_iff]
    cases hfound : db.challenges.find? submission.challengeId with
    | none => simp [hown]
    | some challenge =>
        cases hdenies : db.deniesOrganizer actor challenge.hackathonId <;>
          simp [hown, hrole, hdenies]
  · simp [hown, hrole]

/-- **Get.**  A stored submission is shown as the policy says. -/
theorem getSubmission_eq_ok_iff (hstored : submission ∈ db.submissions) :
    db.getSubmission actor submission.id = .ok submission ↔ db.MayView actor submission := by
  unfold getSubmission MayView
  rw [Table.find?_of_mem hstored]
  by_cases hown : submission.participantId = actor.id
  · simp [hown]
  by_cases hrole : actor.role = .organizer
  · simp only [hown, hrole, ne_eq, not_true_eq_false, and_false, not_false_eq_true, and_true,
      if_true, if_false, false_or, true_and]
    rw [organizes_iff]
    cases hfound : db.challenges.find? submission.challengeId with
    | none => simp
    | some challenge =>
        cases hdenies : db.deniesOrganizer actor challenge.hackathonId <;> simp [hdenies]
  · simp [hown, hrole]

theorem viewable_iff (hstored : submission ∈ db.submissions) :
    db.Viewable actor submission ↔ db.MayView actor submission := by
  unfold Viewable
  rw [getSubmission_eq_ok_iff hstored, authorizeView_eq_ok_iff, and_self]

/-- **The list of a challenge.**  It shows what its organizer may view. -/
theorem mem_listSubmissions_iff :
    (∃ challengeId items, db.listSubmissions actor challengeId = .ok items ∧
        submission ∈ items) ↔
      submission ∈ db.submissions ∧ actor.role = .organizer ∧
        db.Organizes actor submission := by
  constructor
  · rintro ⟨challengeId, items, hlist, hmem⟩
    unfold listSubmissions requireOrganizer at hlist
    by_cases hrole : actor.role = .organizer
    · rw [if_pos hrole] at hlist
      cases hfound : db.challenges.find? challengeId with
      | none => simp [hfound] at hlist
      | some challenge =>
          cases hdenies : db.deniesOrganizer actor challenge.hackathonId with
          | true => simp [hfound, hdenies] at hlist
          | false =>
              simp only [hfound, hdenies, Bool.false_eq_true, if_false, Except.ok.injEq] at hlist
              rw [← hlist, Submissions.listForChallenge, Table.mem_orderBy] at hmem
              obtain ⟨hstored, hchallenge⟩ := hmem
              obtain rfl : submission.challengeId = challengeId := by simpa using hchallenge
              exact ⟨hstored, hrole, organizes_iff.mpr ⟨challenge, hfound, hdenies⟩⟩
    · rw [if_neg hrole] at hlist
      cases hlist
  · rintro ⟨hstored, hrole, horganizes⟩
    obtain ⟨challenge, hfound, hdenies⟩ := organizes_iff.mp horganizes
    refine ⟨submission.challengeId, db.submissions.listForChallenge submission.challengeId, ?_, ?_⟩
    · simp [listSubmissions, requireOrganizer, hrole, hfound, hdenies]
    · exact Table.mem_orderBy.mpr ⟨hstored, by simp⟩

/-- **The list of a user.**  It shows everything to an organizer. -/
theorem mem_listForUser_iff :
    (∃ userId items, db.listForUser actor userId = .ok items ∧ submission ∈ items) ↔
      submission ∈ db.submissions ∧
        (submission.participantId = actor.id ∨ actor.role = .organizer) := by
  constructor
  · rintro ⟨userId, items, hlist, hmem⟩
    unfold listForUser at hlist
    split at hlist
    · cases hlist
    · rename_i hmay
      split at hlist
      · cases hlist
      · cases hlist
        obtain ⟨hstored, hparticipant⟩ := Table.mem_orderBy.mp hmem
        refine ⟨hstored, ?_⟩
        have hsame : submission.participantId = userId := by simpa using hparticipant
        by_cases hown : actor.id = userId
        · exact Or.inl (hsame.trans hown.symm)
        · right
          by_contra hrole
          exact hmay ⟨hown, hrole⟩
  · rintro ⟨hstored, hmay⟩
    obtain ⟨user, huser⟩ := Option.isSome_iff_exists.mp (db.participant_exists submission hstored)
    refine ⟨submission.participantId,
      db.submissions.listForParticipant submission.participantId, ?_, ?_⟩
    · have hallowed : ¬ (actor.id ≠ submission.participantId ∧ actor.role ≠ .organizer) := by
        rintro ⟨hother, hrole⟩
        rcases hmay with hown | horganizer
        · exact hother hown.symm
        · exact hrole horganizer
      rw [listForUser, if_neg hallowed, huser]
    · exact Table.mem_orderBy.mpr ⟨hstored, by simp⟩

end AccessDb

/-- **The read paths agree.**  What a list shows can be viewed, exactly when it is
no submission that an organizer of another hackathon reads. -/
theorem listed_viewable_iff (db : AccessDb) (actor : Actor) (submission : SubmissionRow) :
    (db.Listed actor submission → db.Viewable actor submission) ↔
      (submission ∈ db.submissions → actor.role = .organizer →
        submission.participantId = actor.id ∨ db.Organizes actor submission) := by
  unfold AccessDb.Listed
  rw [AccessDb.mem_listForUser_iff, AccessDb.mem_listSubmissions_iff]
  constructor
  · intro h hstored hrole
    have hview := (AccessDb.viewable_iff hstored).mp (h (Or.inl ⟨hstored, Or.inr hrole⟩))
    rcases hview with hown | ⟨_, horganizes⟩
    · exact Or.inl hown
    · exact Or.inr horganizes
  · rintro h (⟨hstored, hmay⟩ | ⟨hstored, hrole, horganizes⟩)
    · refine (AccessDb.viewable_iff hstored).mpr ?_
      rcases hmay with hown | hrole
      · exact Or.inl hown
      · rcases h hstored hrole with hown | horganizes
        · exact Or.inl hown
        · exact Or.inr ⟨hrole, horganizes⟩
    · exact (AccessDb.viewable_iff hstored).mpr (Or.inr ⟨hrole, horganizes⟩)

/-! ## Another organizer -/

/-- The submission of the participant 3, in the hackathon of the organizer 1. -/
def foreignRow : SubmissionRow :=
  ⟨30, 20, 3, .created, [], none, none, none, 0, 0⟩

/-- The hackathon is held by organizer 1; organizer 2 has none. -/
def foreignDb : AccessDb where
  users := ⟨[⟨1⟩, ⟨2⟩, ⟨3⟩], by decide⟩
  hackathons := ⟨[⟨10, 1⟩], by decide⟩
  challenges := ⟨[⟨20, 10⟩], by decide⟩
  submissions := ⟨[foreignRow], by decide⟩
  organizer_exists := by decide
  hackathon_exists := by decide
  challenge_exists := by decide
  participant_exists := by decide

/-- The organizer 2 lists what they may not view. -/
theorem listed_viewable_fails :
    ¬ ∀ (db : AccessDb) (actor : Actor) (submission : SubmissionRow),
      db.Listed actor submission → db.Viewable actor submission := by
  intro hall
  have hlisted : foreignDb.Listed ⟨2, .organizer⟩ foreignRow :=
    Or.inl ⟨3, [foreignRow], by decide, by simp⟩
  have hdenied : ¬ foreignDb.authorizeView ⟨2, .organizer⟩ foreignRow = .ok () := by decide
  exact hdenied (hall foreignDb ⟨2, .organizer⟩ foreignRow hlisted).2

end ChallengeForge
