import ChallengeForge.SubmissionRequests

/-!
# The content of a submission that has left CREATED

`update_created` and `attach_incoming` check the status in one transaction and
write in another.  In between a `submit` or a `cancel` may commit, and the
flush by primary key then rewrites a row that is no longer CREATED.

* `content_frozen` — over every run whose edits are applied only to CREATED
  rows, the content of a row that has left CREATED stays as it is;
* `content_frozen_fails` — an edit that was checked before a `submit` and
  commits after it changes the submitted row.
-/

namespace ChallengeForge

open Keyed Labelled

/-- The guard an edit lacks at its flush: the row it writes is CREATED still, or the
request brings no artifact key and only metadata that it loaded or that stand there. -/
def Request.SparesFrozen (request : Request) (row : SubmissionRow) : Prop :=
  match request.work with
  | .insert _ => True
  | .rewrite loaded metadata =>
      row.id = loaded.id → row.status = .created ∨
        (request.newKey = none ∧ (metadata = loaded.metadata ∨ metadata = row.metadata))

instance (request : Request) (row : SubmissionRow) : Decidable (request.SparesFrozen row) :=
  match request with
  | ⟨_, .insert _, _, _⟩ => isTrue trivial
  | ⟨_, .rewrite _ _, _, _⟩ => inferInstanceAs (Decidable (_ → _))

/-- An edit is applied only while its row is CREATED, or writes nothing new. -/
def editsOnlyCreated : Condition Service ServiceAction := fun s a =>
  match a with
  | .commit id outcome _ => outcome ≠ .failed →
      ∀ request ∈ s.requests, request.id = id → ∀ row ∈ s.submissions, request.SparesFrozen row
  | _ => True

instance (s : Service) (a : ServiceAction) : Decidable (editsOnlyCreated s a) :=
  match a with
  | .commit .. => inferInstanceAs (Decidable (_ → _))
  | .create .. | .updateCreated .. | .attachIncoming .. | .submit .. | .cancel ..
  | .publish .. | .compensate .. | .drop .. | .enqueue .. | .die .. => isTrue trivial

/-- The row is still there, with the status and the content it had. -/
structure SubmissionRow.Kept (row row' : SubmissionRow) : Prop where
  id : row'.id = row.id
  status : row'.status = row.status
  metadata : row'.metadata = row.metadata
  artifactKey : row'.artifactKey = row.artifactKey

namespace SubmissionRow

theorem Kept.refl (row : SubmissionRow) : row.Kept row := ⟨rfl, rfl, rfl, rfl⟩

theorem Kept.trans {a b c : SubmissionRow} (hab : a.Kept b) (hbc : b.Kept c) : a.Kept c :=
  ⟨hbc.id.trans hab.id, hbc.status.trans hab.status, hbc.metadata.trans hab.metadata,
    hbc.artifactKey.trans hab.artifactKey⟩

/-- A flush that spares the row keeps it. -/
theorem kept_writeChanges {request : Request} {row loaded : SubmissionRow} {metadata : JsonDict}
    (hkey : request.newKey = none) (hmeta : metadata = loaded.metadata ∨ metadata = row.metadata)
    (now : Timestamp) :
    row.Kept (row.writeChanges loaded (request.edited loaded metadata) now) := by
  refine ⟨rfl, rfl, ?_, by simp [hkey]⟩
  rw [writeChanges_metadata, Request.edited_metadata]
  rcases hmeta with hmeta | hmeta
  · rw [if_pos hmeta]
  · split
    · rfl
    · exact hmeta

end SubmissionRow

namespace Service

variable {cfg : SubmissionConfig} {s s' : Service}

/-- One step keeps a row that has left CREATED. -/
theorem kept_step {a : ServiceAction} (hok : editsOnlyCreated s a)
    (hstep : s.step cfg a = some s') {row : SubmissionRow} (hrow : row ∈ s.submissions)
    (hleft : row.status ≠ .created) : ∃ row' ∈ s'.submissions, row.Kept row' := by
  have hstay : s'.submissions = s.submissions → ∃ row' ∈ s'.submissions, row.Kept row' :=
    fun heq => ⟨row, heq ▸ hrow, .refl row⟩
  cases step_effect hstep with
  | answered reply => exact hstay rfl
  | started hstart hloaded hfresh => exact hstay (mem_startRequest hstart).2.1
  | transitioned htransition htarget hjobs hstorage hrequests huuid =>
      obtain ⟨hcreated, hmem⟩ := Submissions.mem_of_transition htransition
      -- the transition takes a CREATED row, so this row is another
      have hother : row.id ≠ _ := fun hid => hleft (hcreated row hrow hid)
      exact ⟨row, (hmem row).mpr ⟨row, hrow, if_neg hother⟩, .refl row⟩
  | published hrequest hphase hupload => exact hstay (by simp)
  | rejected integrity hrequest hphase hnot => exact hstay (by simp)
  | inserted hrequest hphase happlied hwork hadd =>
      exact ⟨row, by simpa using (Submissions.mem_of_add hadd).mpr (Or.inl hrow), .refl row⟩
  | @flushed request outcome now loaded metadata hrequest hphase happlied hwork =>
      by_cases hid : row.id = loaded.id
      · have hspares := hok happlied request hrequest rfl row hrow
        simp only [Request.SparesFrozen, hwork] at hspares
        obtain ⟨hkey, hmeta⟩ := (hspares hid).resolve_left hleft
        refine ⟨_, ?_, SubmissionRow.kept_writeChanges hkey hmeta now⟩
        simpa using Submissions.mem_flushEdit.mpr ⟨row, hrow, if_pos hid⟩
      · exact ⟨row, by simpa using Submissions.mem_flushEdit.mpr ⟨row, hrow, if_neg hid⟩,
          .refl row⟩
  | compensated reply hrequest hphase => exact hstay (by simp)
  | dropped hrequest hphase => exact hstay (by simp)
  | enqueued reply hrequest hkey hjobs => exact hstay (by simp)
  | unqueued hrequest hkey hnot => exact hstay (by simp)
  | died hrequest => exact hstay rfl

/-- **Frozen content.**  Along every run whose edits are applied only to CREATED
rows, a submission that has left CREATED keeps its status, its metadata and its
artifact key. -/
theorem content_frozen (hpath : (submissionService cfg).Path editsOnlyCreated s s')
    {row : SubmissionRow} (hrow : row ∈ s.submissions) (hleft : row.status ≠ .created) :
    ∃ row' ∈ s'.submissions, row.Kept row' := by
  refine hpath.preserves (I := fun t => ∃ row' ∈ t.submissions, row.Kept row') ?_
    ⟨row, hrow, .refl row⟩
  intro t a u hkept hok hstep
  obtain ⟨row', hrow', hkept'⟩ := hkept
  have hleft' : row'.status ≠ .created := by
    rw [hkept'.status]
    exact hleft
  obtain ⟨row'', hrow'', hkept''⟩ := kept_step hok hstep hrow' hleft'
  exact ⟨row'', hrow'', hkept'.trans hkept''⟩

/-- Submission 2 is created, an edit of it passes its check, and it is submitted. -/
def staleEditRun : List ServiceAction :=
  [.create participant 1 none none none (.ok ()),
   .commit 0 .ok 10,
   .updateCreated participant 2 (some [("note", .str "late")]) none,
   .submit participant 2 .ok 20]

/-- The edit commits. -/
def staleEditFlush : List ServiceAction := [.commit 3 .ok 30]

/-- **The content changes.**  A submitted row is rewritten by an edit that was
checked before the submission and commits after it. -/
theorem content_frozen_fails :
    ∃ s s', (submissionService defaultConfig).Reach always s ∧
      (submissionService defaultConfig).Path always s s' ∧
      ∃ row ∈ s.submissions, row.status = .submitted ∧
        ∃ row' ∈ s'.submissions, row'.id = row.id ∧ row'.metadata ≠ row.metadata := by
  obtain ⟨s, hreach, htest⟩ : ∃ s, (submissionService defaultConfig).Reach always s ∧
      ((submissionService defaultConfig).run always s staleEditFlush).any (fun s' =>
        s.submissions.rows.any (fun row => row.status = .submitted ∧
          s'.submissions.rows.any (fun row' => row'.id = row.id ∧
            row'.metadata ≠ row.metadata) = true)) = true :=
    System.reach_of_test emptyService staleEditRun _ rfl (by decide)
  obtain ⟨s', hrun, htest⟩ := (Option.any_eq_true ..).mp htest
  obtain ⟨row, hrow, hchanged⟩ := List.any_eq_true.mp htest
  obtain ⟨hsubmitted, hchanged⟩ := of_decide_eq_true hchanged
  obtain ⟨row', hrow', hchanged⟩ := List.any_eq_true.mp hchanged
  exact ⟨s, s', hreach, System.path_of_run hrun, row, hrow, hsubmitted, row', hrow',
    of_decide_eq_true hchanged⟩

/-- `content_frozen` where the late edit dies instead and a `cancel` comes too
late. -/
theorem content_frozen_submitted :
    ∃ s s', (submissionService defaultConfig).Path editsOnlyCreated s s' ∧
      ∃ row ∈ s.submissions, row.status = .submitted ∧
        ∃ row' ∈ s'.submissions, row.Kept row' := by
  obtain ⟨s, -, htest⟩ : ∃ s, (submissionService defaultConfig).Reach always s ∧
      (((submissionService defaultConfig).run editsOnlyCreated s
          [.die 3, .cancel participant 2 .ok 40]).isSome &&
        s.submissions.rows.any (fun row => row.status = .submitted)) = true :=
    System.reach_of_test emptyService staleEditRun _ rfl (by decide)
  obtain ⟨hrun, hrow⟩ := Bool.and_eq_true_iff.mp htest
  obtain ⟨s', hrun⟩ := Option.isSome_iff_exists.mp hrun
  obtain ⟨row, hrow, hsubmitted⟩ := List.any_eq_true.mp hrow
  have hpath := System.path_of_run hrun
  have hstatus := of_decide_eq_true hsubmitted
  exact ⟨s, s', hpath, row, hrow, hstatus,
    content_frozen hpath hrow (by rw [hstatus]; decide)⟩

end Service

end ChallengeForge
