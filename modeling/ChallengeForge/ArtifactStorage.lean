import ChallengeForge.DomainModel
import ChallengeForge.PythonText
import Mathlib.Logic.Function.Basic

/-!
# The artifact storage

The blob store, as the map from keys to blobs that its callers see, and the
keys the services and the ingestion workers build.  A call to the storage or
to the database ends in one of three ways, which `CallOutcome` names.
-/

namespace ChallengeForge

/-- `submissions/{challenge_id}/{actor.id}/{uuid4()}{suffix}`. -/
structure ArtifactKey where
  challengeId : UUID
  actorId : UUID
  uploadId : UUID
  suffix : String
  deriving DecidableEq, Repr

/-- The key as the storage and the error messages write it. -/
def ArtifactKey.path (key : ArtifactKey) : String :=
  "submissions/" ++ uuidText key.challengeId ++ "/" ++ uuidText key.actorId ++ "/" ++
    uuidText key.uploadId ++ key.suffix

/-- A key of the store: an artifact, or one of the two outputs of an ingestion
job, `ingestion/{job_id}/result.json` and `ingestion/{job_id}/canonical.txt`. -/
inductive BlobKey
  | artifact (key : ArtifactKey)
  | result (jobId : UUID)
  | canonical (jobId : UUID)
  deriving DecidableEq, Repr

/-- The key under which the storage has the blob. -/
def BlobKey.path : BlobKey → String
  | artifact key => key.path
  | result jobId => "ingestion/" ++ uuidText jobId ++ "/result.json"
  | canonical jobId => "ingestion/" ++ uuidText jobId ++ "/canonical.txt"

/-- The bytes of a blob and their content type. -/
structure Blob where
  data : List UInt8
  contentType : String
  deriving DecidableEq

/-- What the storage holds. -/
def Storage : Type := BlobKey → Option Blob

namespace Storage

/-- A storage without blobs. -/
def empty : Storage := fun _ => none

/-- `storage.get(key)`; `none` where it raises that the key is missing. -/
def get (storage : Storage) (key : BlobKey) : Option Blob := storage key

/-- `storage.exists(key)`. -/
def blobExists (storage : Storage) (key : BlobKey) : Bool := (storage.get key).isSome

/-- `storage.put(key, data, content_type)`. -/
def put (storage : Storage) (key : BlobKey) (blob : Blob) : Storage :=
  Function.update storage key (some blob)

/-- `storage.delete(key)`. -/
def delete (storage : Storage) (key : BlobKey) : Storage :=
  Function.update storage key none

variable {storage : Storage} {key other : BlobKey} {blob : Blob}

/-- A blob reads as it was put. -/
@[simp] theorem get_put_self : (storage.put key blob).get key = some blob :=
  Function.update_self ..

/-- A put leaves the other keys alone. -/
@[simp] theorem get_put_of_ne (h : other ≠ key) :
    (storage.put key blob).get other = storage.get other :=
  Function.update_of_ne h ..

/-- A delete leaves the other keys alone. -/
@[simp] theorem get_delete_of_ne (h : other ≠ key) :
    (storage.delete key).get other = storage.get other :=
  Function.update_of_ne h ..

/-- A deleted blob is missing. -/
@[simp] theorem get_delete_self : (storage.delete key).get key = none :=
  Function.update_self ..

/-- A blob that was put exists. -/
@[simp] theorem blobExists_put_self : (storage.put key blob).blobExists key = true := by
  simp [blobExists]

/-- A deleted blob does not exist. -/
@[simp] theorem blobExists_delete_self : (storage.delete key).blobExists key = false := by
  simp [blobExists]

/-- The others exist as before. -/
theorem blobExists_delete_of_ne (h : other ≠ key) :
    (storage.delete key).blobExists other = storage.blobExists other := by
  simp [blobExists, h]

/-- Publishing a blob removes none. -/
theorem blobExists_put_of (h : storage.blobExists other = true) :
    (storage.put key blob).blobExists other = true := by
  by_cases hkey : other = key
  · subst hkey
    exact blobExists_put_self
  · simpa [blobExists, hkey] using h

end Storage

/-- When a composed call returns, so has its first part. -/
theorem except_bind_eq_ok {ε α β : Type} {x : Except ε α} {f : α → Except ε β} {b : β}
    (h : (x >>= f) = .ok b) : ∃ a, x = .ok a ∧ f a = .ok b := by
  cases x with
  | error e => cases h
  | ok a => exact ⟨a, rfl, h⟩

/-- A composed call raises in its first part or in its second. -/
theorem except_bind_eq_error {ε α β : Type} {x : Except ε α} {f : α → Except ε β} {e : ε}
    (h : (x >>= f) = .error e) : x = .error e ∨ ∃ a, x = .ok a ∧ f a = .error e := by
  cases x with
  | error e' =>
      cases h
      exact Or.inl rfl
  | ok a => exact Or.inr ⟨a, rfl, h⟩

/-- How a call to the storage or to the database ends: done and acknowledged,
failed with nothing done, or done with an exception at the caller because the
acknowledgement was lost. -/
inductive CallOutcome
  | ok
  | failed
  | lost
  deriving DecidableEq, Repr

namespace CallOutcome

/-- The call took effect. -/
def applied : CallOutcome → Bool
  | ok => true
  | failed => false
  | lost => true

end CallOutcome

end ChallengeForge
