import Mathlib.Data.Rat.Defs

/-!
# The domain model

The vocabulary shared by the stores, the services and the workers: identifiers
and timestamps, the status enumerations of the domain, and the JSON values the
database keeps in its `JSONB` columns.

A timestamp counts microseconds, so `utcnow()` and the differences the code
takes are exact.  A UUID is its 128-bit value read as a number, which is the
order PostgreSQL sorts it by.  A finite JSON float is the rational it denotes.
-/

namespace ChallengeForge

/-- A `UUID`, by its number. -/
abbrev UUID := Nat

/-- A time, in microseconds from some start. -/
abbrev Timestamp := Int

/-- The states of a challenge. -/
inductive ChallengeStatus
  | draft
  | published
  | closed
  deriving DecidableEq, Repr

/-- The states of a submission. -/
inductive SubmissionStatus
  | created
  | submitted
  | cancelled
  | failed
  deriving DecidableEq, Repr

/-- The states of an evaluation. -/
inductive EvaluationStatus
  | queued
  | running
  | succeeded
  | failed
  deriving DecidableEq, Repr

/-- The states of an ingestion job. -/
inductive IngestionStatus
  | queued
  | running
  | succeeded
  | failed
  deriving DecidableEq, Repr

/-- How much an evaluation asks of the host. -/
inductive WorkloadClass
  | light
  | medium
  | heavy
  deriving DecidableEq, Repr

/-- How a worker executes evaluation for a job. -/
inductive EvaluationMode
  | legacy
  | alwaysExpensive
  | fixedProgressive
  | resourceAwareAdaptive
  | syntheticExecution
  deriving DecidableEq, Repr

/-- What the resource-aware runtime makes of the host. -/
inductive PressureState
  | normal
  | pressured
  | degraded
  deriving DecidableEq, Repr

/-- The two roles of an account. -/
inductive UserRole
  | organizer
  | participant
  deriving DecidableEq, Repr

/-- `CurrentUser`: who sends a request. -/
structure Actor where
  id : UUID
  role : UserRole
  deriving DecidableEq, Repr

/-- What a service refuses a request with. -/
inductive DomainError
  | notFound (message : String)
  | permissionDenied (message : String)
  | validationFailed (message : String)
  | invalidStateTransition (message : String)
  | conflict (message : String)
  deriving DecidableEq, Repr

/-- `require_organizer(actor)`. -/
def requireOrganizer (actor : Actor) : Except DomainError Unit :=
  if actor.role = .organizer then .ok ()
  else .error (.permissionDenied "Only organizers may perform this action.")

/-- `require_participant(actor)`. -/
def requireParticipant (actor : Actor) : Except DomainError Unit :=
  if actor.role = .participant then .ok ()
  else .error (.permissionDenied "Only participants may perform this action.")

/-- A JSON value; the members of an object keep their order. -/
inductive Json
  | null
  | bool (b : Bool)
  | int (n : Int)
  | float (x : Rat)
  | str (s : String)
  | arr (items : List Json)
  | obj (members : List (String × Json))

namespace Json

mutual

/-- Equality of JSON values is decided along their structure. -/
def decEq : (a b : Json) → Decidable (a = b)
  | .null, .null => isTrue rfl
  | .bool a, .bool b => decidable_of_iff (a = b) (by simp)
  | .int a, .int b => decidable_of_iff (a = b) (by simp)
  | .float a, .float b => decidable_of_iff (a = b) (by simp)
  | .str a, .str b => decidable_of_iff (a = b) (by simp)
  | .arr as, .arr bs =>
      match decEqItems as bs with
      | isTrue h => isTrue (by rw [h])
      | isFalse h => isFalse (by simpa using h)
  | .obj as, .obj bs =>
      match decEqMembers as bs with
      | isTrue h => isTrue (by rw [h])
      | isFalse h => isFalse (by simpa using h)
  | .null, .bool _ | .null, .int _ | .null, .float _ | .null, .str _ | .null, .arr _
  | .null, .obj _ | .bool _, .null | .bool _, .int _ | .bool _, .float _
  | .bool _, .str _ | .bool _, .arr _ | .bool _, .obj _ | .int _, .null
  | .int _, .bool _ | .int _, .float _ | .int _, .str _ | .int _, .arr _
  | .int _, .obj _ | .float _, .null | .float _, .bool _ | .float _, .int _
  | .float _, .str _ | .float _, .arr _ | .float _, .obj _ | .str _, .null
  | .str _, .bool _ | .str _, .int _ | .str _, .float _ | .str _, .arr _
  | .str _, .obj _ | .arr _, .null | .arr _, .bool _ | .arr _, .int _
  | .arr _, .float _ | .arr _, .str _ | .arr _, .obj _ | .obj _, .null
  | .obj _, .bool _ | .obj _, .int _ | .obj _, .float _ | .obj _, .str _
  | .obj _, .arr _ => isFalse (by simp)

/-- Equality of arrays, item by item. -/
def decEqItems : (as bs : List Json) → Decidable (as = bs)
  | [], [] => isTrue rfl
  | [], _ :: _ | _ :: _, [] => isFalse (by simp)
  | a :: as, b :: bs =>
      match decEq a b, decEqItems as bs with
      | isTrue h, isTrue h' => isTrue (by rw [h, h'])
      | isFalse h, _ => isFalse (by simp [h])
      | _, isFalse h => isFalse (by simp [h])

/-- Equality of objects, member by member and in order. -/
def decEqMembers : (as bs : List (String × Json)) → Decidable (as = bs)
  | [], [] => isTrue rfl
  | [], _ :: _ | _ :: _, [] => isFalse (by simp)
  | (k, a) :: as, (l, b) :: bs =>
      match instDecidableEqString k l, decEq a b, decEqMembers as bs with
      | isTrue hk, isTrue h, isTrue h' => isTrue (by rw [hk, h, h'])
      | isFalse hk, _, _ => isFalse (by simp [hk])
      | _, isFalse h, _ => isFalse (by simp [h])
      | _, _, isFalse h => isFalse (by simp [h])

end

instance : DecidableEq Json := decEq

/-- Python's truth value. -/
def truthy : Json → Bool
  | .null => false
  | .bool b => b
  | .int n => n != 0
  | .float x => x != 0
  | .str s => s != ""
  | .arr items => !items.isEmpty
  | .obj members => !members.isEmpty

end Json

/-- A JSON object, as the columns typed `dict[str, Any]` hold one. -/
abbrev JsonDict := List (String × Json)

namespace JsonDict

/-- `data.get(k)`. -/
def get? (data : JsonDict) (k : String) : Option Json :=
  (data.find? (fun m => m.1 = k)).map Prod.snd

/-- `data[k] = v`: the value of a key that is there is replaced in place. -/
def set : JsonDict → String → Json → JsonDict
  | [], k, v => [(k, v)]
  | (l, u) :: rest, k, v => if l = k then (l, v) :: rest else (l, u) :: set rest k v

/-- A key reads as what it was set to. -/
@[simp] theorem get?_set_self (data : JsonDict) (k : String) (v : Json) :
    get? (set data k v) k = some v := by
  induction data with
  | nil => simp [get?, set]
  | cons m rest ih =>
      by_cases hk : m.1 = k
      · simp [get?, set, hk]
      · simpa [get?, set, hk] using ih

/-- The other keys read as before. -/
@[simp] theorem get?_set_ne (data : JsonDict) {k l : String} (v : Json) (h : k ≠ l) :
    get? (set data k v) l = get? data l := by
  induction data with
  | nil => simp [get?, set, h]
  | cons m rest ih =>
      by_cases hk : m.1 = k
      · subst hk
        simp [get?, set, h]
      · by_cases hl : m.1 = l
        · subst hl
          simp [get?, set, hk]
        · simpa [get?, set, hk, hl] using ih

end JsonDict

end ChallengeForge
