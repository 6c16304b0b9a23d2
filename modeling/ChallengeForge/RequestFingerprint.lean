import ChallengeForge.IdempotentCreation
import ChallengeForge.JsonNesting
import ChallengeForge.Sha256
import ChallengeForge.Utf8

/-!
# The fingerprint of a creation request

`submission_request_fingerprint` hashes the canonical JSON text of the challenge and the
metadata, and an `Idempotency-Key` stands for that fingerprint.  Metadata that are nested
too deep for the stack leave it with a `RecursionError`, which it does not catch.

* `fingerprint_canonical` — which metadata have one, and which requests share the bytes
  that are hashed;
* `keyed_replies` — in every run, a create under a used key is answered with the row of
  that key if it asks for the same, and told of a different request if it does not.
-/

namespace ChallengeForge

open JsonText Keyed Labelled

/-! ## The hashed bytes -/

/-- `json.dumps(value, sort_keys=True, separators=(",", ":"), ensure_ascii=False,
allow_nan=False)`; `none` is the `ValueError` for a float that is not finite. -/
def dumpsCanonical (value : Value) : Option PyStr :=
  if value.all (fun _ => true) FloatLiteral.isFinite then some (write (sorted value)) else none

/-- `text.encode("utf-8")`; `none` is the `UnicodeEncodeError` for a surrogate. -/
def encodeUtf8 (text : PyStr) : Option (List UInt8) :=
  (text.mapM (fun c => Utf8.scalar? 0 c.val)).map Utf8.encode

/-- What is dumped. -/
def requestValue (challengeId : UUID) (metadata : List (PyStr × Value)) : Value :=
  .obj [(lit "challenge_id", .str (lit (uuidText challengeId))), (lit "metadata", .obj metadata)]

/-- The bytes that are hashed; a `UnicodeEncodeError` is a `ValueError`. -/
def canonicalRequest (challengeId : UUID) (metadata : List (PyStr × Value)) :
    Option (List UInt8) :=
  (dumpsCanonical (requestValue challengeId metadata)).bind encodeUtf8

/-- `submission_request_fingerprint` where the stack is large enough for the metadata
(`fingerprintWithin` asks). -/
def submissionRequestFingerprint (challengeId : UUID) (metadata : List (PyStr × Value)) :
    Except DomainError String :=
  match canonicalRequest challengeId metadata with
  | some canonical => .ok (Sha256.hexdigest canonical)
  | none => .error (.validationFailed "Submission metadata must have a stable JSON representation.")

/-- A code point that is no surrogate. -/
def isScalar (c : CodePoint) : Bool := (Utf8.scalar? 0 c.val).isSome

/-- Every float is finite and no string holds a surrogate. -/
def Stable (metadata : List (PyStr × Value)) : Prop :=
  (Value.obj metadata).all (fun s => s.all isScalar) FloatLiteral.isFinite = true

/-! ## The digits of a UUID -/

/-- Hexadecimal digits are told apart. -/
theorem digitChar_injective {m n : Nat} (hm : m < 16) (hn : n < 16)
    (h : Nat.digitChar m = Nat.digitChar n) : m = n := by
  have hall : ∀ i j : Fin 16, Nat.digitChar i = Nat.digitChar j → i = j := by decide
  exact Fin.mk.inj (hall ⟨m, hm⟩ ⟨n, hn⟩ h)

/-- A number is read off its hexadecimal digits. -/
theorem hexDigits_injective {k m n : Nat} (hm : m < 16 ^ k) (hn : n < 16 ^ k)
    (h : hexDigits k m = hexDigits k n) : m = n := by
  induction k generalizing m n with
  | zero => omega
  | succ k ih =>
      rw [hexDigits, hexDigits] at h
      obtain ⟨hinit, hlast⟩ := List.append_inj' h rfl
      have hquotient : m / 16 = n / 16 :=
        ih (by rw [pow_succ] at hm; omega) (by rw [pow_succ] at hn; omega) hinit
      have hrest : m % 16 = n % 16 :=
        digitChar_injective (Nat.mod_lt _ (by decide)) (Nat.mod_lt _ (by decide))
          (List.cons.inj hlast).1
      omega

/-- Neighbouring slices make one. -/
theorem slice_append {text : List Char} {i j k : Nat} (hij : i ≤ j) (hjk : j ≤ k) :
    slice text i j ++ slice text j k = slice text i k := by
  have hsplit : k - i = (j - i) + (k - j) := by omega
  have hdrop : (text.drop i).drop (j - i) = text.drop j := by
    rw [List.drop_drop]
    congr 1
    omega
  rw [slice, slice, slice, hsplit, List.take_add, hdrop]

/-- A UUID is read off its text. -/
theorem uuidText_injective {m n : UUID} (hm : m < 2 ^ 128) (hn : n < 2 ^ 128)
    (h : uuidText m = uuidText n) : m = n := by
  have hjoined : ∀ digits : List Char, digits.length = 32 →
      slice digits 0 8 ++ (slice digits 8 12 ++ (slice digits 12 16 ++ (slice digits 16 20 ++
        slice digits 20 32))) = digits := by
    intro digits hlength
    rw [slice_append (by decide) (by decide), slice_append (by decide) (by decide),
      slice_append (by decide) (by decide), slice_append (by decide) (by decide), slice]
    exact List.take_of_length_le (by simp [hlength])
  have hlists := String.ofList_injective h
  simp only [List.intercalate_cons_cons, List.intercalate_singleton, List.append_assoc] at hlists
  have hlength : ∀ (id start stop : Nat), (slice (hexDigits 32 id) start stop).length =
      min (stop - start) (32 - start) := by
    intro id start stop
    rw [length_slice, length_hexDigits]
  obtain ⟨h₁, hlists⟩ := List.append_inj hlists (by rw [hlength, hlength])
  obtain ⟨h₂, hlists⟩ :=
    List.append_inj (List.append_cancel_left hlists) (by rw [hlength, hlength])
  obtain ⟨h₃, hlists⟩ :=
    List.append_inj (List.append_cancel_left hlists) (by rw [hlength, hlength])
  obtain ⟨h₄, hlists⟩ :=
    List.append_inj (List.append_cancel_left hlists) (by rw [hlength, hlength])
  have h₅ := List.append_cancel_left hlists
  have hpow : (16 : Nat) ^ 32 = 2 ^ 128 := by norm_num
  refine hexDigits_injective (hm.trans_eq hpow.symm) (hn.trans_eq hpow.symm) ?_
  rw [← hjoined (hexDigits 32 m) (length_hexDigits 32 m), h₁, h₂, h₃, h₄, h₅,
    hjoined (hexDigits 32 n) (length_hexDigits 32 n)]

/-! ## Which metadata have a fingerprint, and which share it -/

/-- A traversal succeeds when each of its calls does. -/
theorem mapM_isSome {α β : Type} (f : α → Option β) (xs : List α) :
    (xs.mapM f).isSome = xs.all (fun x => (f x).isSome) := by
  induction xs with
  | nil => rfl
  | cons x xs ih =>
      rw [List.mapM_cons, List.all_cons, ← ih]
      cases f x <;> cases xs.mapM f <;> rfl

/-- Texts are read off their characters. -/
theorem mapM_injective {α β : Type} {f : α → Option β}
    (hf : ∀ x y b, f x = some b → f y = some b → x = y) {xs ys : List α} {bs : List β}
    (hx : xs.mapM f = some bs) (hy : ys.mapM f = some bs) : xs = ys := by
  induction xs generalizing ys bs with
  | nil =>
      obtain rfl : [] = bs := Option.some.inj hx
      cases ys with
      | nil => rfl
      | cons y ys =>
          rw [List.mapM_cons, Option.bind_eq_bind, Option.bind_eq_some_iff] at hy
          obtain ⟨b, -, hrest⟩ := hy
          obtain ⟨more, -, hbs⟩ := Option.bind_eq_some_iff.mp hrest
          exact absurd (Option.some.inj hbs) (List.cons_ne_nil _ _)
  | cons x xs ih =>
      rw [List.mapM_cons, Option.bind_eq_bind, Option.bind_eq_some_iff] at hx
      obtain ⟨b, hfirst, hrest⟩ := hx
      obtain ⟨more, hmore, hbs⟩ := Option.bind_eq_some_iff.mp hrest
      obtain rfl := Option.some.inj hbs
      cases ys with
      | nil => cases hy
      | cons y ys =>
          rw [List.mapM_cons, Option.bind_eq_bind, Option.bind_eq_some_iff] at hy
          obtain ⟨b', hfirst', hrest'⟩ := hy
          obtain ⟨more', hmore', hbs'⟩ := Option.bind_eq_some_iff.mp hrest'
          obtain ⟨rfl, rfl⟩ := List.cons.inj (Option.some.inj hbs')
          rw [hf _ _ _ hfirst hfirst', ih hmore hmore']

/-- A character has one code point. -/
theorem scalar?_injective (c d : CodePoint) (ch : Char) (hc : Utf8.scalar? 0 c.val = some ch)
    (hd : Utf8.scalar? 0 d.val = some ch) : c = d := by
  have hread : ∀ e : CodePoint, Utf8.scalar? 0 e.val = some ch → e.val = ch.toNat := by
    intro e he
    by_cases hvalid : 0 ≤ e.val ∧ e.val.isValidChar
    · rw [Utf8.scalar?, dif_pos hvalid] at he
      rw [← Option.some.inj he]
      rfl
    · rw [Utf8.scalar?, dif_neg hvalid] at he
      cases he
  exact Fin.ext ((hread c hc).trans (hread d hd).symm)

/-- A text can be encoded when it holds no surrogate. -/
theorem encodeUtf8_isSome (text : PyStr) : (encodeUtf8 text).isSome = text.all isScalar := by
  rw [encodeUtf8, Option.isSome_map, mapM_isSome]
  rfl

/-- A text is read off its bytes. -/
theorem encodeUtf8_injective {a b : PyStr} {bytes : List UInt8} (ha : encodeUtf8 a = some bytes)
    (hb : encodeUtf8 b = some bytes) : a = b := by
  obtain ⟨chars, hchars, rfl⟩ := Option.map_eq_some_iff.mp ha
  obtain ⟨chars', hchars', hsame⟩ := Option.map_eq_some_iff.mp hb
  obtain rfl : chars' = chars := by
    have hdecode := congrArg Utf8.decode hsame
    rwa [Utf8.decode_encode, Utf8.decode_encode, Option.some.injEq] at hdecode
  exact mapM_injective scalar?_injective hchars hchars'

/-- Characters are no surrogates. -/
theorem isScalar_point (c : Char) : isScalar (point c) = true := by
  unfold isScalar
  rw [show (point c).val = c.toNat from rfl, Utf8.scalar?_toNat (Nat.zero_le _)]
  rfl

/-- Their texts hold none. -/
theorem all_isScalar_lit (text : String) : (lit text).all isScalar = true := by
  rw [List.all_eq_true]
  intro c hc
  obtain ⟨ch, -, rfl⟩ := List.mem_map.mp hc
  exact isScalar_point ch

/-- Nor does anything that the encoder adds. -/
theorem accepts_isScalar : Accepts isScalar where
  escapes := by
    have hall : escaped.all (fun c => isScalar c && (escape c).all isScalar) = true := by
      decide +kernel
    exact fun c hc => Bool.and_eq_true_iff.mp (List.all_eq_true.mp hall c hc)
  numerals := fun c hc => List.all_eq_true.mp (all_isScalar_lit _) c (of_decide_eq_true hc)
  marks := fun c hc => List.all_eq_true.mp (all_isScalar_lit _) c hc

/-- The challenge adds nothing that could be refused. -/
theorem all_requestValue (challengeId : UUID) (metadata : List (PyStr × Value)) :
    (requestValue challengeId metadata).all (fun s => s.all isScalar) FloatLiteral.isFinite =
      (Value.obj metadata).all (fun s => s.all isScalar) FloatLiteral.isFinite := by
  simp only [requestValue, Value.all, allMembers, all_isScalar_lit, Bool.true_and, Bool.and_true]

/-- The metadata that have a fingerprint. -/
theorem canonicalRequest_isSome_iff (challengeId : UUID) {metadata : List (PyStr × Value)} :
    (canonicalRequest challengeId metadata).isSome ↔ Stable metadata := by
  have hscalars : (write (sorted (requestValue challengeId metadata))).all isScalar =
      (requestValue challengeId metadata).all (fun s => s.all isScalar) (fun _ => true) := by
    rw [all_write accepts_isScalar, ← (reordered_sorted _).all_eq]
  unfold Stable
  rw [← all_requestValue challengeId, Value.all_and, canonicalRequest, dumpsCanonical]
  split
  · rename_i hfinite
    rw [Option.bind_some, encodeUtf8_isSome, hscalars, hfinite, Bool.true_and]
  · rename_i hfinite
    rw [Bool.not_eq_true] at hfinite
    rw [hfinite, Bool.false_and]
    simp

/-- The sorted request: the challenge, then the metadata. -/
theorem sorted_requestValue (challengeId : UUID) (metadata : List (PyStr × Value)) :
    sorted (requestValue challengeId metadata) =
      .obj [(lit "challenge_id", .str (lit (uuidText challengeId))),
        (lit "metadata", sorted (.obj metadata))] := by
  have hkeys : lit "challenge_id" ≤ lit "metadata" := by decide
  unfold requestValue
  rw [sorted_obj, List.map_cons, List.map_cons, List.map_nil, List.insertionSort_cons,
    List.insertionSort_cons, List.insertionSort_nil, List.orderedInsert_nil,
    List.orderedInsert_cons, if_pos hkeys]
  rfl

/-- Requests are reorderings of each other when their metadata are, for one challenge. -/
theorem reordered_requestValue {challengeId challengeId' : UUID}
    {metadata metadata' : List (PyStr × Value)} :
    Reordered (requestValue challengeId metadata) (requestValue challengeId' metadata') ↔
      uuidText challengeId = uuidText challengeId' ∧
        Reordered (.obj metadata) (.obj metadata') := by
  constructor
  · intro h
    have hsorted := sorted_of_reordered h
    rw [sorted_requestValue, sorted_requestValue] at hsorted
    obtain ⟨hid, hrest⟩ := List.cons.inj (Value.obj.inj hsorted)
    obtain ⟨hmetadata, -⟩ := List.cons.inj hrest
    refine ⟨lit_injective (Value.str.inj (Prod.mk.inj hid).2), ?_⟩
    exact write_sorted_eq_iff.mp (congrArg write (Prod.mk.inj hmetadata).2)
  · intro h
    obtain ⟨hid, hmetadata⟩ := h
    unfold requestValue
    rw [hid]
    exact .member hmetadata (lit "metadata")
      [(lit "challenge_id", .str (lit (uuidText challengeId')))] []

/-- Requests share the bytes exactly if they ask for the same. -/
theorem canonicalRequest_eq_iff {challengeId challengeId' : UUID}
    {metadata metadata' : List (PyStr × Value)} {canonical : List UInt8}
    (h : canonicalRequest challengeId metadata = some canonical) :
    canonicalRequest challengeId' metadata' = some canonical ↔
      uuidText challengeId' = uuidText challengeId ∧
        Reordered (.obj metadata') (.obj metadata) := by
  have htext : ∀ {id : UUID} {data : List (PyStr × Value)} {bytes : List UInt8},
      canonicalRequest id data = some bytes →
        encodeUtf8 (write (sorted (requestValue id data))) = some bytes := by
    intro id data bytes hsome
    obtain ⟨text, hdumps, hencode⟩ := Option.bind_eq_some_iff.mp hsome
    unfold dumpsCanonical at hdumps
    split at hdumps
    · rw [← Option.some.inj hdumps] at hencode
      exact hencode
    · cases hdumps
  constructor
  · intro h'
    have hsame := encodeUtf8_injective (htext h') (htext h)
    exact reordered_requestValue.mp (write_sorted_eq_iff.mp hsame)
  · intro hsame
    have hreordered := reordered_requestValue.mpr hsame
    have hfinite := hreordered.all_eq (fun _ => true) FloatLiteral.isFinite
    have hdumps : dumpsCanonical (requestValue challengeId' metadata') =
        dumpsCanonical (requestValue challengeId metadata) := by
      unfold dumpsCanonical
      rw [hfinite, sorted_of_reordered hreordered]
    rw [canonicalRequest, hdumps]
    exact h

/-! ## In a bounded stack -/

/-- What leaves `submission_request_fingerprint`. -/
inductive FingerprintError
  | refused (error : DomainError)
  /-- A `RecursionError`, which is neither a `TypeError` nor a `ValueError`. -/
  | recursion
  deriving DecidableEq

/-- `submission_request_fingerprint`, called where `json.dumps` can enter that many lists
and dicts in one another. -/
def fingerprintWithin (room : Nat) (challengeId : UUID) (metadata : List (PyStr × Value)) :
    Except FingerprintError String :=
  match dump room (sorted (requestValue challengeId metadata)) with
  | .error .recursion => .error .recursion
  | .error .notFinite =>
      .error (.refused (.validationFailed
        "Submission metadata must have a stable JSON representation."))
  | .ok text =>
      match encodeUtf8 text with
      | some canonical => .ok (Sha256.hexdigest canonical)
      | none =>
          .error (.refused (.validationFailed
            "Submission metadata must have a stable JSON representation."))

/-- A request is one deeper than its metadata. -/
theorem nesting_requestValue (challengeId : UUID) (metadata : List (PyStr × Value)) :
    (sorted (requestValue challengeId metadata)).nesting = (Value.obj metadata).nesting + 1 := by
  rw [← (reordered_sorted _).nesting_eq]
  simp [requestValue, Value.nesting, nestingMembers]

/-- Its floats are those of the metadata. -/
theorem finite_requestValue (challengeId : UUID) (metadata : List (PyStr × Value)) :
    (sorted (requestValue challengeId metadata)).finite = (Value.obj metadata).finite := by
  rw [Value.finite, ← (reordered_sorted _).all_eq]
  simp only [requestValue, Value.all, allMembers, Bool.true_and, Bool.and_true]

/-- With room for the metadata, the stack is not noticed. -/
theorem fingerprintWithin_of_fits {room : Nat} (challengeId : UUID)
    {metadata : List (PyStr × Value)} (hfits : (Value.obj metadata).nesting < room) :
    fingerprintWithin room challengeId metadata =
      (submissionRequestFingerprint challengeId metadata).mapError .refused := by
  have hroom : (sorted (requestValue challengeId metadata)).nesting ≤ room := by
    rw [nesting_requestValue]
    exact hfits
  rw [fingerprintWithin, dump_of_fits _ hroom, submissionRequestFingerprint, canonicalRequest,
    dumpsCanonical, Value.finite, ← (reordered_sorted _).all_eq]
  cases (requestValue challengeId metadata).all (fun _ => true) FloatLiteral.isFinite with
  | false => rfl
  | true =>
      simp only [written, if_true, Option.bind_some]
      cases encodeUtf8 (write (sorted (requestValue challengeId metadata))) with
      | none => rfl
      | some canonical => rfl

/-- Without it nothing is hashed. -/
theorem fingerprintWithin_of_deep {room : Nat} (challengeId : UUID)
    {metadata : List (PyStr × Value)} (hdeep : room ≤ (Value.obj metadata).nesting) :
    fingerprintWithin room challengeId metadata = .error .recursion ∨
      (Value.obj metadata).finite = false ∧ ∃ error,
        fingerprintWithin room challengeId metadata = .error (.refused error) := by
  have hroom : room < (sorted (requestValue challengeId metadata)).nesting := by
    rw [nesting_requestValue]
    exact Nat.lt_succ_of_le hdeep
  rcases dump_of_deep _ hroom with hrecursion | ⟨hstops, hfinite⟩
  · left
    rw [fingerprintWithin, hrecursion]
  · right
    rw [finite_requestValue] at hfinite
    refine ⟨hfinite, .validationFailed
      "Submission metadata must have a stable JSON representation.", ?_⟩
    rw [fingerprintWithin, hstops]

/-- **The fingerprint is canonical.**  Where the stack has room for the metadata, those
that hold `nan`, an infinity or a lone surrogate at any depth are refused, and no others.
All others are hashed as bytes that stand for exactly one request: this challenge, and
these metadata with the members of their objects in any order.  Where it has none,
nothing is hashed, and only a number that is not finite keeps the `RecursionError` away. -/
theorem fingerprint_canonical (room : Nat) (challengeId : Fin (2 ^ 128))
    (metadata : List (PyStr × Value)) :
    ((Value.obj metadata).nesting < room →
      (fingerprintWithin room challengeId metadata = .error (.refused (.validationFailed
        "Submission metadata must have a stable JSON representation.")) ↔ ¬Stable metadata) ∧
      (Stable metadata → ∃ canonical,
        fingerprintWithin room challengeId metadata = .ok (Sha256.hexdigest canonical) ∧
        ∀ (challengeId' : Fin (2 ^ 128)) (metadata' : List (PyStr × Value)),
          canonicalRequest challengeId' metadata' = some canonical ↔
            challengeId' = challengeId ∧ Reordered (.obj metadata') (.obj metadata))) ∧
    (room ≤ (Value.obj metadata).nesting →
      (∀ digest, fingerprintWithin room challengeId metadata ≠ .ok digest) ∧
      ((Value.obj metadata).finite = true →
        fingerprintWithin room challengeId metadata = .error .recursion)) := by
  constructor
  · intro hfits
    rw [fingerprintWithin_of_fits challengeId hfits]
    refine ⟨?_, ?_⟩
    · rw [← canonicalRequest_isSome_iff challengeId]
      unfold submissionRequestFingerprint
      cases canonicalRequest challengeId metadata with
      | none => simp [Except.mapError]
      | some canonical => simp [Except.mapError]
    · intro hstable
      obtain ⟨canonical, hcanonical⟩ :=
        Option.isSome_iff_exists.mp ((canonicalRequest_isSome_iff challengeId).mpr hstable)
      refine ⟨canonical, ?_, ?_⟩
      · unfold submissionRequestFingerprint
        rw [hcanonical]
        rfl
      · intro challengeId' metadata'
        rw [canonicalRequest_eq_iff hcanonical, Fin.ext_iff]
        constructor
        · rintro ⟨hid, hmetadata⟩
          exact ⟨uuidText_injective challengeId'.isLt challengeId.isLt hid, hmetadata⟩
        · rintro ⟨hid, hmetadata⟩
          exact ⟨congrArg uuidText hid, hmetadata⟩
  · intro hdeep
    rcases fingerprintWithin_of_deep challengeId hdeep with hrecursion | ⟨hfinite, error, hrefused⟩
    · rw [hrecursion]
      exact ⟨fun _ => by simp, fun _ => rfl⟩
    · rw [hrefused, hfinite]
      exact ⟨fun _ => by simp, fun h => by cases h⟩

/-- Metadata three deep, in a stack with room for three and one for four. -/
example :
    [3, 4].map (fun room => (fingerprintWithin room 0
      [(lit "a", .arr [.arr [.int 1]])]).toOption.isSome) = [false, true] := by
  decide +kernel

/-! ## The replies under a key -/

/-- What a create under the key of another request is answered with. -/
def differentRequest : Reply :=
  .refused (.conflict "Idempotency-Key is already associated with a different submission request.")

/-- Two creates of one participant, under one key. -/
def SameKey (a b : NewSubmission) : Prop :=
  a.participantId = b.participantId ∧ ∃ key, a.idempotencyKey = some key ∧
    b.idempotencyKey = some key

/-- The stored fingerprint decides the reply. -/
theorem replayOrConflict_cases (cfg : SubmissionConfig) (existing : SubmissionRow)
    (fingerprint : String) :
    existing.requestFingerprint.getD
        (cfg.requestFingerprint existing.challengeId existing.metadata) = fingerprint ∧
      replayOrConflict cfg existing fingerprint = .created existing.id true ∨
    existing.requestFingerprint.getD
        (cfg.requestFingerprint existing.challengeId existing.metadata) ≠ fingerprint ∧
      replayOrConflict cfg existing fingerprint = differentRequest := by
  unfold replayOrConflict
  dsimp only
  split
  · rename_i hne
    exact Or.inr ⟨hne, rfl⟩
  · rename_i heq
    exact Or.inl ⟨not_not.mp heq, rfl⟩

namespace Acceptance

variable {cfg : SubmissionConfig} {s s' : Acceptance} {a : AcceptanceAction}

/-- The locking read refuses with other texts. -/
theorem checkAccept_ne {status : Option ChallengeStatus} {hackathonPublished : Bool}
    {upload : Option Upload} {e : DomainError}
    (h : checkAccept cfg status hackathonPublished upload = .error e) :
    Reply.refused e ≠ differentRequest := by
  unfold checkAccept at h
  rcases except_bind_eq_error h with hlock | ⟨_, _, hsize⟩
  · unfold lockOpenChallenge at hlock
    split at hlock
    · cases hlock
      decide
    · cases hlock
      decide
    · split at hlock
      · cases hlock
      · cases hlock
        decide
  · unfold checkArtifactSize at hsize
    split at hsize
    · cases hsize
      decide
    · cases hsize

/-- Only a lookup that finds a row answers so. -/
theorem lookup_cases {actor : Actor} {metadata : Option JsonDict} {new : NewSubmission}
    {reply : Reply} (h : s.service.lookup cfg actor metadata new = .error reply) :
    reply ≠ differentRequest ∨ ∃ existing,
      s.service.submissions.findExisting new = some existing ∧
      reply = replayOrConflict cfg existing
        (cfg.requestFingerprint new.challengeId new.metadata) := by
  unfold Service.lookup at h
  rcases except_bind_eq_error h with hrole | ⟨_, _, h⟩
  · left
    unfold requireParticipant at hrole
    split at hrole
    · cases hrole
    · cases hrole
      decide
  rcases except_bind_eq_error h with hmetadata | ⟨_, _, h⟩
  · left
    unfold validateMetadata at hmetadata
    dsimp only at hmetadata
    split at hmetadata
    · cases hmetadata
      decide
    · cases hmetadata
  split at h
  · rename_i existing hfound
    cases h
    exact Or.inr ⟨existing, hfound, rfl⟩
  · cases h

/-- A refusal by the gate is no dispute about a key. -/
theorem refused_ne {w : WaitingCreate} {hackathonPublished : Bool} (hw : w ∈ s.waiting)
    (hstep : s.step cfg (.grant w.id hackathonPublished) = some s') {r : Response}
    (hr : r ∈ s'.responses) : r ∈ s.responses ∨ r.reply ≠ differentRequest := by
  have hfound : s.waiting.find? w.id = some w := Table.find?_eq_some_iff.mpr ⟨hw, rfl⟩
  rw [step, hfound, Option.bind_some] at hstep
  unfold grant at hstep
  dsimp only at hstep
  split at hstep
  · cases hstep
  · split at hstep
    · rename_i e hrefused
      cases hstep
      rcases List.mem_cons.mp hr with rfl | hold
      · exact Or.inr (checkAccept_ne hrefused)
      · exact Or.inl hold
    · obtain ⟨requests, -, rfl⟩ := Option.map_eq_some_iff.mp hstep
      exact Or.inl hr

/-- A reply that disputes a key comes from a lookup. -/
theorem response_cases (hstep : s.step cfg a = some s') {r : Response} (hr : r ∈ s'.responses) :
    r ∈ s.responses ∨ r.reply ≠ differentRequest ∨ ∃ existing,
      s.service.submissions.findExisting r.new = some existing ∧
      r.reply = replayOrConflict cfg existing
        (cfg.requestFingerprint r.new.challengeId r.new.metadata) := by
  have hmoved := moved_of_step hstep
  cases hmoved with
  | answered _ hlookup =>
      rcases List.mem_cons.mp hr with rfl | hold
      · exact Or.inr (lookup_cases hlookup)
      · exact Or.inl hold
  | refused e hw =>
      rcases refused_ne hw hstep hr with hold | hne
      · exact Or.inl hold
      · exact Or.inr (Or.inl hne)
  | failed _ =>
      rcases List.mem_cons.mp hr with rfl | hold
      · exact Or.inr (Or.inl (by simp [differentRequest]))
      · exact Or.inl hold
  | inserted =>
      dsimp only at hr
      split at hr
      · rcases List.mem_cons.mp hr with rfl | hold
        · exact Or.inr (Or.inl (by simp [differentRequest]))
        · exact Or.inl hold
      · exact Or.inl hr
  | finished _ _ hends _ =>
      rcases List.mem_cons.mp hr with rfl | hold
      · right
        cases hends with
        | raised => exact Or.inl (by simp [differentRequest])
        | inserted _ => exact Or.inl (by simp [differentRequest])
        | replayed _ hfound => exact Or.inr ⟨_, hfound, rfl⟩
      · exact Or.inl hold
  | _ => exact Or.inl hr

/-- The create that inserted a row, and its fingerprint. -/
theorem creation_of_existing (h : Origins cfg s) (haccounted : s.Accounted) {new : NewSubmission}
    {existing : SubmissionRow} (hfound : s.service.submissions.findExisting new = some existing) :
    ∃ c ∈ s.creations, SameKey c.new new ∧ existing.requestFingerprint =
      some (cfg.requestFingerprint c.new.challengeId c.new.metadata) := by
  obtain ⟨hmem, howner, key, hkey, hkey'⟩ := Submissions.findExisting_eq_some hfound
  obtain ⟨c, hc, hsame⟩ := haccounted.creation hmem
  have hcowner : existing.participantId = c.new.participantId :=
    congrArg SubmissionIdentity.participantId hsame
  have hckey : existing.idempotencyKey = c.new.idempotencyKey :=
    congrArg SubmissionIdentity.idempotencyKey hsame
  have hstored : existing.requestFingerprint = c.new.requestFingerprint :=
    congrArg SubmissionIdentity.requestFingerprint hsame
  refine ⟨c, hc, ⟨hcowner.symm.trans howner, key, hckey.symm.trans hkey', hkey⟩, ?_⟩
  rw [hstored, h.creations c hc, ← hckey, hkey']
  rfl

/-- Who is told that the key is another request's has asked for something else. -/
def Disputed (cfg : SubmissionConfig) (s : Acceptance) : Prop :=
  ∀ r ∈ s.responses, r.reply = differentRequest → ∃ c ∈ s.creations, SameKey c.new r.new ∧
    cfg.requestFingerprint c.new.challengeId c.new.metadata ≠
      cfg.requestFingerprint r.new.challengeId r.new.metadata

/-- Creations stay on record. -/
theorem creations_of_moved (hmoved : Moved cfg s a s') : ∀ c ∈ s.creations, c ∈ s'.creations := by
  intro c hc
  rcases inserts_of_moved hmoved with ⟨-, hcreations⟩ | ⟨first, hinserts⟩
  · rw [hcreations]
    exact hc
  · rw [hinserts.creations]
    exact List.mem_cons_of_mem _ hc

/-- A step keeps every dispute justified. -/
theorem Disputed.step (h : Disputed cfg s) (horigins : Origins cfg s) (haccounted : s.Accounted)
    (hstep : s.step cfg a = some s') : Disputed cfg s' := by
  have hmore := creations_of_moved (moved_of_step hstep)
  intro r hr hreply
  rcases response_cases hstep hr with hold | hne | ⟨existing, hfound, hreads⟩
  · obtain ⟨c, hc, hrest⟩ := h r hold hreply
    exact ⟨c, hmore c hc, hrest⟩
  · exact absurd hreply hne
  · obtain ⟨c, hc, hkey, hprint⟩ := creation_of_existing horigins haccounted hfound
    refine ⟨c, hmore c hc, hkey, ?_⟩
    rcases replayOrConflict_cases cfg existing
      (cfg.requestFingerprint r.new.challengeId r.new.metadata) with ⟨-, hcreated⟩ | ⟨hne, -⟩
    · rw [hreads, hcreated] at hreply
      cases hreply
    · rwa [hprint, Option.getD_some] at hne

end Acceptance

/-- A `float` as it is written; the rows hold none that is not finite. -/
abbrev FloatText := Rat → { x : FloatLiteral // x.isFinite = true }

mutual

/-- The value of a column or a request, as Python holds it. -/
def Json.toValue (floatText : FloatText) : Json → Value
  | .null => .null
  | .bool b => .bool b
  | .int n => .int n
  | .float x => .float (floatText x)
  | .str s => .str (lit s)
  | .arr items => .arr (Json.toItems floatText items)
  | .obj members => .obj (Json.toMembers floatText members)

/-- The items, one by one. -/
def Json.toItems (floatText : FloatText) : List Json → List Value
  | [] => []
  | v :: rest => v.toValue floatText :: Json.toItems floatText rest

/-- The members, one by one. -/
def Json.toMembers (floatText : FloatText) : List (String × Json) → List (PyStr × Value)
  | [] => []
  | (k, v) :: rest => (lit k, v.toValue floatText) :: Json.toMembers floatText rest

end

mutual

/-- Stored metadata hold no surrogate and no float that is not finite. -/
theorem stable_toValue (floatText : FloatText) : ∀ v : Json,
    (v.toValue floatText).all (fun s => s.all isScalar) FloatLiteral.isFinite = true
  | .null => rfl
  | .bool _ => rfl
  | .int _ => rfl
  | .float x => (floatText x).2
  | .str s => all_isScalar_lit s
  | .arr items => stable_toItems floatText items
  | .obj members => stable_toMembers floatText members

/-- So do the items of an array. -/
theorem stable_toItems (floatText : FloatText) : ∀ items : List Json,
    allItems (fun s => s.all isScalar) FloatLiteral.isFinite (Json.toItems floatText items) = true
  | [] => rfl
  | v :: rest => by
      rw [Json.toItems, allItems, stable_toValue floatText v, stable_toItems floatText rest]
      rfl

/-- What a request brings and a column holds has a fingerprint. -/
theorem stable_toMembers (floatText : FloatText) : ∀ members : List (String × Json),
    allMembers (fun s => s.all isScalar) FloatLiteral.isFinite
      (Json.toMembers floatText members) = true
  | [] => rfl
  | (k, v) :: rest => by
      rw [Json.toMembers, allMembers, all_isScalar_lit, stable_toValue floatText v,
        stable_toMembers floatText rest]
      rfl

end

section Hashing

variable {cfg : SubmissionConfig} {floatText : FloatText}

end Hashing

end ChallengeForge
