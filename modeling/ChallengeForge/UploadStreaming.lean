import ChallengeForge.ArtifactWrites
import ChallengeForge.Sha256

/-!
# Streamed uploads

`stream_to_incoming` writes a body to a staging file chunk by chunk, counting and hashing
as it goes; `abort` and `cleanup_incoming` remove what becomes no artifact.  The source may
raise, and the operating system may fail any call, a write after some of its bytes.

* `streamToIncoming_spec` — a body is staged whole, or no file is changed but its own;
* `stream_verdict` — what becomes of a body that is read through depends on its bytes,
  and not on how it was cut into chunks.
-/

namespace ChallengeForge

open Directory Keyed

/-- What the body brings next: a chunk, the write of which may stop after some of its
bytes; or the source raises. -/
inductive BodyRead
  | chunk (bytes : List UInt8) (cut : Option Nat)
  | raised

/-- What `stream_to_incoming` raises. -/
inductive StreamError
  | refused (error : DomainError)
  | os
  | source
  deriving DecidableEq

/-- What `stream_to_incoming` returns, with the bytes it has staged. -/
structure IncomingUpload where
  stagingPath : Path
  size : Nat
  sha256 : String
  contentType : String
  /-- The bytes in the staging file. -/
  data : List UInt8

/-- The calls on the staging area that the operating system fails. -/
structure StreamFaults where
  mkdir : Bool
  opened : Bool
  unlink : Bool

/-- A stream under way: the files, `size`, and what the hasher was fed. -/
structure Streaming where
  disk : Disk
  size : Nat
  hashed : List UInt8

namespace Disk

/-- `fh.write(bytes)` at the end of an open file. -/
def append (disk : Disk) (path : Path) (bytes : List UInt8) (now : Rat) : Option Disk :=
  (disk.read path).bind (fun file => disk.write path ⟨file.data ++ bytes, now⟩)

/-- The loop over the chunks. -/
def streamChunks (staging : Path) (maxBytes : Nat) (now : Rat) :
    Streaming → List BodyRead → Except (StreamError × Disk) Streaming
  | stream, [] => .ok stream
  | stream, .raised :: _ => .error (.source, stream.disk)
  | stream, .chunk bytes cut :: rest =>
      if bytes = [] then streamChunks staging maxBytes now stream rest
      else if stream.size + bytes.length > maxBytes then
        .error (.refused (.validationFailed "Artifact exceeds the size limit."), stream.disk)
      else
        match cut with
        | some written =>
            .error (.os, (append stream.disk staging (bytes.take written) now).getD stream.disk)
        | none =>
            match append stream.disk staging bytes now with
            | none => .error (.os, stream.disk)
            | some disk =>
                streamChunks staging maxBytes now
                  ⟨disk, stream.size + bytes.length, stream.hashed ++ bytes⟩ rest

/-- `if staging.is_file(): staging.unlink()`, an `OSError` being swallowed. -/
def discard (fails : Bool) (disk : Disk) (staging : Path) : Disk :=
  if fails then disk else (unlinkFile disk staging).1

/-- `expected_sha256 and expected_sha256.lower() != digest`. -/
def mismatched (expectedSha256 : Option String) (digest : String) : Bool :=
  expectedSha256.any (fun expected =>
    decide (expected ≠ "" ∧ String.ofList (expected.toList.map Char.toLower) ≠ digest))

/-- `stream_to_incoming(incoming_root, chunks, max_bytes=…, expected_sha256=…)`, where
`incoming_root` lies directly below the root. -/
def streamToIncoming (faults : StreamFaults) (disk : Disk) (incomingRoot uploadId : Name)
    (body : List BodyRead) (maxBytes : Nat) (contentType : String)
    (expectedSha256 : Option String) (now : Rat) :
    Except (StreamError × Disk) (IncomingUpload × Disk) :=
  let staging : Path := [incomingRoot, uploadId]
  match if faults.mkdir then none else disk.mkdirs [] [incomingRoot] with
  | none => .error (.os, disk)
  | some made =>
      match if faults.opened then none else made.write staging ⟨[], now⟩ with
      | none => .error (.os, discard faults.unlink made staging)
      | some opened =>
          match streamChunks staging maxBytes now ⟨opened, 0, []⟩ body with
          | .error (error, disk) => .error (error, discard faults.unlink disk staging)
          | .ok stream =>
              let digest := Sha256.hexdigest stream.hashed
              if mismatched expectedSha256 digest then
                .error (.refused (.validationFailed "Artifact checksum mismatch."),
                  discard faults.unlink stream.disk staging)
              else
                .ok (⟨staging, stream.size, digest,
                  if contentType = "" then "application/octet-stream" else contentType,
                  stream.hashed⟩, stream.disk)

/-- `incoming.abort()` of an upload that is not finalized: an `OSError` of the first
unlink ends it, and `parent.rmdir()` may fail. -/
def abortUpload (fails : Bool) (disk : Disk) (staging : Path) : Disk :=
  if fails ∧ disk.isFile staging then disk
  else
    let disk := unlinkStaged disk staging
    (disk.rmdir staging.dropLast).getD disk

/-- The cleanup at the end of the route. -/
def sweepIncoming (disk : Disk) (clock : Rat) : Disk :=
  match disk.mkdirs [] [incoming] with
  | none => disk
  | some disk => (cleanupIncoming disk incoming 3600 clock).1

end Disk

/-! ## The loop -/

/-- The bytes of a body. -/
def bodyBytes : List BodyRead → List UInt8
  | [] => []
  | .chunk bytes _ :: rest => bytes ++ bodyBytes rest
  | .raised :: rest => bodyBytes rest

/-- The source does not raise, and no write is cut. -/
def ReadsThrough (body : List BodyRead) : Prop :=
  ∀ read ∈ body, ∃ bytes cut, read = .chunk bytes cut ∧ (bytes = [] ∨ cut = none)

/-- The staging file holds what was counted and hashed, and no other file has changed. -/
structure Streaming.Holds (disk : Disk) (staging : Path) (maxBytes : Nat) (now : Rat)
    (stream : Streaming) : Prop where
  file : stream.disk.read staging = some ⟨stream.hashed, now⟩
  size : stream.size = stream.hashed.length
  within : stream.size ≤ maxBytes
  frame : ∀ q, q ≠ staging → stream.disk.read q = disk.read q

namespace Disk

variable {disk : Disk} {staging : Path} {maxBytes : Nat} {now : Rat} {stream : Streaming}

theorem append_spec {disk' : Disk} {file : StoredFile} {bytes : List UInt8}
    (hfile : disk.read staging = some file) (h : append disk staging bytes now = some disk') :
    disk'.read staging = some ⟨file.data ++ bytes, now⟩ ∧
      ∀ q, q ≠ staging → disk'.read q = disk.read q := by
  rw [append, hfile, Option.bind_some] at h
  constructor
  · rw [Tree.read_write h, if_pos rfl]
  · intro q hq
    rw [Tree.read_write h, if_neg hq]

/-- The end of an open file can be written to. -/
theorem append_eq_some {file : StoredFile} (hfile : disk.read staging = some file)
    (bytes : List UInt8) : ∃ disk', append disk staging bytes now = some disk' := by
  have hplace : disk.Placeable staging := by
    obtain ⟨e, he, hpath, -⟩ := Tree.mem_of_node? (fun hnil => by rw [hnil] at hfile; cases hfile)
      (Tree.read_eq_some_iff.mp hfile)
    obtain ⟨hne, hparent⟩ := disk.placed e he
    rw [hpath] at hne hparent
    refine ⟨hne, ?_⟩
    rcases hparent with hnil | ⟨d, hd, hdir, hnode⟩
    · rw [hnil]
      exact Tree.isDir_nil
    · rw [Tree.isDir_eq_true_iff, ← hdir, Tree.node?_of_mem hd, hnode]
  have hdir : disk.isDir staging = false := by
    cases hisDir : disk.isDir staging with
    | false => rfl
    | true =>
        rw [Tree.read_of_isDir hisDir] at hfile
        cases hfile
  obtain ⟨disk', hwritten⟩ := Tree.write_eq_some (f := ⟨file.data ++ bytes, now⟩) hplace hdir
  exact ⟨disk', by rw [append, hfile, Option.bind_some, hwritten]⟩

/-- One chunk more. -/
theorem holds_append {bytes : List UInt8} {disk' : Disk}
    (h : stream.Holds disk staging maxBytes now)
    (hwithin : ¬stream.size + bytes.length > maxBytes)
    (hwritten : append stream.disk staging bytes now = some disk') :
    Streaming.Holds disk staging maxBytes now
      ⟨disk', stream.size + bytes.length, stream.hashed ++ bytes⟩ := by
  obtain ⟨hfile, hframe⟩ := append_spec h.file hwritten
  refine ⟨hfile, ?_, Nat.le_of_not_lt hwithin, ?_⟩
  · rw [List.length_append, h.size]
  · intro q hq
    rw [hframe q hq, h.frame q hq]

/-- The loop at a chunk. -/
theorem streamChunks_chunk (bytes : List UInt8) (cut : Option Nat) (rest : List BodyRead) :
    streamChunks staging maxBytes now stream (.chunk bytes cut :: rest) =
      if bytes = [] then streamChunks staging maxBytes now stream rest
      else if stream.size + bytes.length > maxBytes then
        .error (.refused (.validationFailed "Artifact exceeds the size limit."), stream.disk)
      else
        match cut with
        | some written =>
            .error (.os, (append stream.disk staging (bytes.take written) now).getD stream.disk)
        | none =>
            match append stream.disk staging bytes now with
            | none => .error (.os, stream.disk)
            | some disk =>
                streamChunks staging maxBytes now
                  ⟨disk, stream.size + bytes.length, stream.hashed ++ bytes⟩ rest := by
  cases cut <;> rfl

/-- **The whole loop.**  It comes to the end of the body with all of its bytes, or raises
with no file changed but the staging file. -/
theorem streamChunks_spec (h : stream.Holds disk staging maxBytes now) (body : List BodyRead) :
    (∃ stream', streamChunks staging maxBytes now stream body = .ok stream' ∧
      ReadsThrough body ∧ stream'.hashed = stream.hashed ++ bodyBytes body ∧
      stream'.Holds disk staging maxBytes now) ∨
    ∃ error disk', streamChunks staging maxBytes now stream body = .error (error, disk') ∧
      ∀ q, q ≠ staging → disk'.read q = disk.read q := by
  induction body generalizing stream with
  | nil =>
      refine Or.inl ⟨stream, rfl, ?_, (List.append_nil _).symm, h⟩
      intro read hread
      cases hread
  | cons first rest ih =>
      cases first with
      | raised => exact Or.inr ⟨.source, stream.disk, rfl, h.frame⟩
      | chunk bytes cut =>
          rw [streamChunks_chunk]
          by_cases hempty : bytes = []
          · rw [if_pos hempty]
            rcases ih h with ⟨stream', hrun, hreads, hhashed, hholds⟩ | hraised
            · refine Or.inl ⟨stream', hrun, ?_, ?_, hholds⟩
              · exact List.forall_mem_cons.mpr ⟨⟨bytes, cut, rfl, Or.inl hempty⟩, hreads⟩
              · rw [hhashed, bodyBytes, hempty, List.nil_append]
            · exact Or.inr hraised
          · rw [if_neg hempty]
            split
            · exact Or.inr ⟨_, stream.disk, rfl, h.frame⟩
            · rename_i hwithin
              cases cut with
              | some written =>
                  refine Or.inr ⟨_, _, rfl, ?_⟩
                  intro q hq
                  cases happended : append stream.disk staging (bytes.take written) now with
                  | none => exact h.frame q hq
                  | some disk' =>
                      rw [Option.getD_some, (append_spec h.file happended).2 q hq, h.frame q hq]
              | none =>
                  obtain ⟨disk', happended⟩ :
                      ∃ disk', append stream.disk staging bytes now = some disk' :=
                    append_eq_some h.file bytes
                  simp only [happended]
                  rcases ih (holds_append h hwithin happended) with
                    ⟨stream', hrun, hreads, hhashed, hholds⟩ | hraised
                  · refine Or.inl ⟨stream', hrun, ?_, ?_, hholds⟩
                    · exact List.forall_mem_cons.mpr ⟨⟨bytes, none, rfl, Or.inr rfl⟩, hreads⟩
                    · rw [hhashed, bodyBytes, List.append_assoc]
                  · exact Or.inr hraised

/-- A body that is read through is refused exactly when it is too long. -/
theorem streamChunks_verdict (h : stream.Holds disk staging maxBytes now)
    {body : List BodyRead} (hreads : ReadsThrough body) :
    (stream.size + (bodyBytes body).length ≤ maxBytes ∧
        ∃ stream', streamChunks staging maxBytes now stream body = .ok stream') ∨
      maxBytes < stream.size + (bodyBytes body).length ∧
        ∃ disk', streamChunks staging maxBytes now stream body =
          .error (.refused (.validationFailed "Artifact exceeds the size limit."), disk') := by
  induction body generalizing stream with
  | nil => exact Or.inl ⟨h.within, stream, rfl⟩
  | cons first rest ih =>
      obtain ⟨⟨bytes, cut, rfl, hcut⟩, hrest⟩ := List.forall_mem_cons.mp hreads
      rw [streamChunks_chunk, bodyBytes, List.length_append]
      by_cases hempty : bytes = []
      · rw [if_pos hempty, hempty, List.length_nil, Nat.zero_add]
        exact ih h hrest
      · rw [if_neg hempty]
        split
        · exact Or.inr ⟨by omega, stream.disk, rfl⟩
        · rename_i hwithin
          obtain rfl : cut = none := hcut.resolve_left hempty
          obtain ⟨disk', happended⟩ :
              ∃ disk', append stream.disk staging bytes now = some disk' :=
            append_eq_some h.file bytes
          simp only [happended]
          have hnext := ih (holds_append h hwithin happended) hrest
          dsimp only at hnext
          rwa [Nat.add_assoc] at hnext

/-! ## The staged upload -/

variable {incomingRoot uploadId : Name} {faults : StreamFaults} {contentType : String}
  {expectedSha256 : Option String} {body : List BodyRead}

theorem read_discard (fails : Bool) (disk : Disk) (staging q : Path) :
    (discard fails disk staging).read q =
      if fails = false ∧ q = staging then none else disk.read q := by
  unfold discard
  cases fails with
  | true => simp
  | false =>
      rw [if_neg (by simp), read_unlinkFile]
      simp

theorem holds_opened {made opened : Disk} (hmade : disk.mkdirs [] [incomingRoot] = some made)
    (hopened : made.write [incomingRoot, uploadId] ⟨[], now⟩ = some opened) :
    Streaming.Holds disk [incomingRoot, uploadId] maxBytes now ⟨opened, 0, []⟩ := by
  refine ⟨?_, rfl, Nat.zero_le _, ?_⟩
  · rw [Tree.read_write hopened, if_pos rfl]
  · intro q hq
    rw [Tree.read_write hopened, if_neg hq, Tree.read_mkdirs hmade]

/-- **A staged upload** holds all of the body, which is within the limit and has the hash
that was asked for. -/
structure Staged (disk : Disk) (incomingRoot uploadId : Name) (body : List BodyRead)
    (maxBytes : Nat) (contentType : String) (expectedSha256 : Option String) (now : Rat)
    (incoming : IncomingUpload) (staged : Disk) : Prop where
  path : incoming.stagingPath = [incomingRoot, uploadId]
  data : incoming.data = bodyBytes body
  size : incoming.size = (bodyBytes body).length
  within : (bodyBytes body).length ≤ maxBytes
  sha256 : incoming.sha256 = Sha256.hexdigest (bodyBytes body)
  matched : mismatched expectedSha256 (Sha256.hexdigest (bodyBytes body)) = false
  contentType : incoming.contentType =
    if contentType = "" then "application/octet-stream" else contentType
  file : staged.read [incomingRoot, uploadId] = some ⟨bodyBytes body, now⟩
  frame : ∀ q, q ≠ [incomingRoot, uploadId] → staged.read q = disk.read q

/-- Whatever is failed, the body is staged, or nothing is left of it. -/
theorem streamToIncoming_spec (faults : StreamFaults) (disk : Disk) (incomingRoot uploadId : Name)
    (body : List BodyRead) (maxBytes : Nat) (contentType : String)
    (expectedSha256 : Option String) (now : Rat) :
    (∃ incoming staged, streamToIncoming faults disk incomingRoot uploadId body maxBytes
        contentType expectedSha256 now = .ok (incoming, staged) ∧ ReadsThrough body ∧
      Staged disk incomingRoot uploadId body maxBytes contentType expectedSha256 now incoming
        staged) ∨
    ∃ error left, streamToIncoming faults disk incomingRoot uploadId body maxBytes contentType
        expectedSha256 now = .error (error, left) ∧
      (∀ q, q ≠ [incomingRoot, uploadId] → left.read q = disk.read q) ∧
      (faults.unlink = false → left.read [incomingRoot, uploadId] = none ∨ left = disk) := by
  have hgone : ∀ before : Disk, (∀ q, q ≠ [incomingRoot, uploadId] → before.read q = disk.read q) →
      (∀ q, q ≠ [incomingRoot, uploadId] →
        (discard faults.unlink before [incomingRoot, uploadId]).read q = disk.read q) ∧
      (faults.unlink = false →
        (discard faults.unlink before [incomingRoot, uploadId]).read [incomingRoot, uploadId] =
            none ∨
          discard faults.unlink before [incomingRoot, uploadId] = disk) := by
    intro before hframe
    constructor
    · intro q hq
      rw [read_discard, if_neg (fun h => hq h.2), hframe q hq]
    · intro hunlink
      left
      rw [read_discard, if_pos ⟨hunlink, rfl⟩]
  unfold streamToIncoming
  dsimp only
  split
  · exact Or.inr ⟨_, _, rfl, fun _ _ => rfl, fun _ => Or.inr rfl⟩
  · rename_i made hmkdirs
    have hmade : disk.mkdirs [] [incomingRoot] = some made := by
      split at hmkdirs
      · cases hmkdirs
      · exact hmkdirs
    split
    · exact Or.inr ⟨_, _, rfl, hgone made (fun q _ => Tree.read_mkdirs hmade q)⟩
    · rename_i opened hwrite
      have hopened : made.write [incomingRoot, uploadId] ⟨[], now⟩ = some opened := by
        split at hwrite
        · cases hwrite
        · exact hwrite
      have hholds : Streaming.Holds disk [incomingRoot, uploadId] maxBytes now ⟨opened, 0, []⟩ :=
        holds_opened hmade hopened
      rcases streamChunks_spec hholds body with
        ⟨stream, hrun, hreads, hhashed, hholds⟩ | ⟨error, raised, hrun, hframe⟩
      · rw [hrun]
        dsimp only
        rw [List.nil_append] at hhashed
        split
        · exact Or.inr ⟨_, _, rfl, hgone stream.disk hholds.frame⟩
        · rename_i hmatched
          refine Or.inl ⟨_, _, rfl, hreads, ⟨rfl, hhashed, ?_, ?_, ?_, ?_, rfl, ?_, hholds.frame⟩⟩
          · rw [← hhashed, ← hholds.size]
          · rw [← hhashed, ← hholds.size]
            exact hholds.within
          · rw [← hhashed]
          · rw [← hhashed]
            simpa using hmatched
          · rw [← hhashed]
            exact hholds.file
      · rw [hrun]
        exact Or.inr ⟨_, _, rfl, hgone raised hframe⟩

/-- What is answered to a body that is read through. -/
def bodyVerdict (maxBytes : Nat) (expectedSha256 : Option String) (data : List UInt8) :
    Option DomainError :=
  if maxBytes < data.length then
    some (.validationFailed "Artifact exceeds the size limit.")
  else if mismatched expectedSha256 (Sha256.hexdigest data) then
    some (.validationFailed "Artifact checksum mismatch.")
  else none

end Disk

open Disk in
/-- **What becomes of a body** that is read through depends on its bytes only: however it
is cut into chunks it is refused for its size or for its hash, or it is staged whole. -/
theorem stream_verdict (disk : Disk) (incomingRoot uploadId : Name) (body : List BodyRead)
    (maxBytes : Nat) (contentType : String) (expectedSha256 : Option String) (now : Rat)
    (unlinkFails : Bool) (hreads : ReadsThrough body)
    (hopens : ∃ made, disk.mkdirs [] [incomingRoot] = some made ∧
      (made.write [incomingRoot, uploadId] ⟨[], now⟩).isSome = true) :
    match bodyVerdict maxBytes expectedSha256 (bodyBytes body) with
    | some error => ∃ left,
        streamToIncoming ⟨false, false, unlinkFails⟩ disk incomingRoot uploadId body maxBytes
          contentType expectedSha256 now = .error (.refused error, left) ∧
        ∀ q, q ≠ [incomingRoot, uploadId] → left.read q = disk.read q
    | none => ∃ incoming staged,
        streamToIncoming ⟨false, false, unlinkFails⟩ disk incomingRoot uploadId body maxBytes
          contentType expectedSha256 now = .ok (incoming, staged) ∧
        Staged disk incomingRoot uploadId body maxBytes contentType expectedSha256 now incoming
          staged := by
  obtain ⟨made, hmade, hwritten⟩ := hopens
  obtain ⟨opened, hopened⟩ := Option.isSome_iff_exists.mp hwritten
  have hholds : Streaming.Holds disk [incomingRoot, uploadId] maxBytes now ⟨opened, 0, []⟩ :=
    holds_opened hmade hopened
  have hspec := streamToIncoming_spec ⟨false, false, unlinkFails⟩ disk incomingRoot uploadId body
    maxBytes contentType expectedSha256 now
  have hloop := streamChunks_verdict hholds hreads
  rw [Nat.zero_add] at hloop
  rcases hloop with ⟨hwithin, stream, hrun⟩ | ⟨hlong, raised, hrun⟩
  · have hhashed : stream.hashed = bodyBytes body := by
      rcases streamChunks_spec hholds body with ⟨ended, hended, -, hhashed, -⟩ |
        ⟨error, raised, hraised, -⟩
      · rw [hrun] at hended
        cases hended
        rwa [List.nil_append] at hhashed
      · rw [hrun] at hraised
        cases hraised
    have hresult : streamToIncoming ⟨false, false, unlinkFails⟩ disk incomingRoot uploadId body
        maxBytes contentType expectedSha256 now =
        if mismatched expectedSha256 (Sha256.hexdigest (bodyBytes body)) then
          .error (.refused (.validationFailed "Artifact checksum mismatch."),
            discard unlinkFails stream.disk [incomingRoot, uploadId])
        else
          .ok (⟨[incomingRoot, uploadId], stream.size, Sha256.hexdigest (bodyBytes body),
            if contentType = "" then "application/octet-stream" else contentType,
            stream.hashed⟩, stream.disk) := by
      simp only [streamToIncoming, hmade, hopened, hrun, hhashed, Bool.false_eq_true, if_false]
    rw [bodyVerdict, if_neg (Nat.not_lt.mpr hwithin)]
    split at hresult
    · rename_i hmatch
      rw [if_pos hmatch]
      rcases hspec with ⟨incoming, staged, hok, -⟩ | ⟨error, left, herror, hframe, -⟩
      · rw [hresult] at hok
        cases hok
      · rw [hresult] at herror
        cases herror
        exact ⟨_, hresult, hframe⟩
    · rename_i hmatch
      rw [if_neg hmatch]
      rcases hspec with ⟨incoming, staged, hok, -, hstaged⟩ | ⟨error, left, herror, -⟩
      · exact ⟨incoming, staged, hok, hstaged⟩
      · rw [hresult] at herror
        cases herror
  · have hresult : streamToIncoming ⟨false, false, unlinkFails⟩ disk incomingRoot uploadId body
        maxBytes contentType expectedSha256 now =
        .error (.refused (.validationFailed "Artifact exceeds the size limit."),
          discard unlinkFails raised [incomingRoot, uploadId]) := by
      simp only [streamToIncoming, hmade, hopened, hrun, Bool.false_eq_true, if_false]
    rw [bodyVerdict, if_pos hlong]
    rcases hspec with ⟨incoming, staged, hok, -⟩ | ⟨error, left, herror, hframe, -⟩
    · rw [hresult] at hok
      cases hok
    · rw [hresult] at herror
      cases herror
      exact ⟨_, hresult, hframe⟩

/-- Five bytes in two chunks, and an empty one between them. -/
def helloBody : List BodyRead :=
  [.chunk [104, 101] none, .chunk [] (some 0), .chunk [108, 108, 111] none]

/-- The staging id of the examples. -/
def helloId : Name := ⟨['u'], by decide⟩

theorem readsThrough_hello : ReadsThrough helloBody := by
  intro read hread
  simp only [helloBody, List.mem_cons, List.not_mem_nil, or_false] at hread
  rcases hread with rfl | rfl | rfl
  · exact ⟨_, _, rfl, Or.inr rfl⟩
  · exact ⟨_, _, rfl, Or.inl rfl⟩
  · exact ⟨_, _, rfl, Or.inr rfl⟩

/-- `stream_verdict` of that body, where four bytes are the limit. -/
theorem stream_verdict_hello : ∃ left,
    Disk.streamToIncoming ⟨false, false, false⟩ Tree.empty Disk.incoming helloId
        helloBody 4 "text/plain" none 10 =
      .error (.refused (.validationFailed "Artifact exceeds the size limit."), left) ∧
    ∀ q, q ≠ [Disk.incoming, helloId] → left.read q = (Tree.empty : Disk).read q :=
  stream_verdict Tree.empty Disk.incoming helloId helloBody 4 "text/plain" none 10
    false readsThrough_hello ⟨_, rfl, by decide +kernel⟩

end ChallengeForge
