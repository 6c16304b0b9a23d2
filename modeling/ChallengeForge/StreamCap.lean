import Mathlib.Data.List.Basic

/-!
# The capped output of a workload

A daemon thread reads each output pipe of the workload's process to its end, so that
the process never blocks on a full pipe, and keeps only the first bytes.  The run is
stopped as soon as one of the two readers has had to drop something.
-/

namespace ChallengeForge

/-- How many bytes the reader asks for at a time. -/
def streamReadSize : Nat := 4096

/-- What one `stream.read` gives back.  No bytes at all mean the end of the stream. -/
inductive StreamRead where
  | bytes (chunk : List UInt8)
  | raised
  deriving DecidableEq, Repr

/-- Where the reader's thread stands. -/
inductive ReaderPhase where
  | reading
  | atEnd
  | failed
  deriving DecidableEq, Repr

/-- `limitEvent` is `_limit_hit`, which `limit_hit` below joins with `truncated`. -/
structure StreamCap where
  maxBytes : Int
  buf : List UInt8 := []
  truncated : Bool := false
  limitEvent : Bool := false
  deriving DecidableEq, Repr

namespace StreamCap

/-- `limit_hit`: the event is set, or something was cut off. -/
def limitHit (cap : StreamCap) : Bool := cap.limitEvent || cap.truncated

/-- One turn of the loop, for a chunk that is not empty. -/
def feed (cap : StreamCap) (chunk : List UInt8) : StreamCap :=
  let remaining := cap.maxBytes - cap.buf.length
  if remaining ≤ 0 then { cap with truncated := true, limitEvent := true }
  else if remaining < chunk.length then
    { cap with
      buf := cap.buf ++ chunk.take remaining.toNat, truncated := true, limitEvent := true }
  else { cap with buf := cap.buf ++ chunk }

/-- `_run` over what successive reads give back; when there are no more of them, the
thread waits in `read`. -/
def run (cap : StreamCap) : List StreamRead → StreamCap × ReaderPhase
  | [] => (cap, .reading)
  | .raised :: _ => (cap, .failed)
  | .bytes chunk :: reads =>
    if chunk = [] then (cap, .atEnd) else (cap.feed chunk).run reads

/-- The bytes that the reader gets to see. -/
def seen : List StreamRead → List UInt8
  | [] | .raised :: _ => []
  | .bytes chunk :: reads => if chunk = [] then [] else chunk ++ seen reads

/-- What a cap holds once it has been given `given`. -/
structure Capped (cap : StreamCap) (given : List UInt8) : Prop where
  buf_eq : cap.buf = given.take cap.maxBytes.toNat
  truncated_iff : cap.truncated = true ↔ given ≠ [] ∧ cap.maxBytes < given.length
  event_eq : cap.limitEvent = cap.truncated

/-- A fresh cap holds what it was given: nothing. -/
theorem capped_new (maxBytes : Int) : Capped { maxBytes } [] := by
  constructor <;> simp

/-- On a cap that was only fed, the limit was reached exactly when something was cut off. -/
theorem Capped.limitHit_eq {cap : StreamCap} {given : List UInt8} (h : Capped cap given) :
    cap.limitHit = cap.truncated := by
  simp [limitHit, h.event_eq]

/-- Feeding leaves the limit alone. -/
@[simp] theorem feed_maxBytes (cap : StreamCap) (chunk : List UInt8) :
    (cap.feed chunk).maxBytes = cap.maxBytes := by
  grind [feed]

/-- A chunk is either beyond the limit, or across it, or within it. -/
theorem Capped.feed {cap : StreamCap} {given chunk : List UInt8} (h : Capped cap given)
    (hchunk : chunk ≠ []) : Capped (cap.feed chunk) (given ++ chunk) := by
  have hbuf := h.buf_eq
  have hpos : 0 < chunk.length := List.length_pos_iff.2 hchunk
  have hlen : cap.buf.length = min cap.maxBytes.toNat given.length := by
    rw [hbuf, List.length_take]
  have hsum : (given ++ chunk).length = given.length + chunk.length := List.length_append
  have hne : given ++ chunk ≠ [] := by simp [hchunk]
  unfold StreamCap.feed
  by_cases hfull : cap.maxBytes - cap.buf.length ≤ 0
  · -- nothing is left: the buffer is as long as the limit already
    have hle : cap.maxBytes.toNat ≤ given.length := by omega
    have hover : cap.maxBytes < (given ++ chunk).length := by omega
    simp only [hfull, if_true]
    constructor
    · simpa [List.take_append_of_le_length hle] using hbuf
    · simp only [true_iff]
      exact ⟨hne, hover⟩
    · rfl
  · -- room is left, so that nothing has been dropped so far
    have hlt : given.length < cap.maxBytes.toNat := by omega
    have hall : cap.buf = given := by
      rw [hbuf, List.take_of_length_le (by omega)]
    have hnot : ¬ cap.truncated = true := by
      rw [h.truncated_iff]
      intro hdropped
      have := hdropped.2
      omega
    simp only [hfull, if_false]
    by_cases hacross : cap.maxBytes - cap.buf.length < chunk.length
    · have hover : cap.maxBytes < (given ++ chunk).length := by
        rw [hall] at hacross
        omega
      have hrest : (cap.maxBytes - cap.buf.length).toNat = cap.maxBytes.toNat - given.length := by
        rw [hall]
        omega
      simp only [hacross, if_true]
      constructor
      · simp only [hrest]
        rw [List.take_append, ← hbuf]
      · simp only [true_iff]
        exact ⟨hne, hover⟩
      · rfl
    · have hfits : ¬ cap.maxBytes < (given ++ chunk).length := by
        rw [hall] at hacross
        omega
      simp only [hacross, if_false]
      constructor
      · simp only [hall]
        rw [List.take_of_length_le (by omega)]
      · simp only [hfits, and_false]
        simpa using hnot
      · exact h.event_eq

/-- However the reader stops, it has capped exactly what it has seen. -/
theorem Capped.run {cap : StreamCap} {given : List UInt8} (h : Capped cap given)
    (reads : List StreamRead) : Capped (cap.run reads).1 (given ++ seen reads) := by
  induction reads generalizing cap given with
  | nil => simpa [StreamCap.run, seen] using h
  | cons read reads ih =>
    cases read with
    | raised => simpa [StreamCap.run, seen] using h
    | bytes chunk =>
      by_cases hchunk : chunk = []
      · simpa [StreamCap.run, seen, hchunk] using h
      · have hnext := ih (h.feed hchunk)
        simpa [StreamCap.run, seen, hchunk] using hnext

/-- A whole run leaves the limit alone. -/
theorem run_maxBytes (cap : StreamCap) (reads : List StreamRead) :
    (cap.run reads).1.maxBytes = cap.maxBytes := by
  induction reads generalizing cap with
  | nil => rfl
  | cons read reads ih =>
    cases read with
    | raised => rfl
    | bytes chunk =>
      by_cases hchunk : chunk = []
      · simp [StreamCap.run, hchunk]
      · simp [StreamCap.run, hchunk, ih]

/-- The reads hand over the whole of a stream, in pieces that are not empty and no
longer than was asked for, and then report its end. -/
inductive Delivers : List UInt8 → List StreamRead → Prop where
  | atEnd (reads : List StreamRead) : Delivers [] (.bytes [] :: reads)
  | more {stream : List UInt8} {reads : List StreamRead} (chunk : List UInt8)
      (hchunk : chunk ≠ []) (hsize : chunk.length ≤ streamReadSize)
      (hrest : Delivers stream reads) : Delivers (chunk ++ stream) (.bytes chunk :: reads)

/-- The reads that deliver a stream have seen all of it. -/
theorem Delivers.seen_eq {stream : List UInt8} {reads : List StreamRead}
    (h : Delivers stream reads) : seen reads = stream := by
  induction h with
  | atEnd reads => simp [seen]
  | more chunk hchunk hsize hrest ih => simp [seen, hchunk, ih]

/-- The loop over the reads of a whole stream stops at its end. -/
theorem Delivers.run_atEnd {stream : List UInt8} {reads : List StreamRead}
    (h : Delivers stream reads) (cap : StreamCap) : (cap.run reads).2 = .atEnd := by
  induction h generalizing cap with
  | atEnd reads => simp [StreamCap.run]
  | more chunk hchunk hsize hrest ih => simp [StreamCap.run, hchunk, ih]

/-- At the end of the stream the buffer is its beginning, as long as the limit allows,
and the reader has reported a truncation exactly when the stream is longer. -/
theorem output_capped (stream : List UInt8) {reads : List StreamRead} {maxBytes : Int}
    (hmax : 0 ≤ maxBytes) (hdelivers : Delivers stream reads) :
    (run { maxBytes } reads).2 = .atEnd ∧
    (run { maxBytes } reads).1.buf = stream.take (min maxBytes.toNat stream.length) ∧
    ((run { maxBytes } reads).1.truncated = true ↔ maxBytes < stream.length) ∧
    ((run { maxBytes } reads).1.limitHit = true ↔ maxBytes < stream.length) := by
  have hcapped := (capped_new maxBytes).run reads
  rw [hdelivers.seen_eq, List.nil_append] at hcapped
  have hbuf := hcapped.buf_eq
  have htruncated := hcapped.truncated_iff
  rw [run_maxBytes] at hbuf htruncated
  have hiff : (run { maxBytes } reads).1.truncated = true ↔ maxBytes < stream.length := by
    rw [htruncated]
    constructor
    · intro h
      exact h.2
    · intro hlong
      have hne : stream ≠ [] := by
        apply List.ne_nil_of_length_pos
        omega
      exact ⟨hne, hlong⟩
  refine ⟨hdelivers.run_atEnd _, ?_, hiff, ?_⟩
  · rw [hbuf, ← List.take_eq_take_min]
  · rw [hcapped.limitHit_eq]
    exact hiff

/-- Three bytes in two reads, the first of which ends at the limit. -/
theorem output_capped_at_limit :
    (run { maxBytes := 2 } [.bytes [1, 2], .bytes [3], .bytes []]).2 = .atEnd ∧
    (run { maxBytes := 2 } [.bytes [1, 2], .bytes [3], .bytes []]).1.buf =
      [1, 2, 3].take (min (2 : Int).toNat 3) ∧
    ((run { maxBytes := 2 } [.bytes [1, 2], .bytes [3], .bytes []]).1.truncated = true ↔
      (2 : Int) < 3) ∧
    ((run { maxBytes := 2 } [.bytes [1, 2], .bytes [3], .bytes []]).1.limitHit = true ↔
      (2 : Int) < 3) :=
  output_capped [1, 2, 3] (by decide)
    (.more [1, 2] (by decide) (by decide) (.more [3] (by decide) (by decide) (.atEnd [])))

end StreamCap

end ChallengeForge
