import ChallengeForge.PythonNumbers
import Mathlib.Data.Finset.Dedup
import Mathlib.Data.Finset.Order
import Mathlib.Data.List.Sort

/-!
# The interactive latency signal

The API process keeps the wall times of recent requests in a window bounded in time
and in number, and reports percentiles of it.  Times are readings of a monotonic
clock in seconds, latencies are in milliseconds; both are the rationals that their
doubles denote.
-/

namespace ChallengeForge

/-- `0.50` -/
def p50Fraction : Rat := 1 / 2

/-- `0.95` -/
def p95Fraction : Rat := 4278419646001971 / 2 ^ 52

/-- `0.99` -/
def p99Fraction : Rat := 4458563631096791 / 2 ^ 52

/-- The place of a percentile among `len` ordered values.  `len * fraction` is a
product of doubles. -/
def percentileIndex (len : Nat) (fraction : Rat) : Nat :=
  match toDouble (len * fraction) with
  | .finite product => min (len - 1) (product.ceil - 1).toNat
  -- for more values than a process can hold
  | .inf | .nan => len - 1

/-- `_percentile(values, fraction)`. -/
def percentile (values : List Rat) (fraction : Rat) : Rat :=
  if values = [] then 0
  else
    let ordered := values.insertionSort (· ≤ ·)
    ordered.getD (percentileIndex ordered.length fraction) 0

/-- What a window reports of its samples. -/
structure WindowReport where
  sampleCount : Nat
  p50Ms : Option Rat
  p95Ms : Option Rat
  p99Ms : Option Rat
  deriving DecidableEq, Repr

/-- Samples, oldest first: when each was recorded, and its latency. -/
structure RollingLatencyWindow where
  windowSeconds : Rat := 5
  maxSamples : Nat := 2000
  samples : List (Rat × Rat) := []
  deriving DecidableEq, Repr

namespace RollingLatencyWindow

variable (w : RollingLatencyWindow)

/-- `_trim`: drop from the left what is too old, then what is too much. -/
def trim (now : Rat) : RollingLatencyWindow :=
  let cutoff := now - w.windowSeconds
  let young := w.samples.dropWhile (fun sample => decide (sample.1 < cutoff))
  { w with samples := young.drop (young.length - w.maxSamples) }

/-- `record(latency_ms)` at a time. -/
def record (latencyMs now : Rat) : RollingLatencyWindow :=
  { w with samples := w.samples ++ [(now, latencyMs)] }.trim now

/-- The latencies that are kept. -/
def values : List Rat := w.samples.map Prod.snd

/-- `percentile(values, fraction) if values else None` -/
def percentile? (fraction : Rat) : Option Rat :=
  if w.values = [] then none else some (percentile w.values fraction)

/-- The data of `snapshot`, of a window that has been trimmed. -/
def report : WindowReport where
  sampleCount := w.values.length
  p50Ms := w.percentile? p50Fraction
  p95Ms := w.percentile? p95Fraction
  p99Ms := w.percentile? p99Fraction

/-- `snapshot` trims the window, then reports it. -/
def snapshot (now : Rat) : RollingLatencyWindow × WindowReport :=
  (w.trim now, (w.trim now).report)

/-! ## What the trims leave -/

variable {w}

/-- Trimming leaves the span. -/
@[simp] theorem trim_windowSeconds (now : Rat) : (w.trim now).windowSeconds = w.windowSeconds :=
  rfl

/-- Trimming leaves the capacity. -/
@[simp] theorem trim_maxSamples (now : Rat) : (w.trim now).maxSamples = w.maxSamples := rfl

/-- A record leaves the span. -/
@[simp] theorem record_windowSeconds (latencyMs now : Rat) :
    (w.record latencyMs now).windowSeconds = w.windowSeconds := rfl

/-- A record leaves the capacity. -/
@[simp] theorem record_maxSamples (latencyMs now : Rat) :
    (w.record latencyMs now).maxSamples = w.maxSamples := rfl

/-- There is nothing to trim in an empty window. -/
theorem trim_nil {now : Rat} (h : w.samples = []) : (w.trim now).samples = [] := by
  simp [trim, h]

/-- No trim leaves more than `max_samples`. -/
theorem trim_length_le (now : Rat) : (w.trim now).samples.length ≤ w.maxSamples := by
  simp only [trim, List.length_drop]
  omega

/-- A window that keeps to its bounds at `now` is not changed by a trim. -/
theorem trim_eq_self {now : Rat} (hage : ∀ sample ∈ w.samples, now - w.windowSeconds ≤ sample.1)
    (hlength : w.samples.length ≤ w.maxSamples) : w.trim now = w := by
  have hyoung : w.samples.dropWhile (fun sample => decide (sample.1 < now - w.windowSeconds)) =
      w.samples := by
    rw [List.dropWhile_eq_self_iff]
    intro hpos
    simpa using hage _ (List.getElem_mem hpos)
  have hdrop : w.samples.length - w.maxSamples = 0 := by omega
  unfold trim
  simp only [hyoung, hdrop, List.drop_zero]

/-- There is a time at which a bounded window loses nothing to a trim. -/
theorem exists_trim_eq_self (h : w.samples.length ≤ w.maxSamples) : ∃ now, w.trim now = w := by
  obtain ⟨age, hage⟩ := (w.samples.map (fun sample => -sample.1)).toFinset.exists_le
  refine ⟨w.windowSeconds - age, trim_eq_self ?_ h⟩
  intro sample hsample
  have hle : -sample.1 ≤ age :=
    hage _ (List.mem_toFinset.mpr (List.mem_map_of_mem hsample))
  linarith

/-- A window can hold a sample. -/
def Holds (w : RollingLatencyWindow) : Prop := 0 ≤ w.windowSeconds ∧ 0 < w.maxSamples

/-- What is recorded is kept, for a moment. -/
theorem record_ne_nil (h : w.Holds) (latencyMs now : Rat) :
    (w.record latencyMs now).samples ≠ [] := by
  have hlast : (now, latencyMs) ∈ (w.samples ++ [(now, latencyMs)]).dropWhile
      (fun sample => decide (sample.1 < now - w.windowSeconds)) := by
    rw [List.dropWhile_append]
    have hself : [(now, latencyMs)].dropWhile
        (fun sample => decide (sample.1 < now - w.windowSeconds)) = [(now, latencyMs)] := by
      have hyoung : ¬ now < now - w.windowSeconds := not_lt.mpr (sub_le_self now h.1)
      simp [hyoung]
    rw [hself]
    split
    · exact List.mem_singleton_self _
    · exact List.mem_append_right _ (List.mem_singleton_self _)
  have hlength := List.length_pos_of_mem hlast
  intro hnil
  simp only [record, trim, List.drop_eq_nil_iff] at hnil
  have hroom := h.2
  omega

/-- Without room or time for a sample, the window stays empty. -/
theorem record_eq_nil (h : ¬ w.Holds) (hnil : w.samples = []) (latencyMs now : Rat) :
    (w.record latencyMs now).samples = [] := by
  unfold record trim
  simp only [hnil, List.nil_append]
  by_cases hroom : 0 < w.maxSamples
  · have hnegative : w.windowSeconds < 0 := not_le.mp (fun hle => h ⟨hle, hroom⟩)
    have hold : now < now - w.windowSeconds := by linarith
    simp [hold]
  · have hzero : w.maxSamples = 0 := by omega
    simp [hzero]

/-- The report counts the samples. -/
theorem report_sampleCount : w.report.sampleCount = w.samples.length := by
  simp [report, values]

/-- It has no percentile exactly when there are none. -/
theorem report_p95Ms_eq_none_iff : w.report.p95Ms = none ↔ w.samples = [] := by
  simp [report, percentile?, values]

end RollingLatencyWindow

/-- The percentile fractions are the doubles of their literals. -/
example : [(50 : Rat) / 100, 95 / 100, 99 / 100].map toDouble =
    [p50Fraction, p95Fraction, p99Fraction].map PyFloat.finite := by decide +kernel

/-- Of twenty values, the 95th percentile is the nineteenth. -/
example : percentileIndex 20 p95Fraction = 18 := by decide +kernel

end ChallengeForge
