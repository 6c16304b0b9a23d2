import ChallengeForge.DoubleRounding
import ChallengeForge.InteractiveSignal
import ChallengeForge.OrderStatistics
import ChallengeForge.SlidingWindow
import Mathlib.Algebra.Order.Floor.Semiring

/-!
# The rolling window over its calls

Every call of a `RollingLatencyWindow` trims it first.  Over any calls at times that
do not go back, the window holds what a single trim of all its records would leave,
and its 95th percentile is the nearest rank of that, as long as the product of the
sample count and the double of `0.95` is on the same side of an integer as the exact
product.
-/

namespace ChallengeForge

open OrderStatistics SlidingWindow

/-! ## The rank of a percentile -/

/-- The nearest rank of the 95th percentile of `n` values. -/
def p95Rank (n : Nat) : Nat := ⌈(95 / 100 : Rat) * n⌉₊

/-- From one sample more on, the double of a product can be below an integer that the
exact product is above. -/
def exactRankLimit : Nat := 422212465065998

/-- The rank in whole numbers. -/
theorem p95Rank_eq (n : Nat) : p95Rank n = (19 * n + 19) / 20 := by
  by_cases hn : n = 0
  · subst hn
    simp [p95Rank]
  · have hrank : (19 * n + 19) / 20 ≠ 0 := by omega
    rw [p95Rank, Nat.ceil_eq_iff hrank]
    have hbelow : 20 * ((19 * n + 19) / 20 - 1) < 19 * n := by omega
    have habove : 19 * n ≤ 20 * ((19 * n + 19) / 20) := by omega
    generalize (19 * n + 19) / 20 - 1 = low at hbelow ⊢
    generalize (19 * n + 19) / 20 = high at habove ⊢
    have hbelow' : (20 : Rat) * low < 19 * n := by exact_mod_cast hbelow
    have habove' : (19 : Rat) * n ≤ 20 * high := by exact_mod_cast habove
    constructor
    · linarith
    · linarith

/-- The double of `0.95` is less by `1 / (5 * 2 ^ 52)`. -/
theorem p95Fraction_eq : p95Fraction = 95 / 100 - 1 / (5 * 2 ^ 52) := by
  norm_num [p95Fraction]

/-- Up to the limit, what is lost to the two roundings is less than the distance of the
exact product to the integer below its rank. -/
theorem ceil_toDouble_p95 {n : Nat} (hpos : 0 < n) (hlimit : n ≤ exactRankLimit) :
    ∃ product, toDouble (n * p95Fraction) = .finite product ∧
      product.ceil = (p95Rank n : Int) := by
  have hpos' : (0 : Rat) < n := by exact_mod_cast hpos
  have hlimit' : (n : Rat) ≤ 422212465065998 := by exact_mod_cast hlimit
  have hbelow : (n : Rat) * p95Fraction < 2 ^ 49 := by
    rw [p95Fraction_eq]
    linarith
  have habove : 0 < (n : Rat) * p95Fraction := by
    rw [p95Fraction_eq]
    linarith
  obtain ⟨product, hproduct, herror, hint⟩ := toDouble_of_lt habove hbelow (by omega)
  refine ⟨product, hproduct, ?_⟩
  rw [p95Rank_eq]
  -- the distance is the least, a twentieth, where the product ends in .05
  have hgap : n < 3 * 2 ^ 47 ∧ 20 * ((19 * n + 19) / 20) + 1 ≤ 19 * n + 20 ∨
      20 * ((19 * n + 19) / 20) + 2 ≤ 19 * n + 20 := by
    unfold exactRankLimit at hlimit
    omega
  have hhigh : 19 * n ≤ 20 * ((19 * n + 19) / 20) := by omega
  generalize (19 * n + 19) / 20 = rank at hgap hhigh ⊢
  have hle : product ≤ (rank : Int) := by
    apply hint
    have hhigh' : (19 : Rat) * n ≤ 20 * rank := by exact_mod_cast hhigh
    rw [p95Fraction_eq]
    push_cast
    linarith
  have hlt : ((rank - 1 : Int) : Rat) < product := by
    have hlow := (abs_le.1 herror).1
    rw [p95Fraction_eq] at hlow
    norm_num at hlow
    push_cast
    rcases hgap with ⟨hsmall, hnear⟩ | hfar
    · have hsmall' : (n : Rat) < 3 * 2 ^ 47 := by exact_mod_cast hsmall
      have hnear' : (20 : Rat) * rank + 1 ≤ 19 * n + 20 := by exact_mod_cast hnear
      linarith
    · have hfar' : (20 : Rat) * rank + 2 ≤ 19 * n + 20 := by exact_mod_cast hfar
      linarith
  apply le_antisymm
  · exact Rat.ceil_le_iff.2 hle
  · exact Int.le_of_sub_one_lt (Rat.lt_ceil_iff.2 hlt)

/-- The index, once the product of doubles is known. -/
theorem percentileIndex_of_finite {len : Nat} {fraction product : Rat}
    (h : toDouble (len * fraction) = .finite product) :
    percentileIndex len fraction = min (len - 1) (product.ceil - 1).toNat := by
  unfold percentileIndex
  rw [h]

/-- Up to the limit the index is that of the exact rank. -/
theorem percentileIndex_p95 {n : Nat} (hpos : 0 < n) (hlimit : n ≤ exactRankLimit) :
    percentileIndex n p95Fraction + 1 = p95Rank n := by
  obtain ⟨product, hproduct, hceil⟩ := ceil_toDouble_p95 hpos hlimit
  rw [percentileIndex_of_finite hproduct, hceil, p95Rank_eq]
  omega

/-- A percentile is the value of the rank that its place stands for. -/
theorem isRanked_percentile {values : List Rat} (hne : values ≠ []) (fraction : Rat) :
    IsRanked values (percentileIndex values.length fraction + 1) (percentile values fraction) := by
  have hpos : 0 < values.length := List.length_pos_iff.2 hne
  have hindex : percentileIndex values.length fraction < values.length := by
    unfold percentileIndex
    split
    · omega
    · omega
    · omega
  have hlength : (values.insertionSort (· ≤ ·)).length = values.length :=
    (List.perm_insertionSort _ values).length_eq
  rw [percentile, if_neg hne]
  dsimp only
  rw [hlength]
  exact isRanked_insertionSort hindex 0

/-! ## Calls -/

/-- A call of the window, with the time it is made at. -/
inductive WindowCall
  | record (latencyMs now : Rat)
  | sampleCount (now : Rat)
  | p95Ms (now : Rat)
  | snapshot (now : Rat)
  deriving DecidableEq, Repr

namespace WindowCall

/-- The time of the call. -/
def now : WindowCall → Rat
  | record _ now | sampleCount now | p95Ms now | snapshot now => now

/-- What a call appends to the samples. -/
def sample : WindowCall → List (Rat × Rat)
  | record latencyMs now => [(now, latencyMs)]
  | sampleCount _ | p95Ms _ | snapshot _ => []

end WindowCall

/-- Everything that the calls have recorded, oldest first. -/
def recordsOf (calls : List WindowCall) : List (Rat × Rat) := calls.flatMap WindowCall.sample

/-- The times of the calls, and then `now`, do not go back. -/
def TimesOrdered (calls : List WindowCall) (now : Rat) : Prop :=
  (calls.map WindowCall.now ++ [now]).Pairwise (· ≤ ·)

/-- What a window has to hold at `now`: the most recent records that are not too old,
and no more of them than it may. -/
def inWindow (windowSeconds : Rat) (maxSamples : Nat) (now : Rat) (records : List (Rat × Rat)) :
    List (Rat × Rat) :=
  (records.filter (fun record => decide (now - record.1 ≤ windowSeconds))).rtake maxSamples

/-- The latencies in the window are the recent ones of a sliding window. -/
theorem inWindow_eq_recent (windowSeconds : Rat) (maxSamples : Nat) (now : Rat)
    (records : List (Rat × Rat)) :
    inWindow windowSeconds maxSamples now records =
      recent Prod.fst (now - windowSeconds) maxSamples records := by
  have hage : ∀ record : Rat × Rat,
      now - record.1 ≤ windowSeconds ↔ now - windowSeconds ≤ record.1 := by
    intro record
    exact sub_le_comm
  unfold inWindow recent
  simp only [hage]

/-- No call was made after the present. -/
theorem TimesOrdered.le {calls : List WindowCall} {now : Rat} (h : TimesOrdered calls now) :
    ∀ call ∈ calls, call.now ≤ now := by
  intro call hcall
  have happend := (List.pairwise_append.1 h).2.2
  exact happend _ (List.mem_map_of_mem hcall) now (List.mem_singleton_self now)

/-- The records are in the order of their times. -/
theorem TimesOrdered.ordered {calls : List WindowCall} {now : Rat} (h : TimesOrdered calls now) :
    Ordered Prod.fst (recordsOf calls) := by
  have htimes := (List.pairwise_append.1 h).1
  unfold Ordered recordsOf
  rw [List.pairwise_flatMap]
  rw [List.pairwise_map] at htimes
  constructor
  · intro call _
    cases call <;> simp [WindowCall.sample]
  · apply htimes.imp
    intro a b hab x hx y hy
    cases a <;> cases b <;>
      simp only [WindowCall.sample, List.mem_singleton, List.not_mem_nil] at hx hy
    subst hx
    subst hy
    exact hab

namespace RollingLatencyWindow

/-- `sample_count` -/
def sampleCount (w : RollingLatencyWindow) (now : Rat) : RollingLatencyWindow × Nat :=
  (w.trim now, (w.trim now).samples.length)

/-- `p95_ms` -/
def p95Ms (w : RollingLatencyWindow) (now : Rat) : RollingLatencyWindow × Option Rat :=
  (w.trim now, (w.trim now).percentile? p95Fraction)

/-- What a call leaves of the window. -/
def call (w : RollingLatencyWindow) : WindowCall → RollingLatencyWindow
  | .record latencyMs now => w.record latencyMs now
  | .sampleCount now => (w.sampleCount now).1
  | .p95Ms now => (w.p95Ms now).1
  | .snapshot now => (w.snapshot now).1

/-- The window after these calls. -/
def run (w : RollingLatencyWindow) (calls : List WindowCall) : RollingLatencyWindow :=
  calls.foldl call w

variable {w : RollingLatencyWindow}

/-- A call leaves the span of the window. -/
@[simp] theorem call_windowSeconds (made : WindowCall) :
    (w.call made).windowSeconds = w.windowSeconds := by
  cases made <;> rfl

/-- A call leaves its capacity. -/
@[simp] theorem call_maxSamples (made : WindowCall) : (w.call made).maxSamples = w.maxSamples := by
  cases made <;> rfl

/-- Trimming is an eviction. -/
theorem trim_samples (now : Rat) :
    (w.trim now).samples = evict Prod.fst (now - w.windowSeconds) w.maxSamples w.samples := rfl

/-- Every call appends its sample, then evicts. -/
theorem call_samples (made : WindowCall) :
    (w.call made).samples =
      evict Prod.fst (made.now - w.windowSeconds) w.maxSamples (w.samples ++ made.sample) := by
  cases made with
  | record latencyMs now => rfl
  | sampleCount now | p95Ms now | snapshot now =>
    rw [WindowCall.sample, List.append_nil]
    rfl

/-- The span stays over a run. -/
theorem run_windowSeconds (calls : List WindowCall) :
    (w.run calls).windowSeconds = w.windowSeconds := by
  induction calls generalizing w with
  | nil => rfl
  | cons made calls ih => exact ih.trans (call_windowSeconds made)

/-- The capacity stays over a run. -/
theorem run_maxSamples (calls : List WindowCall) : (w.run calls).maxSamples = w.maxSamples := by
  induction calls generalizing w with
  | nil => rfl
  | cons made calls ih => exact ih.trans (call_maxSamples made)

/-- The cutoff of a call, and what it appends. -/
def turnOf (windowSeconds : Rat) (made : WindowCall) : Rat × List (Rat × Rat) :=
  (made.now - windowSeconds, made.sample)

/-- A run is a sequence of evictions, with the records in between. -/
theorem run_samples (calls : List WindowCall) :
    (w.run calls).samples = (calls.map (turnOf w.windowSeconds)).foldl
      (fun kept turn => evict Prod.fst turn.1 w.maxSamples (kept ++ turn.2)) w.samples := by
  induction calls generalizing w with
  | nil => rfl
  | cons made calls ih =>
    have hrest := @ih (w.call made)
    rw [call_samples, call_windowSeconds, call_maxSamples] at hrest
    exact hrest

/-- **What is retained.**  A trim after any calls leaves what the window has to hold. -/
theorem trim_run_samples {windowSeconds : Rat} {maxSamples : Nat} {calls : List WindowCall}
    {now : Rat} (htimes : TimesOrdered calls now) :
    ((run { windowSeconds, maxSamples } calls).trim now).samples =
      inWindow windowSeconds maxSamples now (recordsOf calls) := by
  have hrecords : (calls.map (turnOf windowSeconds)).flatMap Prod.snd = recordsOf calls := by
    rw [List.flatMap_map]
    rfl
  have hcutoffs : ∀ turn ∈ calls.map (turnOf windowSeconds), turn.1 ≤ now - windowSeconds := by
    intro turn hturn
    obtain ⟨made, hmade, rfl⟩ := List.mem_map.1 hturn
    exact sub_le_sub_right (htimes.le made hmade) windowSeconds
  have hordered : Ordered Prod.fst
      ([] ++ (calls.map (turnOf windowSeconds)).flatMap Prod.snd ++ []) := by
    rw [List.nil_append, List.append_nil, hrecords]
    exact htimes.ordered
  have hfold := @evict_foldl _ _ _ Prod.fst (now - windowSeconds) maxSamples [] _ []
    hordered hcutoffs
  rw [List.nil_append, List.append_nil, List.append_nil, hrecords,
    evict_eq_recent htimes.ordered, ← inWindow_eq_recent] at hfold
  rw [trim_samples, run_windowSeconds, run_maxSamples, run_samples]
  exact hfold

/-! ## What is reported -/

/-- What a window answers at `now` is true of `kept`. -/
structure ReportsTruly (w : RollingLatencyWindow) (now : Rat) (kept : List (Rat × Rat)) : Prop where
  retained : (w.sampleCount now).1.samples = kept ∧ (w.p95Ms now).1.samples = kept ∧
    (w.snapshot now).1.samples = kept
  counted : (w.sampleCount now).2 = kept.length ∧ (w.snapshot now).2.sampleCount = kept.length
  agreed : (w.snapshot now).2.p95Ms = (w.p95Ms now).2
  missing : (w.p95Ms now).2 = none ↔ kept = []
  ranked : kept.length ≤ exactRankLimit → ∀ v, (w.p95Ms now).2 = some v →
    IsRanked (kept.map Prod.snd) (p95Rank kept.length) v

/-- A percentile is only reported of latencies that are there. -/
theorem percentile?_eq_some {fraction v : Rat} (h : w.percentile? fraction = some v) :
    w.values ≠ [] ∧ percentile w.values fraction = v := by
  unfold percentile? at h
  split at h
  · cases h
  · rename_i hne
    exact ⟨hne, Option.some.inj h⟩

/-- Up to the limit the reported latency has the exact rank. -/
theorem isRanked_p95 {v : Rat} (hlimit : w.samples.length ≤ exactRankLimit)
    (h : w.percentile? p95Fraction = some v) :
    IsRanked (w.samples.map Prod.snd) (p95Rank w.samples.length) v := by
  obtain ⟨hne, rfl⟩ := percentile?_eq_some h
  have hlength : w.values.length = w.samples.length := List.length_map _
  have hpos : 0 < w.samples.length := by
    rw [← hlength]
    exact List.length_pos_iff.2 hne
  have hranked := isRanked_percentile hne p95Fraction
  rw [hlength, percentileIndex_p95 hpos hlimit] at hranked
  exact hranked

/-- **The rolling window.**  After any calls at times that do not go back, the window
answers truly of the most recent records that are not too old. -/
theorem window_reports_truly (windowSeconds : Rat) (maxSamples : Nat) {calls : List WindowCall}
    {now : Rat} (htimes : TimesOrdered calls now) :
    ReportsTruly (run { windowSeconds, maxSamples } calls) now
      (inWindow windowSeconds maxSamples now (recordsOf calls)) := by
  have hkept := @trim_run_samples windowSeconds maxSamples calls now htimes
  rw [← hkept]
  generalize run { windowSeconds, maxSamples } calls = w
  refine ⟨⟨rfl, rfl, rfl⟩, ⟨rfl, report_sampleCount⟩, rfl, report_p95Ms_eq_none_iff, ?_⟩
  intro hlimit v hv
  exact isRanked_p95 hlimit hv

/-- Four records in a window of five seconds and two samples. -/
theorem window_reports_truly_four :
    ReportsTruly (run { windowSeconds := 5, maxSamples := 2 }
        [.record 10 0, .record 40 1, .p95Ms 2, .record 30 3, .snapshot 6, .record 20 6]) 7
      (inWindow 5 2 7 (recordsOf
        [.record 10 0, .record 40 1, .p95Ms 2, .record 30 3, .snapshot 6, .record 20 6])) :=
  window_reports_truly 5 2 (by unfold TimesOrdered; decide +kernel)

example : ((run { windowSeconds := 5, maxSamples := 2 }
    [.record 10 0, .record 40 1, .p95Ms 2, .record 30 3, .snapshot 6, .record 20 6]).p95Ms 7).2 =
      some 30 := by decide +kernel

/-! ## Beyond the limit -/

/-- `low` samples of latency 0, then `high` of latency 1, at one time. -/
def twoLatencies (low high : Nat) : List WindowCall :=
  List.replicate low (.record 0 0) ++ List.replicate high (.record 1 0)

/-- What is recorded in such a run. -/
theorem recordsOf_twoLatencies (low high : Nat) :
    recordsOf (twoLatencies low high) =
      List.replicate low (0, 0) ++ List.replicate high (0, 1) := by
  have hmany : ∀ (n : Nat) (latencyMs : Rat),
      (List.replicate n (WindowCall.record latencyMs 0)).flatMap WindowCall.sample =
        List.replicate n (0, latencyMs) := by
    intro n latencyMs
    induction n with
    | zero => rfl
    | succ n ih =>
      rw [List.replicate_succ, List.flatMap_cons, ih]
      rfl
  unfold recordsOf twoLatencies
  rw [List.flatMap_append, hmany, hmany]

/-- All at one time. -/
theorem timesOrdered_twoLatencies (low high : Nat) : TimesOrdered (twoLatencies low high) 0 := by
  have hzero : ∀ time ∈ (twoLatencies low high).map WindowCall.now ++ [0], time = 0 := by
    intro time htime
    simp only [twoLatencies, List.map_append, List.map_replicate, List.mem_append,
      List.mem_replicate, List.mem_singleton, WindowCall.now] at htime
    tauto
  apply List.Pairwise.imp_of_mem (R := fun _ _ => True)
  · intro a b ha hb _
    rw [hzero a ha, hzero b hb]
  · exact List.pairwise_of_forall (fun _ _ => trivial)

/-- All in the window. -/
theorem inWindow_twoLatencies (low high : Nat) :
    inWindow 5 (low + high) 0 (recordsOf (twoLatencies low high)) =
      List.replicate low (0, 0) ++ List.replicate high (0, 1) := by
  have hyoung : ∀ record ∈ List.replicate low ((0 : Rat), (0 : Rat)) ++ List.replicate high (0, 1),
      decide (0 - record.1 ≤ 5) = true := by
    intro record hrecord
    have hzero : record.1 = 0 := by
      simp only [List.mem_append, List.mem_replicate] at hrecord
      rcases hrecord with ⟨-, rfl⟩ | ⟨-, rfl⟩
      · rfl
      · rfl
    rw [hzero]
    decide +kernel
  rw [recordsOf_twoLatencies, inWindow, List.filter_eq_self.2 hyoung, List.rtake]
  simp

/-- When the code's rank is the number of samples of latency 0, it reports latency 0. -/
theorem p95Ms_twoLatencies {low high : Nat} (hlow : 0 < low)
    (hindex : percentileIndex (low + high) p95Fraction + 1 = low) :
    ((run { maxSamples := low + high } (twoLatencies low high)).p95Ms 0).2 = some 0 := by
  have hkept := @trim_run_samples 5 (low + high) _ _ (timesOrdered_twoLatencies low high)
  rw [inWindow_twoLatencies] at hkept
  have hvalues : ((run { maxSamples := low + high } (twoLatencies low high)).trim 0).values =
      List.replicate low 0 ++ List.replicate high 1 := by
    rw [values, hkept, List.map_append, List.map_replicate, List.map_replicate]
  generalize run { maxSamples := low + high } (twoLatencies low high) = w at hvalues
  have hne : (w.trim 0).values ≠ [] := by
    rw [hvalues]
    apply List.ne_nil_of_length_pos
    rw [List.length_append, List.length_replicate]
    omega
  have hranked := isRanked_percentile hne p95Fraction
  have hlength : (w.trim 0).values.length = low + high := by
    rw [hvalues, List.length_append, List.length_replicate, List.length_replicate]
  rw [hlength, hindex] at hranked
  have hzero : IsRanked (w.trim 0).values low 0 := by
    rw [hvalues]
    refine ⟨?_, ?_, ?_⟩
    · exact List.mem_append_left _ (List.mem_replicate.2 ⟨by omega, rfl⟩)
    · rw [List.countP_append, List.countP_replicate]
      simp
    · rw [List.countP_append, List.countP_replicate, List.countP_replicate]
      have hone : ¬ (1 : Rat) < 0 := by norm_num
      simpa [hone] using hlow
  change (w.trim 0).percentile? p95Fraction = some 0
  rw [percentile?, if_neg hne, hranked.unique hzero]

/-- Latency 0 does not have a rank beyond the samples of latency 0. -/
theorem not_isRanked_twoLatencies {low high : Nat} (hrank : low < p95Rank (low + high)) :
    ¬ IsRanked ((List.replicate low ((0 : Rat), (0 : Rat)) ++ List.replicate high (0, 1)).map
      Prod.snd) (p95Rank (low + high)) 0 := by
  intro hranked
  have hup := hranked.upTo
  rw [List.map_append, List.map_replicate, List.map_replicate, List.countP_append,
    List.countP_replicate, List.countP_replicate] at hup
  have hone : ¬ (1 : Rat) ≤ 0 := by norm_num
  simp only [hone, decide_false, Bool.false_eq_true, if_false, le_refl, decide_true, if_true,
    Nat.add_zero] at hup
  omega

/-- Beyond the limit a product of doubles is rounded up. -/
theorem percentileIndex_beyond :
    percentileIndex (401101841812699 + 21110623253300) p95Fraction + 1 = 401101841812699 := by
  decide +kernel

/-- **Beyond the limit** the reported value can have a rank too low: here one sample
more than the limit is retained, and the double of the product is the integer below. -/
theorem p95_rank_too_low :
    TimesOrdered (twoLatencies 401101841812699 21110623253300) 0 ∧
    ((run { maxSamples := 422212465065999 }
      (twoLatencies 401101841812699 21110623253300)).p95Ms 0).2 = some 0 ∧
    (inWindow 5 422212465065999 0
      (recordsOf (twoLatencies 401101841812699 21110623253300))).length = 422212465065999 ∧
    ¬ IsRanked ((inWindow 5 422212465065999 0
        (recordsOf (twoLatencies 401101841812699 21110623253300))).map Prod.snd)
      (p95Rank 422212465065999) 0 := by
  have hsum : 401101841812699 + 21110623253300 = 422212465065999 := by norm_num
  rw [← hsum]
  refine ⟨timesOrdered_twoLatencies _ _, ?_, ?_, ?_⟩
  · exact p95Ms_twoLatencies (by norm_num) percentileIndex_beyond
  · rw [inWindow_twoLatencies, List.length_append, List.length_replicate, List.length_replicate]
  · rw [inWindow_twoLatencies]
    apply not_isRanked_twoLatencies
    rw [p95Rank_eq]
    norm_num

end RollingLatencyWindow

end ChallengeForge
