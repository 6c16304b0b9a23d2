import ChallengeForge.PythonNumbers
import Mathlib.Data.Nat.Log
import Mathlib.Tactic.GCongr
import Mathlib.Tactic.Linarith
import Mathlib.Tactic.NormNum

/-!
# How far a double is from the number it rounds

A number below a power of two is rounded by at most half of its last place, and never
across an integer (`toDouble_of_lt`).  Rounding keeps the order of numbers that are not
negative (`roundedToPlace_mono_of_nonneg`): it is monotone where the last place is the
same, and where it differs a power of two that both round to lies between.
-/

namespace ChallengeForge

/-- A number is rounded to one of the two integers around it, and to the nearer one. -/
theorem abs_roundHalfEven_sub_le (x : Rat) : |(roundHalfEven x : Rat) - x| ≤ 1 / 2 := by
  have hlow : (x.floor : Rat) ≤ x := Rat.floor_le x
  have hhigh : x < x.floor + 1 := by
    exact_mod_cast Rat.lt_floor_add_one x
  unfold roundHalfEven
  dsimp only
  rw [abs_le]
  split
  · constructor <;> linarith
  · split
    · push_cast
      constructor <;> linarith
    · split
      · constructor <;> linarith
      · push_cast
        constructor <;> linarith

/-- Rounding does not go beyond an integer. -/
theorem roundHalfEven_le {x : Rat} {c : Int} (h : x ≤ c) : roundHalfEven x ≤ c := by
  have herror := (abs_le.1 (abs_roundHalfEven_sub_le x)).2
  have hlt : (roundHalfEven x : Rat) < (c + 1 : Int) := by
    push_cast
    linarith
  exact Int.le_of_lt_add_one (by exact_mod_cast hlt)

/-- The size of a rational, by its numerator and denominator. -/
theorem abs_eq_natAbs_div (q : Rat) : |q| = (q.num.natAbs : Rat) / q.den := by
  conv_lhs => rw [← Rat.num_div_den q]
  rw [abs_div, Nat.abs_cast, Nat.cast_natAbs, Int.cast_abs]

/-- `binaryExponent` is no power of two too high. -/
theorem zpow_binaryExponent_le {q : Rat} (h : q ≠ 0) : (2 : Rat) ^ binaryExponent q ≤ |q| := by
  unfold binaryExponent
  dsimp only
  split
  · assumption
  · have hnum : (2 : Rat) ^ Nat.log2 q.num.natAbs ≤ q.num.natAbs := by
      exact_mod_cast Nat.log2_self_le (Int.natAbs_ne_zero.2 (Rat.num_ne_zero.2 h))
    have hden : (q.den : Rat) ≤ 2 ^ (Nat.log2 q.den + 1) := by
      exact_mod_cast Nat.lt_log2_self.le
    have hpos : (0 : Rat) < q.den := by
      exact_mod_cast q.den_pos
    have hexponent : (Nat.log2 q.num.natAbs : Int) - Nat.log2 q.den - 1 =
        (Nat.log2 q.num.natAbs : Int) - (Nat.log2 q.den + 1 : Nat) := by
      push_cast
      ring
    rw [hexponent, zpow_sub₀ two_ne_zero, zpow_natCast, zpow_natCast, abs_eq_natAbs_div]
    gcongr

/-- The exponent of the last place of a double. -/
def lastPlace (q : Rat) : Int := max (binaryExponent q - 52) (-1074)

/-- Smaller numbers have finer last places. -/
theorem lastPlace_le {q : Rat} {k : Nat} (hpos : 0 < q) (hlt : q < 2 ^ k) :
    lastPlace q ≤ (k : Int) - 53 := by
  have hle := zpow_binaryExponent_le hpos.ne'
  rw [abs_of_pos hpos] at hle
  have hpow : (2 : Rat) ^ binaryExponent q < 2 ^ (k : Int) := by
    rw [zpow_natCast]
    exact lt_of_le_of_lt hle hlt
  have hexponent := (zpow_lt_zpow_iff_right₀ one_lt_two).1 hpow
  unfold lastPlace
  omega

/-- The double of a positive number below `2 ^ k`. -/
theorem toDouble_of_lt {q : Rat} {k : Nat} (hpos : 0 < q) (hlt : q < 2 ^ k) (hk : k ≤ 53) :
    ∃ r, toDouble q = .finite r ∧ |r - q| ≤ 2 ^ ((k : Int) - 54) ∧
      ∀ c : Int, q ≤ c → r ≤ c := by
  have hplace := lastPlace_le hpos hlt
  have hunit : (0 : Rat) < 2 ^ lastPlace q := zpow_pos two_pos _
  have hle : (2 : Rat) ^ lastPlace q ≤ 2 ^ ((k : Int) - 53) :=
    zpow_le_zpow_right₀ one_le_two hplace
  have herror : |(roundHalfEven (q / 2 ^ lastPlace q) : Rat) * 2 ^ lastPlace q - q| ≤
      2 ^ ((k : Int) - 54) := by
    have hround := abs_roundHalfEven_sub_le (q / 2 ^ lastPlace q)
    have hscale : (roundHalfEven (q / 2 ^ lastPlace q) : Rat) * 2 ^ lastPlace q - q =
        (roundHalfEven (q / 2 ^ lastPlace q) - q / 2 ^ lastPlace q) * 2 ^ lastPlace q := by
      field_simp
    have hhalf : (2 : Rat) ^ ((k : Int) - 54) = 1 / 2 * 2 ^ ((k : Int) - 53) := by
      have hsplit : (k : Int) - 53 = (k : Int) - 54 + 1 := by ring
      rw [hsplit, zpow_add_one₀ two_ne_zero]
      ring
    rw [hscale, abs_mul, abs_of_pos hunit, hhalf]
    gcongr
  refine ⟨roundHalfEven (q / 2 ^ lastPlace q) * 2 ^ lastPlace q, ?_, herror, ?_⟩
  · have hbound : |(roundHalfEven (q / 2 ^ lastPlace q) : Rat) * 2 ^ lastPlace q| <
        (2 : Rat) ^ (k + 1) := by
      have htriangle := abs_sub_abs_le_abs_sub
        ((roundHalfEven (q / 2 ^ lastPlace q) : Rat) * 2 ^ lastPlace q) q
      have hsmall : (2 : Rat) ^ ((k : Int) - 54) ≤ 2 ^ k := by
        rw [← zpow_natCast]
        apply zpow_le_zpow_right₀ one_le_two
        omega
      rw [abs_of_pos hpos] at htriangle
      rw [pow_succ]
      linarith
    have hbig : (2 : Rat) ^ (k + 1) ≤ 2 ^ 1024 := by
      apply pow_le_pow_right₀ one_le_two
      omega
    exact if_neg (not_le.2 (lt_of_lt_of_le hbound hbig))
  · -- an integer is a whole number of units
    intro c hc
    obtain ⟨n, hn⟩ := Int.eq_ofNat_of_zero_le (show 0 ≤ -lastPlace q by omega)
    have hinv : (2 : Rat) ^ lastPlace q * 2 ^ n = 1 := by
      rw [← zpow_natCast, ← zpow_add₀ two_ne_zero, show lastPlace q + (n : Int) = 0 by omega,
        zpow_zero]
    have hscaled : q / 2 ^ lastPlace q ≤ ((c * 2 ^ n : Int) : Rat) := by
      rw [div_le_iff₀ hunit]
      push_cast
      rw [mul_assoc, mul_comm ((2 : Rat) ^ n), hinv, mul_one]
      exact hc
    have hrounded : (roundHalfEven (q / 2 ^ lastPlace q) : Rat) ≤ ((c * 2 ^ n : Int) : Rat) := by
      exact_mod_cast roundHalfEven_le hscaled
    calc (roundHalfEven (q / 2 ^ lastPlace q) : Rat) * 2 ^ lastPlace q
        ≤ ((c * 2 ^ n : Int) : Rat) * 2 ^ lastPlace q := by gcongr
      _ = c := by
          push_cast
          rw [mul_assoc, mul_comm ((2 : Rat) ^ n), hinv, mul_one]

/-! ## Rounding keeps the order -/

/-- Rounding does not go below an integer. -/
theorem le_roundHalfEven {x : Rat} {c : Int} (h : (c : Rat) ≤ x) : c ≤ roundHalfEven x := by
  have herror := (abs_le.1 (abs_roundHalfEven_sub_le x)).1
  have hlt : ((c - 1 : Int) : Rat) < roundHalfEven x := by
    push_cast
    linarith
  have hint : c - 1 < roundHalfEven x := by exact_mod_cast hlt
  omega

/-- Rounding to integers keeps the order. -/
theorem roundHalfEven_mono {x y : Rat} (h : x ≤ y) : roundHalfEven x ≤ roundHalfEven y := by
  have hfloor : x.floor ≤ y.floor := Rat.floor_monotone h
  by_cases hsame : x.floor = y.floor
  · -- in one unit interval, only the distance from its lower end decides
    have hdist : x - x.floor ≤ y - y.floor := by
      rw [hsame]
      linarith
    unfold roundHalfEven
    dsimp only
    rw [← hsame] at hdist ⊢
    split_ifs <;> first | omega | linarith
  · have hnext : (x.floor + 1 : Int) ≤ y.floor := by omega
    have hx : roundHalfEven x ≤ x.floor + 1 := by
      apply roundHalfEven_le
      push_cast
      exact le_of_lt (by exact_mod_cast Rat.lt_floor_add_one x)
    have hy : y.floor ≤ roundHalfEven y := le_roundHalfEven (Rat.floor_le y)
    omega

/-- `binaryExponent` is no power of two too low. -/
theorem lt_zpow_binaryExponent_succ (q : Rat) : |q| < (2 : Rat) ^ (binaryExponent q + 1) := by
  unfold binaryExponent
  dsimp only
  split
  · have hnum : (q.num.natAbs : Rat) < 2 ^ (Nat.log2 q.num.natAbs + 1) := by
      exact_mod_cast Nat.lt_log2_self
    have hden : (2 : Rat) ^ Nat.log2 q.den ≤ q.den := by
      exact_mod_cast Nat.log2_self_le q.den_ne_zero
    have hpos : (0 : Rat) < 2 ^ Nat.log2 q.den := by positivity
    have hexponent : (Nat.log2 q.num.natAbs : Int) - Nat.log2 q.den + 1 =
        ((Nat.log2 q.num.natAbs + 1 : Nat) : Int) - Nat.log2 q.den := by
      push_cast
      ring
    rw [hexponent, zpow_sub₀ two_ne_zero, zpow_natCast, zpow_natCast, abs_eq_natAbs_div]
    gcongr
  · rename_i hnot
    rw [sub_add_cancel]
    exact not_le.1 hnot

/-- Larger numbers have larger exponents. -/
theorem binaryExponent_mono {x y : Rat} (hx : 0 < x) (h : x ≤ y) :
    binaryExponent x ≤ binaryExponent y := by
  have hlow := zpow_binaryExponent_le hx.ne'
  have hhigh := lt_zpow_binaryExponent_succ y
  rw [abs_of_pos hx] at hlow
  rw [abs_of_pos (lt_of_lt_of_le hx h)] at hhigh
  have hpow : (2 : Rat) ^ binaryExponent x < 2 ^ (binaryExponent y + 1) :=
    lt_of_le_of_lt hlow (lt_of_le_of_lt h hhigh)
  have hexponent := (zpow_lt_zpow_iff_right₀ one_lt_two).1 hpow
  omega

/-- A number rounded to its last place, before the range is checked. -/
def roundedToPlace (q : Rat) : Rat := roundHalfEven (q / 2 ^ lastPlace q) * 2 ^ lastPlace q

/-- A double is the rounded number, if it is in range. -/
theorem toDouble_eq (q : Rat) :
    toDouble q = if 2 ^ 1024 ≤ |roundedToPlace q| then .inf else .finite (roundedToPlace q) := rfl

/-- A power of two that is not finer than the last place. -/
theorem zpow_eq_units {e k : Int} (h : e ≤ k) : ∃ n : Int, (2 : Rat) ^ k = n * 2 ^ e := by
  obtain ⟨n, hn⟩ := Int.eq_ofNat_of_zero_le (show 0 ≤ k - e by omega)
  refine ⟨2 ^ n, ?_⟩
  push_cast
  rw [← zpow_natCast, ← zpow_add₀ two_ne_zero]
  congr 1
  omega

/-- Rounding does not go beyond such a power from below … -/
theorem roundedToPlace_le {q : Rat} {k : Int} (hk : lastPlace q ≤ k) (h : q ≤ 2 ^ k) :
    roundedToPlace q ≤ 2 ^ k := by
  have hunit : (0 : Rat) < 2 ^ lastPlace q := zpow_pos two_pos _
  obtain ⟨n, hn⟩ := zpow_eq_units hk
  have hscaled : q / 2 ^ lastPlace q ≤ (n : Rat) := by
    rw [div_le_iff₀ hunit, ← hn]
    exact h
  have hrounded : (roundHalfEven (q / 2 ^ lastPlace q) : Rat) ≤ n := by
    exact_mod_cast roundHalfEven_le hscaled
  unfold roundedToPlace
  rw [hn]
  gcongr

/-- … nor from above. -/
theorem le_roundedToPlace {q : Rat} {k : Int} (hk : lastPlace q ≤ k) (h : (2 : Rat) ^ k ≤ q) :
    (2 : Rat) ^ k ≤ roundedToPlace q := by
  have hunit : (0 : Rat) < 2 ^ lastPlace q := zpow_pos two_pos _
  obtain ⟨n, hn⟩ := zpow_eq_units hk
  have hscaled : (n : Rat) ≤ q / 2 ^ lastPlace q := by
    rw [le_div_iff₀ hunit, ← hn]
    exact h
  have hrounded : (n : Rat) ≤ roundHalfEven (q / 2 ^ lastPlace q) := by
    exact_mod_cast le_roundHalfEven hscaled
  unfold roundedToPlace
  rw [hn]
  gcongr

/-- Rounding makes nothing negative. -/
theorem roundedToPlace_nonneg {q : Rat} (h : 0 ≤ q) : 0 ≤ roundedToPlace q := by
  have hunit : (0 : Rat) < 2 ^ lastPlace q := zpow_pos two_pos _
  have hscaled : ((0 : Int) : Rat) ≤ q / 2 ^ lastPlace q := by
    push_cast
    positivity
  have hrounded : (0 : Rat) ≤ roundHalfEven (q / 2 ^ lastPlace q) := by
    exact_mod_cast le_roundHalfEven hscaled
  exact mul_nonneg hrounded hunit.le

/-- Rounding keeps the order of positive numbers. -/
theorem roundedToPlace_mono {x y : Rat} (hx : 0 < x) (h : x ≤ y) :
    roundedToPlace x ≤ roundedToPlace y := by
  have hexponent := binaryExponent_mono hx h
  by_cases hsame : lastPlace x = lastPlace y
  · have hunit : (0 : Rat) < 2 ^ lastPlace y := zpow_pos two_pos _
    have hscaled : x / 2 ^ lastPlace y ≤ y / 2 ^ lastPlace y := by gcongr
    have hrounded : (roundHalfEven (x / 2 ^ lastPlace y) : Rat) ≤
        roundHalfEven (y / 2 ^ lastPlace y) := by
      exact_mod_cast roundHalfEven_mono hscaled
    unfold roundedToPlace
    rw [hsame]
    gcongr
  · -- the power of two below `y` lies between
    have hplaces : lastPlace x < lastPlace y ∧ lastPlace y = binaryExponent y - 52 ∧
        binaryExponent x + 1 ≤ binaryExponent y := by
      unfold lastPlace at hsame ⊢
      omega
    obtain ⟨hless, hplace, hgap⟩ := hplaces
    have hbelow : x ≤ 2 ^ binaryExponent y := by
      have hlt := lt_zpow_binaryExponent_succ x
      rw [abs_of_pos hx] at hlt
      exact hlt.le.trans (zpow_le_zpow_right₀ one_le_two hgap)
    have habove : (2 : Rat) ^ binaryExponent y ≤ y := by
      have hle := zpow_binaryExponent_le (lt_of_lt_of_le hx h).ne'
      rwa [abs_of_pos (lt_of_lt_of_le hx h)] at hle
    calc roundedToPlace x ≤ 2 ^ binaryExponent y := roundedToPlace_le (by omega) hbelow
      _ ≤ roundedToPlace y := le_roundedToPlace (by omega) habove

/-- Zero is a double. -/
theorem roundedToPlace_zero : roundedToPlace 0 = 0 := by
  unfold roundedToPlace
  rw [zero_div, show roundHalfEven 0 = 0 by decide +kernel]
  simp

/-- Rounding keeps the order from zero on. -/
theorem roundedToPlace_mono_of_nonneg {x y : Rat} (hx : 0 ≤ x) (h : x ≤ y) :
    roundedToPlace x ≤ roundedToPlace y := by
  rcases hx.lt_or_eq with hpos | rfl
  · exact roundedToPlace_mono hpos h
  · rw [roundedToPlace_zero]
    exact roundedToPlace_nonneg h

end ChallengeForge
