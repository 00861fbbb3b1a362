import Mathlib.Algebra.Order.Round
import Mathlib.Tactic.Linarith
import Mathlib.Tactic.Positivity
import Mathlib.Tactic.Ring

set_option autoImplicit false

/-!
# Rounding to decimal digits

To the nearest multiple of a power of ten, half-way cases away from zero.
-/
namespace ModbusCrawler.DecimalRounding

variable {K : Type} [Field K] [LinearOrder K] [IsStrictOrderedRing K] [FloorRing K]

def roundAway (x : K) : ℤ := if x < 0 then -⌊1 / 2 - x⌋ else ⌊1 / 2 + x⌋

def fixed (digits : ℕ) (x : K) : K := roundAway (x * 10 ^ digits) / 10 ^ digits

theorem roundAway_neg {x : K} (h : x < 0) : roundAway x = -round (-x) := by
  rw [roundAway, if_pos h, round_eq, neg_add_eq_sub]

theorem roundAway_nonneg {x : K} (h : 0 ≤ x) : roundAway x = round x := by
  rw [roundAway, if_neg (not_lt.mpr h), round_eq, add_comm]

theorem abs_sub_roundAway (x : K) : |x - roundAway x| ≤ 1 / 2 := by
  rcases lt_or_ge x 0 with h | h
  · have mirrored : |x - roundAway x| = |-x - round (-x)| := by
      rw [roundAway_neg h, Int.cast_neg, sub_neg_eq_add, ← abs_neg]
      congr 1
      ring
    rw [mirrored]
    exact abs_sub_round (-x)
  · rw [roundAway_nonneg h]
    exact abs_sub_round x

theorem roundAway_int (n : ℤ) : roundAway (n : K) = n := by
  rcases lt_or_ge (n : K) 0 with h | h
  · rw [roundAway_neg h, ← Int.cast_neg, round_intCast, neg_neg]
  · rw [roundAway_nonneg h, round_intCast]

theorem round_mono {x y : K} (h : x ≤ y) : round x ≤ round y := by
  rw [round_eq, round_eq]
  exact Int.floor_le_floor (by linarith)

theorem roundAway_mono {x y : K} (h : x ≤ y) : roundAway x ≤ roundAway y := by
  rcases lt_or_ge x 0 with hx | hx
  · have down : roundAway x ≤ 0 := by
      have up := round_mono (show (0 : K) ≤ -x by linarith)
      rw [round_zero] at up
      rw [roundAway_neg hx]
      omega
    rcases lt_or_ge y 0 with hy | hy
    · rw [roundAway_neg hx, roundAway_neg hy]
      exact neg_le_neg (round_mono (neg_le_neg h))
    · have up := round_mono hy
      rw [round_zero] at up
      rw [roundAway_nonneg hy]
      omega
  · rw [roundAway_nonneg hx, roundAway_nonneg (hx.trans h)]
    exact round_mono h

theorem fixed_mono (digits : ℕ) {x y : K} (h : x ≤ y) : fixed digits x ≤ fixed digits y := by
  have unit : (0 : K) < 10 ^ digits := by positivity
  have scaled : x * 10 ^ digits ≤ y * 10 ^ digits := mul_le_mul_of_nonneg_right h unit.le
  exact div_le_div_of_nonneg_right (Int.cast_le.mpr (roundAway_mono scaled)) unit.le

/-- Half a unit of the last digit at most. -/
theorem abs_sub_fixed (digits : ℕ) (x : K) : |x - fixed digits x| ≤ 1 / 2 / 10 ^ digits := by
  have unit : (0 : K) < 10 ^ digits := by positivity
  have shifted : x - fixed digits x = (x * 10 ^ digits - roundAway (x * 10 ^ digits)) / 10 ^ digits := by
    rw [fixed, sub_div, mul_div_cancel_right₀ _ unit.ne']
  rw [shifted, abs_div, abs_of_pos unit]
  exact div_le_div_of_nonneg_right (abs_sub_roundAway _) unit.le

/-- A number with no more digits is kept. -/
theorem fixed_exact {digits : ℕ} {x : K} {n : ℤ} (h : x * 10 ^ digits = n) : fixed digits x = x := by
  have unit : (10 : K) ^ digits ≠ 0 := by positivity
  rw [fixed, h, roundAway_int, ← h, mul_div_cancel_right₀ _ unit]

end ModbusCrawler.DecimalRounding
