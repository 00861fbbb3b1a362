import Mathlib.Algebra.Order.BigOperators.Group.List
import Mathlib.Algebra.Order.Field.Basic
import Mathlib.Data.List.Perm.Basic

set_option autoImplicit false

/-!
# Sample statistics

The extremes, the mean and the variance of a list, as two loops compute them: the
first with sentinels for the extremes, the second with the mean of the first. The
loops may have counted wrongly, and the summary tells when.
-/
namespace ModbusCrawler.SampleStatistics

section Extremes
variable {L : Type} [LinearOrder L] {xs : List L}

/-- A sentinel above every element does not leak out. -/
theorem foldl_min_least (hne : xs ≠ []) {top : L} (htop : ∀ x ∈ xs, x ≤ top) :
    xs.foldl min top ∈ xs ∧ ∀ x ∈ xs, xs.foldl min top ≤ x := by
  cases hmin : xs.min? with
  | none => exact absurd (List.min?_eq_none_iff.mp hmin) hne
  | some least =>
    have spec := List.min?_eq_some_iff.mp hmin
    have fold : xs.foldl min top = least := by
      rw [List.foldl_min, hmin, Option.getD_some]
      exact min_eq_right (htop least spec.1)
    rw [fold]
    exact spec

theorem foldl_max_greatest (hne : xs ≠ []) {bottom : L} (hbottom : ∀ x ∈ xs, bottom ≤ x) :
    xs.foldl max bottom ∈ xs ∧ ∀ x ∈ xs, x ≤ xs.foldl max bottom :=
  foldl_min_least (L := Lᵒᵈ) hne hbottom

end Extremes

variable {K : Type} [Field K]

def deviations (mean : K) (xs : List K) : K := (xs.map fun x => (x - mean) ^ 2).sum

/-- The variance of `count` samples; a single one does not vary. -/
def variance (count : ℕ) (mean : K) (xs : List K) : K :=
  if count = 1 then 0 else deviations mean xs / (count - 1)

theorem deviations_perm {xs ys : List K} (h : xs.Perm ys) (mean : K) :
    deviations mean xs = deviations mean ys := (h.map _).sum_eq

variable [LinearOrder K]

/-- What a list says about itself. -/
structure Summarizes (xs : List K) (least greatest mean var : K) : Prop where
  least_mem : least ∈ xs
  least_le : ∀ x ∈ xs, least ≤ x
  greatest_mem : greatest ∈ xs
  le_greatest : ∀ x ∈ xs, x ≤ greatest
  least_le_mean : least ≤ mean
  mean_le_greatest : mean ≤ greatest
  mean_mul : mean * xs.length = xs.sum
  var_eq : var = variance xs.length mean xs
  constant : var = 0 ↔ ∀ x ∈ xs, ∀ y ∈ xs, x = y

variable [IsStrictOrderedRing K] {xs : List K} {mean : K}

theorem squares_nonneg : ∀ d ∈ xs.map (fun x => (x - mean) ^ 2), 0 ≤ d := by
  intro d hd
  obtain ⟨x, _, rfl⟩ := List.mem_map.mp hd
  exact sq_nonneg _

theorem deviations_nonneg : 0 ≤ deviations mean xs := List.sum_nonneg squares_nonneg

theorem deviations_eq_zero_iff : deviations mean xs = 0 ↔ ∀ x ∈ xs, x = mean := by
  constructor
  · intro h x hx
    have zero := List.all_zero_of_le_zero_le_of_sum_eq_zero squares_nonneg h
      (List.mem_map_of_mem hx)
    exact sub_eq_zero.mp (sq_eq_zero_iff.mp zero)
  · intro h
    apply List.sum_eq_zero
    intro d hd
    obtain ⟨x, hx, rfl⟩ := List.mem_map.mp hd
    rw [h x hx, sub_self, zero_pow two_ne_zero]

/-- Every element is the mean as soon as all are equal. -/
theorem eq_mean_iff (hne : xs ≠ []) (hmean : mean * xs.length = xs.sum) :
    (∀ x ∈ xs, x = mean) ↔ ∀ x ∈ xs, ∀ y ∈ xs, x = y := by
  constructor
  · intro h x hx y hy
    rw [h x hx, h y hy]
  · intro h x hx
    have constant : xs = List.replicate xs.length x :=
      List.eq_replicate_iff.mpr ⟨rfl, fun y hy => h y hy x hx⟩
    have total : xs.sum = x * xs.length := by
      rw [constant, List.sum_replicate, List.length_replicate, nsmul_eq_mul, mul_comm]
    have some_there : (xs.length : K) ≠ 0 := Nat.cast_ne_zero.mpr (List.length_pos_of_ne_nil hne).ne'
    exact (mul_right_cancel₀ some_there (hmean.trans total)).symm

/-- But for a single sample the variance vanishes with the deviations only. -/
theorem variance_eq_zero_iff {count : ℕ} :
    variance count mean xs = 0 ↔ count = 1 ∨ ∀ x ∈ xs, x = mean := by
  unfold variance
  split_ifs with hone
  · exact iff_of_true rfl (.inl hone)
  · have divisor : (count : K) - 1 ≠ 0 := sub_ne_zero.mpr (Nat.cast_ne_one.mpr hone)
    rw [div_eq_zero_iff, or_iff_left divisor, deviations_eq_zero_iff, or_iff_right hone]

/-- Two counts give one variance only if there are no deviations. -/
theorem variance_count_ne {count other : ℕ} (hne : count ≠ other)
    (h : variance count mean xs = variance other mean xs) : ∀ x ∈ xs, x = mean := by
  rw [← deviations_eq_zero_iff]
  by_contra deviates
  unfold variance at h
  split_ifs at h with hone hother hother
  · exact hne (hone.trans hother.symm)
  · have divisor : (other : K) - 1 ≠ 0 := sub_ne_zero.mpr (Nat.cast_ne_one.mpr hother)
    exact div_ne_zero deviates divisor h.symm
  · have divisor : (count : K) - 1 ≠ 0 := sub_ne_zero.mpr (Nat.cast_ne_one.mpr hone)
    exact div_ne_zero deviates divisor h
  · rw [div_eq_mul_inv, div_eq_mul_inv] at h
    have divisors : (count : K) - 1 = other - 1 := inv_inj.mp (mul_left_cancel₀ deviates h)
    exact hne (Nat.cast_injective (sub_left_injective divisors))

section Summary
variable {bottom top : K}

theorem summarizes_length (hne : xs ≠ []) (htop : ∀ x ∈ xs, x ≤ top)
    (hbottom : ∀ x ∈ xs, bottom ≤ x) :
    Summarizes xs (xs.foldl min top) (xs.foldl max bottom) (xs.sum / xs.length)
      (variance xs.length (xs.sum / xs.length) xs) := by
  have positive : 0 < xs.length := List.length_pos_of_ne_nil hne
  have positive_cast : (0 : K) < xs.length := Nat.cast_pos.mpr positive
  have mean_mul : xs.sum / xs.length * xs.length = xs.sum := div_mul_cancel₀ _ positive_cast.ne'
  obtain ⟨least_mem, least_le⟩ := foldl_min_least hne htop
  obtain ⟨greatest_mem, le_greatest⟩ := foldl_max_greatest hne hbottom
  have below := List.card_nsmul_le_sum xs _ least_le
  have above := List.sum_le_card_nsmul xs _ le_greatest
  rw [nsmul_eq_mul, mul_comm] at below above
  refine ⟨least_mem, least_le, greatest_mem, le_greatest, (le_div_iff₀ positive_cast).mpr below,
    (div_le_iff₀ positive_cast).mpr above, mean_mul, rfl, ?_⟩
  rw [variance_eq_zero_iff, ← eq_mean_iff hne mean_mul]
  constructor
  · rintro (single | same)
    · obtain ⟨x, hx⟩ := List.length_eq_one_iff.mp single
      rw [hx]
      simp
    · exact same
  · exact .inr

/-- A wrong count is right only for a list of zeros. -/
theorem summarizes_iff (hne : xs ≠ []) (htop : ∀ x ∈ xs, x ≤ top) (hbottom : ∀ x ∈ xs, bottom ≤ x)
    {count : ℕ} (hcount : count ≠ 0) :
    Summarizes xs (xs.foldl min top) (xs.foldl max bottom) (xs.sum / count)
        (variance count (xs.sum / count) xs) ↔ count = xs.length ∨ ∀ x ∈ xs, x = 0 := by
  have count_cast : (count : K) ≠ 0 := Nat.cast_ne_zero.mpr hcount
  constructor
  · intro h
    by_cases hlength : count = xs.length
    · exact .inl hlength
    · right
      have counted : xs.sum / count * count = xs.sum := div_mul_cancel₀ _ count_cast
      have both : xs.sum / count * xs.length = xs.sum / count * count := h.mean_mul.trans counted.symm
      have mean_zero : xs.sum / count = 0 := by
        by_contra hmean
        exact hlength (Nat.cast_injective (mul_left_cancel₀ hmean both)).symm
      have same := variance_count_ne hlength h.var_eq
      rw [mean_zero] at same
      exact same
  · rintro (rfl | hzero)
    · exact summarizes_length hne htop hbottom
    · have sum_zero : xs.sum = 0 := List.sum_eq_zero hzero
      have variance_zero (n : ℕ) : variance n 0 xs = 0 := variance_eq_zero_iff.mpr (.inr hzero)
      have summary := summarizes_length hne htop hbottom
      rw [sum_zero, zero_div, variance_zero] at summary
      rw [sum_zero, zero_div, variance_zero]
      exact summary

end Summary

end ModbusCrawler.SampleStatistics
