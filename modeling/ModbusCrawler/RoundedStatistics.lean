import ModbusCrawler.DecimalRounding
import ModbusCrawler.ExactStatistics

set_option autoImplicit false

/-!
# The statistics that a report prints

They are rounded to three digits. In exact arithmetic they keep their order, and none
is further than half a thousandth from what it stands for.
-/
namespace ModbusCrawler.RoundedStatistics
open ModbusTypes MeasReporter SampleStatistics ExactStatistics DecimalRounding

theorem round_rat (q : ℚ) : Doubles.round (Exact.rat q) = .rat (roundAway q) := by
  change Exact.rat (if q < 0 then _ else _) = _
  unfold roundAway
  split_ifs
  · rw [Int.cast_neg]
  · rfl

theorem fixedDigits_rat (q : ℚ) (digits : ℕ) :
    fixedDigits (Exact.rat q) digits = .rat (fixed digits q) := by
  have unit : ((10 ^ digits : ℤ) : ℚ) = 10 ^ digits := by push_cast; rfl
  have nonzero : (10 : ℚ) ^ digits ≠ 0 := by positivity
  change Doubles.div (Doubles.round (Exact.rat (q * ((10 ^ digits : ℤ) : ℚ))))
    (Exact.rat ((10 ^ digits : ℤ) : ℚ)) = _
  rw [round_rat, unit]
  exact if_neg nonzero

/-- A printed number, and the one that it stands for. -/
structure Rounds (shown q : ℚ) : Prop where
  near : |q - shown| ≤ 1 / 2000
  exact : (∃ n : ℤ, q * 1000 = n) → shown = q

theorem fixed_rounds (q : ℚ) : Rounds (fixed 3 q) q := by
  constructor
  · have near := abs_sub_fixed 3 q
    norm_num at near ⊢
    exact near
  · rintro ⟨n, hn⟩
    refine fixed_exact (n := n) ?_
    norm_num
    exact hn

/-- The least, the middle and the greatest of three printed numbers, next to a list. -/
structure Printed (xs : List ℚ) (low middle high : ℚ) : Prop where
  ordered : low ≤ middle ∧ middle ≤ high
  stands : ∃ least greatest mean var, Summarizes xs least greatest mean var ∧
    Rounds low least ∧ Rounds middle mean ∧ Rounds high greatest

theorem printed_fixed {xs : List ℚ} {least greatest mean var : ℚ}
    (h : Summarizes xs least greatest mean var) :
    Printed xs (fixed 3 least) (fixed 3 mean) (fixed 3 greatest) where
  ordered := ⟨fixed_mono 3 h.least_le_mean, fixed_mono 3 h.mean_le_greatest⟩
  stands := ⟨least, greatest, mean, var, h, fixed_rounds least, fixed_rounds mean,
    fixed_rounds greatest⟩

/-- Unless the counter of the valid samples wraps, a report prints their minimum, their mean and
    their maximum to three digits, in this order. -/
theorem report_prints {samples : List (ℤ × Value)} (hvalid : valid samples ≠ [])
    (hcount : (valid samples).length < 2 ^ 32) {data : Data Exact}
    (hsamples : data.samples = doubles samples) (reportRawSamples : Bool) :
    ∃ low middle high stdev, (data.report reportRawSamples).statistics =
        some ⟨.rat low, .rat high, .rat middle, stdev⟩ ∧
      Printed (valid samples) low middle high := by
  have there : data.samples ≠ [] := by
    rw [hsamples]
    intro hnil
    rw [List.map_eq_nil_iff.mp hnil] at hvalid
    exact hvalid rfl
  have counted : calculateStats (doubles samples) =
      statsOf (valid samples).length (valid samples) := by
    rw [calculateStats_valid, Nat.mod_eq_of_lt hcount]
  have summary : Summary (calculateStats (doubles samples)) (valid samples) := by
    rw [counted]
    exact (summary_iff hvalid fun _ => valid_bounds).mpr
      ⟨(List.length_pos_of_ne_nil hvalid).ne', .inl rfl⟩
  obtain ⟨least, greatest, mean, var, hmin, hmax, hmean, _, exact⟩ := summary
  refine ⟨fixed 3 least, fixed 3 mean, fixed 3 greatest,
    fixedDigits (calculateStats data.samples).stdev 3, ?_, printed_fixed exact⟩
  rw [hsamples] at there ⊢
  rw [← fixedDigits_rat, ← fixedDigits_rat, ← fixedDigits_rat, ← hmin, ← hmean, ← hmax, ← hsamples]
  exact if_pos (hsamples ▸ there)

def nought : Value := some ⟨0, by linarith [one_le_doubleMax], by linarith [one_le_doubleMax]⟩

def threeSamples : List (ℤ × Value) := [(0, nought), (5, none), (10, one), (15, one)]

/-- Of 0, 1 and 1 the ends are printed as they are, and two thirds is rounded. -/
theorem report_prints_three : ∃ middle stdev,
    (({ samples := doubles threeSamples } : Data Exact).report false).statistics =
        some ⟨.rat 0, .rat 1, .rat middle, stdev⟩ ∧ |2 / 3 - middle| ≤ 1 / 2000 := by
  have three : valid threeSamples = [0, 1, 1] := rfl
  have some : valid threeSamples ≠ [] := by
    rw [three]
    exact List.cons_ne_nil _ _
  have few : (valid threeSamples).length < 2 ^ 32 := by
    rw [three]
    decide
  obtain ⟨low, middle, high, stdev, hstatistics, _, least, greatest, mean, _, summary, hlow, hmiddle,
      hhigh⟩ := report_prints some few
    (show ({ samples := doubles threeSamples } : Data Exact).samples = doubles threeSamples from rfl)
    false
  rw [three] at summary
  have least_eq : least = 0 := by
    have below := summary.least_le 0 (by simp)
    have member := summary.least_mem
    simp only [List.mem_cons, List.not_mem_nil, or_false] at member
    rcases member with rfl | rfl | rfl
    · rfl
    · linarith
    · linarith
  have greatest_eq : greatest = 1 := by
    have above := summary.le_greatest 1 (by simp)
    have member := summary.greatest_mem
    simp only [List.mem_cons, List.not_mem_nil, or_false] at member
    rcases member with rfl | rfl | rfl
    · linarith
    · rfl
    · rfl
  have mean_eq : mean = 2 / 3 := by
    have total := summary.mean_mul
    norm_num at total
    linarith
  subst least_eq greatest_eq mean_eq
  obtain rfl : low = 0 := hlow.exact ⟨0, by norm_num⟩
  obtain rfl : high = 1 := hhigh.exact ⟨1000, by norm_num⟩
  exact ⟨middle, stdev, hstatistics, hmiddle.near⟩

end ModbusCrawler.RoundedStatistics
