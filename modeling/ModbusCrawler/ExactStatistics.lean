import ModbusCrawler.MeasReporter
import ModbusCrawler.SampleStatistics
import Mathlib.Data.Rat.Floor

set_option autoImplicit false

/-!
# Statistics in exact arithmetic

`calculate_stats` with rationals for doubles: nothing is rounded, and a square
root stays one.
-/
namespace ModbusCrawler.ExactStatistics
open ModbusTypes MeasReporter SampleStatistics

inductive Exact where
  | nan
  | rat (q : ℚ)
  | root (q : ℚ)
  deriving DecidableEq, Repr

namespace Exact

def lift (f : ℚ → ℚ → Exact) : Exact → Exact → Exact
  | .rat p, .rat q => f p q
  | _, _ => .nan

def square : Exact → Option ℚ
  | .nan => none
  | .rat q => some (q ^ 2)
  | .root q => some q

end Exact

/-- The largest finite double. -/
def doubleMax : ℚ := (2 ^ 53 - 1) * 2 ^ 971

instance : Doubles Exact where
  ofInt n := .rat n
  toInt
    | .rat q => q.num.tdiv q.den
    | _ => 0
  add := Exact.lift (fun p q => .rat (p + q))
  sub := Exact.lift (fun p q => .rat (p - q))
  mul := Exact.lift (fun p q => .rat (p * q))
  div := Exact.lift (fun p q => if q = 0 then .nan else .rat (p / q))
  less
    | .rat p, .rat q => decide (p < q)
    | _, _ => false
  isNaN x := x == .nan
  quietNaN := .nan
  max := .rat doubleMax
  lowest := .rat (-doubleMax)
  sqrt
    | .rat q => if q < 0 then .nan else .root q
    | _ => .nan
  round
    | .rat q => .rat (if q < 0 then -⌊1 / 2 - q⌋ else ⌊1 / 2 + q⌋)
    | x => x

/-- The value of a sample: NaN, or a rational that a double can reach. -/
abbrev Value := Option {q : ℚ // -doubleMax ≤ q ∧ q ≤ doubleMax}

def Value.exact : Value → Exact
  | none => .nan
  | some q => .rat q

def doubles (samples : List (ℤ × Value)) : Samples Exact :=
  samples.map (fun el => (el.1, el.2.exact))

def valid (samples : List (ℤ × Value)) : List ℚ :=
  samples.filterMap (fun el => el.2.map Subtype.val)

theorem valid_bounds {samples : List (ℤ × Value)} {x : ℚ} (hx : x ∈ valid samples) :
    -doubleMax ≤ x ∧ x ≤ doubleMax := by
  obtain ⟨el, _, hel⟩ := List.mem_filterMap.mp hx
  obtain ⟨q, _, rfl⟩ := Option.map_eq_some_iff.mp hel
  exact q.property

theorem sums_add_rat (sum lo hi q : ℚ) (count : UInt32) (time : ℤ) :
    Sums.add ⟨.rat sum, .rat lo, .rat hi, count⟩ (time, Exact.rat q) =
      ⟨.rat (sum + q), .rat (min lo q), .rat (max hi q), count + 1⟩ := by
  have least : (if decide (q < lo) then Exact.rat q else .rat lo) = .rat (min lo q) := by
    by_cases hlo : q < lo
    · rw [decide_eq_true hlo, if_pos rfl, min_eq_right hlo.le]
    · rw [decide_eq_false hlo, if_neg Bool.false_ne_true, min_eq_left (not_lt.mp hlo)]
  have greatest : (if decide (hi < q) then Exact.rat q else .rat hi) = .rat (max hi q) := by
    by_cases hhi : hi < q
    · rw [decide_eq_true hhi, if_pos rfl, max_eq_right hhi.le]
    · rw [decide_eq_false hhi, if_neg Bool.false_ne_true, max_eq_left (not_lt.mp hhi)]
  rw [← least, ← greatest]
  rfl

/-- The first loop is one loop over the valid samples. -/
theorem foldl_add (samples : List (ℤ × Value)) (sum lo hi : ℚ) (count : UInt32) :
    (doubles samples).foldl Sums.add ⟨.rat sum, .rat lo, .rat hi, count⟩ =
      ⟨.rat (sum + (valid samples).sum), .rat ((valid samples).foldl min lo),
        .rat ((valid samples).foldl max hi), count + UInt32.ofNat (valid samples).length⟩ := by
  induction samples generalizing sum lo hi count with
  | nil => simp [doubles, valid]
  | cons el samples ih =>
    obtain ⟨time, value⟩ := el
    cases value with
    | none => exact ih sum lo hi count
    | some q =>
      have counted : count + 1 + UInt32.ofNat (valid samples).length =
          count + UInt32.ofNat (valid ((time, some q) :: samples)).length := by
        rw [UInt32.add_assoc, UInt32.add_comm 1]
        exact congrArg (count + ·) (UInt32.ofNat_add _ 1).symm
      have step := ih (sum + q) (min lo q) (max hi q) (count + 1)
      rw [← sums_add_rat sum lo hi q count time, add_assoc, counted] at step
      exact step

theorem foldl_addSquare (samples : List (ℤ × Value)) (mean accum : ℚ) :
    (doubles samples).foldl (addSquare (.rat mean)) (.rat accum) =
      .rat (accum + deviations mean (valid samples)) := by
  induction samples generalizing accum with
  | nil => simp [doubles, valid, deviations]
  | cons el samples ih =>
    obtain ⟨time, value⟩ := el
    cases value with
    | none => exact ih accum
    | some q =>
      have square : deviations mean (valid ((time, some q) :: samples)) =
          (q - mean) * (q - mean) + deviations mean (valid samples) := by
        rw [← pow_two]
        rfl
      have step := ih (accum + (q - mean) * (q - mean))
      rw [add_assoc, ← square] at step
      exact step

/-- What `calculate_stats` returns when it has counted `count` valid samples. -/
def statsOf (count : ℕ) (xs : List ℚ) : Stats Exact :=
  if count = 0 then {} else
    { min := .rat (xs.foldl min doubleMax)
      max := .rat (xs.foldl max (-doubleMax))
      mean := .rat (xs.sum / count)
      stdev := if count = 1 then .rat 0 else .root (variance count (xs.sum / count) xs) }

theorem firstLoop (samples : List (ℤ × Value)) :
    (doubles samples).foldl Sums.add {} =
      ⟨.rat (valid samples).sum, .rat ((valid samples).foldl min doubleMax),
        .rat ((valid samples).foldl max (-doubleMax)), UInt32.ofNat (valid samples).length⟩ := by
  have loop := foldl_add samples 0 doubleMax (-doubleMax) 0
  rw [zero_add, UInt32.zero_add] at loop
  exact loop

theorem div_count (q : ℚ) {count : ℕ} (hcount : count ≠ 0) :
    Doubles.div (Exact.rat q) (Doubles.ofInt count) = .rat (q / count) := by
  have count_cast : ((count : ℤ) : ℚ) ≠ 0 := Int.cast_ne_zero.mpr (Int.natCast_ne_zero.mpr hcount)
  change (if ((count : ℤ) : ℚ) = 0 then Exact.nan else .rat (q / ((count : ℤ) : ℚ))) = _
  rw [if_neg count_cast, Int.cast_natCast]

theorem sqrt_rat {q : ℚ} (hq : 0 ≤ q) : Doubles.sqrt (Exact.rat q) = .root q :=
  if_neg (not_lt.mpr hq)

/-- The `if` of the standard deviation: its divisor is positive where it is used. -/
theorem stdev_eq (samples : List (ℤ × Value)) (mean : ℚ) {count : UInt32} (hcount : count ≠ 0) :
    (if count > 1 then
      Doubles.sqrt (Doubles.div ((doubles samples).foldl (addSquare (.rat mean)) (Doubles.ofInt 0))
        (Doubles.ofInt (count - 1).toNat))
    else Doubles.ofInt 0) =
      if count.toNat = 1 then Exact.rat 0 else .root (variance count.toNat mean (valid samples)) := by
  have loop := foldl_addSquare samples mean 0
  rw [zero_add] at loop
  have there : count.toNat ≠ 0 := fun h => hcount (UInt32.toNat_inj.mp h)
  by_cases hone : count.toNat = 1
  · have single : ¬ count > 1 := by
      rw [gt_iff_lt, UInt32.lt_iff_toNat_lt, hone]
      decide
    rw [if_neg single, if_pos hone]
    rfl
  · have several : count > 1 := by
      rw [gt_iff_lt, UInt32.lt_iff_toNat_lt]
      change 1 < count.toNat
      omega
    have rest : (count - 1).toNat = count.toNat - 1 :=
      UInt32.toNat_sub_of_le _ _ (UInt32.le_of_lt several)
    have positive : count.toNat - 1 ≠ 0 := by omega
    have divisor : ((count.toNat - 1 : ℕ) : ℚ) = count.toNat - 1 := by
      rw [Nat.cast_sub (by omega), Nat.cast_one]
    have loop_zero : (doubles samples).foldl (addSquare (.rat mean)) (Doubles.ofInt 0) =
        .rat (deviations mean (valid samples)) := loop
    have nonneg : 0 ≤ deviations mean (valid samples) / (count.toNat - 1 : ℕ) :=
      div_nonneg deviations_nonneg (Nat.cast_nonneg _)
    rw [if_pos several, if_neg hone, variance, if_neg hone, loop_zero, rest, div_count _ positive,
      sqrt_rat nonneg, divisor]

theorem calculateStats_valid (samples : List (ℤ × Value)) :
    calculateStats (doubles samples) =
      statsOf ((valid samples).length % 2 ^ 32) (valid samples) := by
  have counted : (UInt32.ofNat (valid samples).length).toNat = (valid samples).length % 2 ^ 32 :=
    UInt32.toNat_ofNat'
  unfold calculateStats statsOf
  rw [firstLoop, ← counted]
  generalize UInt32.ofNat (valid samples).length = count
  dsimp only
  by_cases hzero : count = 0
  · subst hzero
    rfl
  · have there : count.toNat ≠ 0 := fun h => hzero (UInt32.toNat_inj.mp h)
    rw [if_pos hzero, if_neg there, div_count _ there, stdev_eq samples _ hzero]

theorem statsOf_perm {xs ys : List ℚ} (h : xs.Perm ys) (count : ℕ) :
    statsOf count xs = statsOf count ys := by
  unfold statsOf variance
  rw [h.foldl_eq, h.foldl_eq, h.sum_eq, deviations_perm h]

/-- Equal values in any order and with any number of NaN in between give equal statistics. -/
theorem calculateStats_congr {samples other : List (ℤ × Value)}
    (h : (valid other).Perm (valid samples)) :
    calculateStats (doubles other) = calculateStats (doubles samples) := by
  rw [calculateStats_valid, calculateStats_valid, h.length_eq, statsOf_perm h]

theorem valid_insert (before after : List (ℤ × Value)) (time : ℤ) :
    valid (before ++ (time, none) :: after) = valid (before ++ after) := by
  unfold valid
  rw [List.filterMap_append, List.filterMap_append]
  rfl

/-- Four numbers that summarize the list; the deviation is compared by its square. -/
def Summary (stats : Stats Exact) (xs : List ℚ) : Prop :=
  ∃ least greatest mean var, stats.min = .rat least ∧ stats.max = .rat greatest ∧
    stats.mean = .rat mean ∧ stats.stdev.square = some var ∧ Summarizes xs least greatest mean var

/-- The statistics describe the valid samples and nothing else. -/
structure Describes (samples : List (ℤ × Value)) : Prop where
  empty : valid samples = [] → calculateStats (doubles samples) = ⟨.nan, .nan, .nan, .nan⟩
  summary : valid samples ≠ [] → Summary (calculateStats (doubles samples)) (valid samples)
  permuted : ∀ other : List (ℤ × Value), other.Perm samples →
    calculateStats (doubles other) = calculateStats (doubles samples)
  inserted : ∀ before after time, samples = before ++ after →
    calculateStats (doubles (before ++ (time, none) :: after)) = calculateStats (doubles samples)
  removed : ∀ before after time, samples = before ++ (time, none) :: after →
    calculateStats (doubles (before ++ after)) = calculateStats (doubles samples)

theorem stdev_square (count : ℕ) (mean : ℚ) (xs : List ℚ) :
    (if count = 1 then Exact.rat 0 else .root (variance count mean xs)).square =
      some (variance count mean xs) := by
  unfold variance
  split_ifs
  · rfl
  · rfl

theorem summary_iff {count : ℕ} {xs : List ℚ} (hne : xs ≠ [])
    (hbounds : ∀ x ∈ xs, -doubleMax ≤ x ∧ x ≤ doubleMax) :
    Summary (statsOf count xs) xs ↔ count ≠ 0 ∧ (count = xs.length ∨ ∀ x ∈ xs, x = 0) := by
  unfold statsOf
  by_cases hcount : count = 0
  · rw [if_pos hcount]
    constructor
    · rintro ⟨least, _, _, _, hleast, _⟩
      cases hleast
    · intro h
      exact absurd hcount h.1
  · rw [if_neg hcount, and_iff_right hcount, ← summarizes_iff hne (fun x hx => (hbounds x hx).2)
      (fun x hx => (hbounds x hx).1) hcount]
    constructor
    · rintro ⟨_, _, _, _, hleast, hgreatest, hmean, hvar, summary⟩
      cases hleast
      cases hgreatest
      cases hmean
      cases hvar.symm.trans (stdev_square count _ xs)
      exact summary
    · intro summary
      exact ⟨_, _, _, _, rfl, rfl, rfl, stdev_square count _ xs, summary⟩

/-- Only the summary can go wrong, through the count. -/
theorem describes_iff (samples : List (ℤ × Value)) :
    Describes samples ↔ (valid samples ≠ [] → (valid samples).length % 2 ^ 32 ≠ 0 ∧
      ((valid samples).length % 2 ^ 32 = (valid samples).length ∨ ∀ x ∈ valid samples, x = 0)) := by
  constructor
  · intro h hne
    have summary := h.summary hne
    rw [calculateStats_valid] at summary
    exact (summary_iff hne fun _ => valid_bounds).mp summary
  · intro h
    refine ⟨?_, ?_, ?_, ?_, ?_⟩
    · intro hempty
      rw [calculateStats_valid, hempty]
      rfl
    · intro hne
      rw [calculateStats_valid]
      exact (summary_iff hne fun _ => valid_bounds).mpr (h hne)
    · intro other hperm
      exact calculateStats_congr (hperm.filterMap _)
    · rintro before after time rfl
      apply calculateStats_congr
      rw [valid_insert]
    · rintro before after time rfl
      apply calculateStats_congr
      rw [valid_insert]

/-- The counter of the valid samples has 32 bits. -/
theorem calculateStats_describes_iff (samples : List (ℤ × Value)) :
    Describes samples ↔ (valid samples).length < 2 ^ 32 ∨
      ((valid samples).length % 2 ^ 32 ≠ 0 ∧ ∀ x ∈ valid samples, x = 0) := by
  rw [describes_iff]
  constructor
  · intro h
    by_cases hempty : valid samples = []
    · left
      rw [hempty]
      decide
    · obtain ⟨hcount, hlength | hzero⟩ := h hempty
      · left
        rw [← hlength]
        exact Nat.mod_lt _ (by decide)
      · exact .inr ⟨hcount, hzero⟩
  · rintro (hlength | ⟨hcount, hzero⟩) hne
    · have positive := List.length_pos_of_ne_nil hne
      rw [Nat.mod_eq_of_lt hlength]
      exact ⟨positive.ne', .inl rfl⟩
    · exact ⟨hcount, .inr hzero⟩

theorem one_le_doubleMax : 1 ≤ doubleMax :=
  one_le_mul_of_one_le_of_one_le (by norm_num) (one_le_pow₀ one_le_two)

def one : Value := some ⟨1, by linarith [one_le_doubleMax], one_le_doubleMax⟩

/-- As many samples as the counter has values are counted as none. -/
theorem wrapped_not_described :
    calculateStats (doubles (List.replicate (2 ^ 32) (0, one))) = ⟨.nan, .nan, .nan, .nan⟩ ∧
    ¬ Describes (List.replicate (2 ^ 32) (0, one)) := by
  have all (n : ℕ) : valid (List.replicate n (0, one)) = List.replicate n 1 := by
    unfold valid
    rw [List.filterMap_replicate]
    rfl
  have length : (valid (List.replicate (2 ^ 32) (0, one))).length = 2 ^ 32 := by
    rw [all, List.length_replicate]
  refine ⟨?_, fun h => ?_⟩
  · rw [calculateStats_valid, length, Nat.mod_self]
    rfl
  · have there : valid (List.replicate (2 ^ 32) (0, one)) ≠ [] := by
      rw [← List.length_pos_iff_ne_nil, length]
      decide
    have counted := ((describes_iff _).mp h there).1
    rw [length, Nat.mod_self] at counted
    exact counted rfl

end ModbusCrawler.ExactStatistics
