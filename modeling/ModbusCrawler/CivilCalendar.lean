import Mathlib.Algebra.BigOperators.Group.List.Basic
import Mathlib.Algebra.Ring.Int.Defs
import Mathlib.Algebra.Ring.Nat
import Mathlib.Data.Int.Notation
import Mathlib.Tactic.Common

set_option autoImplicit false

/-!
# The civil calendar

Days and seconds since the start of 1970 as calendar fields. Years and months are
found by walking over the lengths of a 400-year cycle and of a year.
-/
namespace ModbusCrawler.CivilCalendar

/-- The index of the block a position falls into, and the position inside the block. -/
def locate : List ℕ → ℕ → ℕ × ℕ
  | [], n => (0, n)
  | len :: rest, n => if n < len then (0, n) else
    ((locate rest (n - len)).1 + 1, (locate rest (n - len)).2)

theorem locate_sum (lengths : List ℕ) (n : ℕ) :
    (lengths.take (locate lengths n).1).sum + (locate lengths n).2 = n := by
  induction lengths generalizing n with
  | nil => simp [locate]
  | cons len rest ih =>
    rw [locate]
    split_ifs with h
    · simp
    · have := ih (n - len)
      rw [List.take_succ_cons, List.sum_cons]
      omega

theorem locate_inside (lengths : List ℕ) (n : ℕ) (h : n < lengths.sum) :
    ∃ hi : (locate lengths n).1 < lengths.length,
      (locate lengths n).2 < lengths[(locate lengths n).1] := by
  induction lengths generalizing n with
  | nil => simp at h
  | cons len rest ih =>
    rw [List.sum_cons] at h
    unfold locate
    by_cases hn : n < len
    · simp [hn]
    · obtain ⟨hi, hr⟩ := ih (n - len) (by omega)
      simp only [hn, if_false]
      exact ⟨Nat.succ_lt_succ hi, hr⟩

/-- A later position lies in a later block, or further in the same one. -/
theorem locate_lt (lengths : List ℕ) {n m : ℕ} (h : n < m) :
    (locate lengths n).1 < (locate lengths m).1 ∨
      (locate lengths n).1 = (locate lengths m).1 ∧ (locate lengths n).2 < (locate lengths m).2 := by
  induction lengths generalizing n m with
  | nil => exact .inr ⟨rfl, h⟩
  | cons len rest ih =>
    unfold locate
    by_cases hm : m < len
    · rw [if_pos hm, if_pos (by omega)]
      exact .inr ⟨rfl, h⟩
    · rw [if_neg hm]
      by_cases hn : n < len
      · rw [if_pos hn]
        exact .inl (Nat.succ_pos _)
      · rw [if_neg hn]
        have later := ih (show n - len < m - len by omega)
        dsimp only
        omega

def leap (year : ℤ) : Bool := year % 4 = 0 ∧ (year % 100 ≠ 0 ∨ year % 400 = 0)

def monthLengths (leap : Bool) : List ℕ :=
  [31, if leap then 29 else 28, 31, 30, 31, 30, 31, 31, 30, 31, 30, 31]

/-- The years of a cycle; the first one is a multiple of 400. -/
def yearLengths : List ℕ :=
  (List.range 400).map (fun year : ℕ => (monthLengths (leap (year : ℤ))).sum)

def cycleDays : ℕ := 146097

/-- From 1970-01-01 to 2000-01-01. -/
def epochDays : ℤ := 10957

structure Date where
  year : ℤ
  /-- Counted from 0. -/
  month : ℕ
  /-- Counted from 1. -/
  day : ℕ
  deriving DecidableEq, Repr

/-- The year of its cycle a day falls into, and the day of that year. -/
def cycleYear (days : ℤ) : ℕ × ℕ :=
  locate yearLengths ((days - epochDays) % cycleDays).toNat

def yearMonth (days : ℤ) : ℕ × ℕ :=
  locate (monthLengths (leap (cycleYear days).1)) (cycleYear days).2

def ofDays (days : ℤ) : Date where
  year := 2000 + 400 * ((days - epochDays) / cycleDays) + (cycleYear days).1
  month := (yearMonth days).1
  day := (yearMonth days).2 + 1

def toDays (date : Date) : ℤ :=
  let ofCycle := ((date.year - 2000) % 400).toNat
  epochDays + cycleDays * ((date.year - 2000) / 400) +
    ((yearLengths.take ofCycle).sum + ((monthLengths (leap ofCycle)).take date.month).sum +
      (date.day - 1) : ℕ)

theorem yearLengths_sum : yearLengths.sum = cycleDays := by decide +kernel

theorem yearLengths_getElem (year : ℕ) (h : year < yearLengths.length) :
    yearLengths[year] = (monthLengths (leap year)).sum := by
  simp [yearLengths]

theorem monthLengths_le (leap : Bool) : ∀ len ∈ monthLengths leap, len ≤ 31 := by
  cases leap <;> decide

theorem cycleYear_inside (days : ℤ) : (cycleYear days).1 < 400 ∧
    (cycleYear days).2 < (monthLengths (leap (cycleYear days).1)).sum := by
  have small : ((days - epochDays) % cycleDays).toNat < yearLengths.sum := by
    rw [yearLengths_sum]
    unfold cycleDays
    omega
  have count : yearLengths.length = 400 := by rw [yearLengths, List.length_map, List.length_range]
  obtain ⟨hi, hr⟩ := locate_inside yearLengths _ small
  rw [yearLengths_getElem] at hr
  rw [count] at hi
  exact ⟨hi, hr⟩

theorem ofDays_month_day (days : ℤ) :
    (ofDays days).month < 12 ∧ 1 ≤ (ofDays days).day ∧ (ofDays days).day ≤ 31 := by
  obtain ⟨hi, hday⟩ := locate_inside _ _ (cycleYear_inside days).2
  have le := monthLengths_le _ _ (List.getElem_mem hi)
  exact ⟨hi, Nat.succ_pos _, Nat.lt_of_lt_of_le hday le⟩

theorem toDays_ofDays (days : ℤ) : toDays (ofDays days) = days := by
  obtain ⟨hlt, _⟩ := cycleYear_inside days
  have years := locate_sum yearLengths ((days - epochDays) % cycleDays).toNat
  have months := locate_sum (monthLengths (leap (cycleYear days).1)) (cycleYear days).2
  rw [← cycleYear] at years
  rw [← yearMonth] at months
  have cycle : ((ofDays days).year - 2000) / 400 = (days - epochDays) / cycleDays := by
    change (2000 + 400 * ((days - epochDays) / cycleDays) + (cycleYear days).1 - 2000) / 400 = _
    omega
  have ofCycle : (((ofDays days).year - 2000) % 400).toNat = (cycleYear days).1 := by
    change ((2000 + 400 * ((days - epochDays) / cycleDays) + (cycleYear days).1 - 2000) %
      400).toNat = _
    omega
  have split := Int.mul_ediv_add_emod (days - epochDays) cycleDays
  have nonneg : 0 ≤ (days - epochDays) % cycleDays := Int.emod_nonneg _ (by decide)
  unfold toDays
  dsimp only
  rw [ofCycle, cycle]
  change epochDays + cycleDays * ((days - epochDays) / cycleDays) +
    (((yearLengths.take (cycleYear days).1).sum +
      ((monthLengths (leap (cycleYear days).1)).take (yearMonth days).1).sum +
        ((yearMonth days).2 + 1 - 1) : ℕ) : ℤ) = days
  omega

theorem ofDays_injective {a b : ℤ} (h : ofDays a = ofDays b) : a = b := by
  rw [← toDays_ofDays a, h, toDays_ofDays]

theorem ofDays_year_ge {days : ℤ} (h : epochDays ≤ days) : 2000 ≤ (ofDays days).year := by
  change 2000 ≤ 2000 + 400 * ((days - epochDays) / cycleDays) + ((cycleYear days).1 : ℤ)
  have : 0 ≤ (days - epochDays) / cycleDays := Int.ediv_nonneg (by omega) (by decide)
  omega

def Date.Before (a b : Date) : Prop :=
  a.year < b.year ∨ a.year = b.year ∧ (a.month < b.month ∨ a.month = b.month ∧ a.day < b.day)

/-- The calendar runs forward. -/
theorem ofDays_before {a b : ℤ} (h : a < b) : (ofDays a).Before (ofDays b) := by
  have yearA : (ofDays a).year = 2000 + 400 * ((a - epochDays) / cycleDays) + (cycleYear a).1 := rfl
  have yearB : (ofDays b).year = 2000 + 400 * ((b - epochDays) / cycleDays) + (cycleYear b).1 := rfl
  obtain ⟨hcycle, _⟩ := cycleYear_inside a
  have cycles : (a - epochDays) / cycleDays ≤ (b - epochDays) / cycleDays :=
    Int.ediv_le_ediv (by decide) (by omega)
  by_cases hsame : (a - epochDays) / cycleDays = (b - epochDays) / cycleDays
  · have splitA := Int.mul_ediv_add_emod (a - epochDays) cycleDays
    have splitB := Int.mul_ediv_add_emod (b - epochDays) cycleDays
    have nonneg : 0 ≤ (a - epochDays) % cycleDays := Int.emod_nonneg _ (by decide)
    rw [hsame] at splitA
    have later : ((a - epochDays) % cycleDays).toNat < ((b - epochDays) % cycleDays).toNat := by omega
    rcases locate_lt yearLengths later with hyear | ⟨hyear, hday⟩
    · have ofCycle : (cycleYear a).1 < (cycleYear b).1 := hyear
      left
      omega
    · have ofCycle : (cycleYear a).1 = (cycleYear b).1 := hyear
      refine .inr ⟨by omega, ?_⟩
      rcases locate_lt (monthLengths (leap (cycleYear a).1)) hday with hmonth | ⟨hmonth, hrest⟩
      · left
        change (yearMonth a).1 < (yearMonth b).1
        unfold yearMonth
        rw [← ofCycle]
        exact hmonth
      · refine .inr ⟨?_, ?_⟩
        · change (yearMonth a).1 = (yearMonth b).1
          unfold yearMonth
          rw [← ofCycle]
          exact hmonth
        · change (yearMonth a).2 + 1 < (yearMonth b).2 + 1
          unfold yearMonth
          rw [← ofCycle]
          exact Nat.succ_lt_succ hrest
  · left
    omega

example : ofDays 0 = ⟨1970, 0, 1⟩ := by decide +kernel

example : ofDays 19782 = ⟨2024, 1, 29⟩ := by decide +kernel

end ModbusCrawler.CivilCalendar
