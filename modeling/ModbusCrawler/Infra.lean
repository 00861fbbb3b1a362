import ModbusCrawler.CivilCalendar

set_option autoImplicit false

/-!
# Instants and their compact names: `crawler/infra.hpp`

A `when_t` is its number of seconds since the epoch.
-/
namespace ModbusCrawler.Infra
open CivilCalendar

structure Tm where
  tmMin : ℤ
  tmHour : ℤ
  tmMday : ℤ
  tmMon : ℤ
  tmYear : ℤ
  deriving DecidableEq, Repr

def gmtime (tt : ℤ) : Tm where
  tmMin := tt % 3600 / 60
  tmHour := tt % 86400 / 3600
  tmMday := (ofDays (tt / 86400)).day
  tmMon := (ofDays (tt / 86400)).month
  tmYear := (ofDays (tt / 86400)).year - 1900

/-- `std::setfill('0') << std::setw(2) << n`. -/
def setw2 (n : ℤ) : List Char :=
  List.replicate (2 - (toString n).toList.length) '0' ++ (toString n).toList

def toCompactString (now : ℤ) : String :=
  let tm := gmtime now
  String.ofList (setw2 (tm.tmYear - 100) ++ setw2 (tm.tmMon + 1) ++ setw2 tm.tmMday ++
    setw2 tm.tmHour ++ setw2 tm.tmMin)

theorem toList_toString (n : ℕ) : (toString (n : ℤ)).toList = Nat.toDigits 10 n :=
  Nat.toList_repr

theorem setw2_value (n : ℕ) : Nat.ofDigitChars 10 (setw2 n) 0 = n := by
  rw [setw2, Nat.ofDigitChars_append, Nat.ofDigitChars_replicate_zero, Nat.mul_zero,
    toList_toString, Nat.ofDigitChars_toDigits (by decide) (by decide)]

theorem setw2_length {n : ℕ} (h : n < 100) : (setw2 n).length = 2 := by
  have le : (Nat.toDigits 10 n).length ≤ 2 :=
    (Nat.length_toDigits_le_iff (by decide) (by decide)).mpr h
  rw [setw2, toList_toString, List.length_append, List.length_replicate]
  omega

theorem value_append_setw2 (digits : List Char) {n : ℕ} (h : n < 100) :
    Nat.ofDigitChars 10 (digits ++ setw2 n) 0 = 100 * Nat.ofDigitChars 10 digits 0 + n := by
  rw [Nat.ofDigitChars_append, Nat.ofDigitChars_eq_ofDigitChars_zero, setw2_length h, setw2_value]

/-- 2000-01-01 00:00. -/
def year2000 : ℤ := 946684800

/-- The fields of an instant from 2000 on, as the number its name spells. -/
theorem toCompactString_value {now : ℤ} (h : year2000 ≤ now) :
    ∃ year month day hour minute : ℕ, month < 12 ∧ day ≤ 31 ∧ hour < 24 ∧ minute < 60 ∧
      ofDays (now / 86400) = ⟨2000 + year, month, day⟩ ∧ now % 86400 / 3600 = hour ∧
      now % 3600 / 60 = minute ∧
      Nat.ofDigitChars 10 (toCompactString now).toList 0 =
        100 * (100 * (100 * (100 * year + (month + 1)) + day) + hour) + minute := by
  obtain ⟨hmonth, _, hday⟩ := ofDays_month_day (now / 86400)
  have hyear : 2000 ≤ (ofDays (now / 86400)).year := by
    apply ofDays_year_ge
    unfold year2000 at h
    unfold epochDays
    omega
  obtain ⟨year, hyear⟩ := Int.eq_ofNat_of_zero_le (show 0 ≤ (ofDays (now / 86400)).year - 2000 by omega)
  obtain ⟨hour, hhour⟩ := Int.eq_ofNat_of_zero_le (show 0 ≤ now % 86400 / 3600 by omega)
  obtain ⟨minute, hminute⟩ := Int.eq_ofNat_of_zero_le (show 0 ≤ now % 3600 / 60 by omega)
  have full : (ofDays (now / 86400)).year = 2000 + year := by omega
  refine ⟨year, (ofDays (now / 86400)).month, (ofDays (now / 86400)).day, hour, minute, hmonth,
    hday, by omega, by omega, by rw [← full], hhour, hminute, ?_⟩
  have name : (toCompactString now).toList = setw2 year ++
      setw2 ((ofDays (now / 86400)).month + 1 : ℕ) ++ setw2 (ofDays (now / 86400)).day ++
      setw2 hour ++ setw2 minute := by
    have short : (ofDays (now / 86400)).year - 1900 - 100 = year := by omega
    rw [toCompactString, String.toList_ofList]
    change setw2 ((ofDays (now / 86400)).year - 1900 - 100) ++ _ ++ _ ++
      setw2 (now % 86400 / 3600) ++ setw2 (now % 3600 / 60) = _
    rw [short, hhour, hminute]
    rfl
  rw [name, value_append_setw2 _ (by omega), value_append_setw2 _ (by omega),
    value_append_setw2 _ (by omega), value_append_setw2 _ (by omega), setw2_value]

/-- Five fields side by side, the last four of two digits. -/
theorem fields_unique {y mo d h mi y' mo' d' h' mi' : ℕ}
    (bounds : mo < 12 ∧ d ≤ 31 ∧ h < 24 ∧ mi < 60) (bounds' : mo' < 12 ∧ d' ≤ 31 ∧ h' < 24 ∧ mi' < 60)
    (value : 100 * (100 * (100 * (100 * y + (mo + 1)) + d) + h) + mi =
      100 * (100 * (100 * (100 * y' + (mo' + 1)) + d') + h') + mi') :
    y = y' ∧ mo = mo' ∧ d = d' ∧ h = h' ∧ mi = mi' := by omega

/-- Names have a resolution of one minute. -/
theorem toCompactString_eq_iff {a b : ℤ} (ha : year2000 ≤ a) (hb : year2000 ≤ b) :
    toCompactString a = toCompactString b ↔ a / 60 = b / 60 := by
  constructor
  · intro h
    obtain ⟨y, mo, d, hr, mi, hmo, hd, hhr, hmi, date, hour, minute, value⟩ :=
      toCompactString_value ha
    obtain ⟨y', mo', d', hr', mi', hmo', hd', hhr', hmi', date', hour', minute', value'⟩ :=
      toCompactString_value hb
    rw [h, value'] at value
    obtain ⟨rfl, rfl, rfl, rfl, rfl⟩ :=
      fields_unique ⟨hmo', hd', hhr', hmi'⟩ ⟨hmo, hd, hhr, hmi⟩ value
    have days : a / 86400 = b / 86400 := ofDays_injective (date.trans date'.symm)
    have hours : a % 86400 / 3600 = b % 86400 / 3600 := hour.trans hour'.symm
    have minutes : a % 3600 / 60 = b % 3600 / 60 := minute.trans minute'.symm
    clear date date' hour hour' minute minute' value value' ha hb h
    omega
  · intro h
    have days : a / 86400 = b / 86400 := by omega
    have hours : a % 86400 / 3600 = b % 86400 / 3600 := by omega
    have minutes : a % 3600 / 60 = b % 3600 / 60 := by omega
    have same : gmtime a = gmtime b := by
      unfold gmtime
      rw [days, hours, minutes]
    unfold toCompactString
    rw [same]

example : toCompactString 1709210096 = "2402291234" := by decide +kernel

end ModbusCrawler.Infra
