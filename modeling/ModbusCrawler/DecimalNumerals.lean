import ModbusCrawler.NumeralGrammar

set_option autoImplicit false

/-!
# The numerals of base 10

What `std::stoi` reads: no prefix selects another base, and what follows the
digits is left alone. Every printed integer is such a numeral.
-/
namespace ModbusCrawler.DecimalNumerals
open CNumerals NumeralGrammar

/-- White space, a sign, digits, and what no longer continues them. -/
def Numeral (s : List Char) (negative : Bool) (m : ℕ) : Prop :=
  ∃ spaces sign digits rest, s = spaces ++ sign ++ digits ++ rest ∧
    (∀ c ∈ spaces, isSpace c = true) ∧ Sign negative sign ∧ digits ≠ [] ∧ AllDigits 10 digits ∧
    (∀ c ∈ rest.head?, isDigit 10 c = false) ∧ m = digitsValue 10 digits

theorem digit_not_space {c : Char} (h : isDigit 10 c = true) : isSpace c = false := by
  have digit := digit_range h
  unfold isSpace
  simp only [Bool.or_eq_false_iff, decide_eq_false_iff_not, Bool.and_eq_false_iff]
  omega

theorem scan_ten (s : List Char) : scan 10 s =
    let signed := scanSign (s.dropWhile isSpace)
    let digits := signed.2.takeWhile (isDigit 10)
    if digits = [] then none else some (signed.1, digitsValue 10 digits) := rfl

theorem scan_numeral {s : List Char} {negative : Bool} {m : ℕ} (h : Numeral s negative m) :
    scan 10 s = some (negative, m) := by
  obtain ⟨spaces, sign, digits, rest, rfl, hspaces, hsign, hne, hdigits, hrest, rfl⟩ := h
  obtain ⟨c, tail, rfl⟩ := List.exists_cons_of_ne_nil hne
  have hc := hdigits c (by simp)
  have head : ∃ d more, c :: tail ++ rest = d :: more ∧ isDigit 10 d = true := ⟨c, tail ++ rest, rfl, hc⟩
  have start : ∃ d more, sign ++ (c :: tail ++ rest) = d :: more ∧ isSpace d = false := by
    cases hsign with
    | absent => exact ⟨c, tail ++ rest, rfl, digit_not_space hc⟩
    | plus => exact ⟨'+', _, rfl, rfl⟩
    | minus => exact ⟨'-', _, rfl, rfl⟩
  have run : (c :: tail ++ rest).takeWhile (isDigit 10) = c :: tail := by
    rw [List.takeWhile_append_of_pos hdigits]
    cases rest with
    | nil => rw [List.takeWhile_nil, List.append_nil]
    | cons d more => rw [List.takeWhile_cons_of_neg (by simp [hrest d rfl]), List.append_nil]
  rw [scan_ten, List.append_assoc, List.append_assoc, dropWhile_spaces hspaces start,
    scanSign_sign hsign head]
  dsimp only
  rw [run, if_neg hne]

theorem numeral_of_scan {s : List Char} {negative : Bool} {m : ℕ}
    (h : scan 10 s = some (negative, m)) : Numeral s negative m := by
  have signed (body : List Char) : ∃ sign, Sign (scanSign body).1 sign ∧ body = sign ++ (scanSign body).2 := by
    unfold scanSign
    split
    · exact ⟨['-'], .minus, rfl⟩
    · exact ⟨['+'], .plus, rfl⟩
    · exact ⟨[], .absent, rfl⟩
  obtain ⟨sign, hsign, hbody⟩ := signed (s.dropWhile isSpace)
  rw [scan_ten] at h
  dsimp only at h
  split_ifs at h with hne
  obtain ⟨rfl, rfl⟩ := Prod.mk.inj (Option.some.inj h)
  refine ⟨s.takeWhile isSpace, sign, _, (scanSign (s.dropWhile isSpace)).2.dropWhile (isDigit 10), ?_,
    fun c hc => List.mem_takeWhile_imp hc, hsign, hne, fun c hc => List.mem_takeWhile_imp hc, ?_, rfl⟩
  · rw [List.append_assoc, List.append_assoc, List.takeWhile_append_dropWhile, ← hbody,
      List.takeWhile_append_dropWhile]
  · intro c hc
    have := List.head?_dropWhile_not (isDigit 10) (scanSign (s.dropWhile isSpace)).2
    rw [Option.mem_def.mp hc] at this
    simpa using this

theorem numeral_iff {s : List Char} {negative : Bool} {m : ℕ} :
    Numeral s negative m ↔ scan 10 s = some (negative, m) := ⟨scan_numeral, numeral_of_scan⟩

theorem not_nul {spaces sign digits : List Char} {negative : Bool}
    (hspaces : ∀ c ∈ spaces, isSpace c = true) (hsign : Sign negative sign)
    (hdigits : AllDigits 10 digits) : ∀ c ∈ spaces ++ sign ++ digits, decide (c.toNat ≠ 0) = true := by
  intro c hc
  rw [decide_eq_true_eq]
  intro nul
  rcases List.mem_append.mp hc with hfront | hdigit
  · rcases List.mem_append.mp hfront with hspace | hmem
    · have space := hspaces c hspace
      rw [isSpace, nul] at space
      cases space
    · cases hsign with
      | absent => cases hmem
      | plus | minus =>
        rw [List.mem_singleton.mp hmem] at nul
        cases nul
  · have digit := digit_range (hdigits c hdigit)
    omega

/-- A NUL that cuts the string short cuts no numeral. -/
theorem numeral_cString {s : String} {negative : Bool} {m : ℕ} :
    Numeral (cString s) negative m ↔ Numeral s.toList negative m := by
  constructor
  · rintro ⟨spaces, sign, digits, rest, hs, hspaces, hsign, hne, hdigits, hrest, hm⟩
    refine ⟨spaces, sign, digits, rest ++ s.toList.dropWhile (fun c => c.toNat ≠ 0), ?_, hspaces,
      hsign, hne, hdigits, ?_, hm⟩
    · rw [← List.append_assoc, ← hs, cString, List.takeWhile_append_dropWhile]
    · intro c hc
      cases rest with
      | cons d more => exact hrest c hc
      | nil =>
        have stopped := List.head?_dropWhile_not (fun c : Char => decide (c.toNat ≠ 0)) s.toList
        rw [List.nil_append] at hc
        rw [Option.mem_def.mp hc] at stopped
        have nul : c.toNat = 0 := by simpa using stopped
        by_contra hdigit
        have digit := digit_range (by simpa using hdigit)
        omega
  · rintro ⟨spaces, sign, digits, rest, hs, hspaces, hsign, hne, hdigits, hrest, hm⟩
    refine ⟨spaces, sign, digits, rest.takeWhile (fun c => c.toNat ≠ 0), ?_, hspaces, hsign, hne,
      hdigits, ?_, hm⟩
    · rw [cString, hs, List.takeWhile_append_of_pos (not_nul hspaces hsign hdigits)]
    · intro c hc
      cases rest with
      | nil => cases hc
      | cons d more =>
        rw [List.takeWhile_cons] at hc
        split_ifs at hc
        · exact hrest c hc
        · cases hc

theorem stoi_iff {s : String} {n : ℤ} : stoi s = .ok n ↔
    ∃ negative m, Numeral s.toList negative m ∧ n = signedValue (negative, m) ∧
      -2^31 ≤ n ∧ n ≤ 2^31 - 1 := by
  have read (negative : Bool) (m : ℕ) :
      Numeral s.toList negative m ↔ scan 10 (cString s) = some (negative, m) :=
    numeral_cString.symm.trans numeral_iff
  unfold stoi
  constructor
  · intro h
    cases hscan : scan 10 (cString s) with
    | none =>
      rw [hscan] at h
      cases h
    | some numeral =>
      rw [hscan] at h
      dsimp only at h
      split_ifs at h with hrange
      cases h
      exact ⟨numeral.1, numeral.2, (read _ _).mpr hscan, rfl, hrange⟩
  · rintro ⟨negative, m, hnumeral, rfl, hrange⟩
    rw [(read negative m).mp hnumeral]
    exact if_pos hrange

theorem digitValue_isDigit {c : Char} (h : c.isDigit) : digitValue c = c.toNat - '0'.toNat :=
  if_pos (Char.isDigit_iff_toNat.mp h)

theorem isDigit_ten {c : Char} (h : c.isDigit) : isDigit 10 c = true := by
  have range : 48 ≤ c.toNat ∧ c.toNat ≤ 57 := Char.isDigit_iff_toNat.mp h
  have below : c.toNat - 48 < 10 := by omega
  rw [isDigit, digitValue_isDigit h]
  exact decide_eq_true below

theorem foldl_digitValue {digits : List Char} (h : ∀ c ∈ digits, c.isDigit) (init : ℕ) :
    digits.foldl (fun value c => 10 * value + digitValue c) init =
      Nat.ofDigitChars 10 digits init := by
  induction digits generalizing init with
  | nil => rfl
  | cons c rest ih =>
    rw [List.foldl_cons, digitValue_isDigit (h c (List.mem_cons_self ..)), Nat.ofDigitChars_cons,
      ih fun d hd => h d (List.mem_cons_of_mem _ hd)]

theorem numeral_toDigits (n : ℕ) {negative : Bool} {sign : List Char} (hsign : Sign negative sign) :
    Numeral (sign ++ Nat.toDigits 10 n) negative n := by
  have digits : ∀ c ∈ Nat.toDigits 10 n, c.isDigit := fun c hc =>
    Nat.isDigit_of_mem_toDigits (by decide) (by decide) hc
  refine ⟨[], sign, Nat.toDigits 10 n, [], by simp, by simp, hsign, Nat.toDigits_ne_nil,
    fun c hc => isDigit_ten (digits c hc), by simp, ?_⟩
  rw [digitsValue, foldl_digitValue digits, Nat.ofDigitChars_toDigits (by decide) (by decide)]

theorem toString_digits (n : ℤ) : ∃ negative sign, Sign negative sign ∧
    (toString n).toList = sign ++ Nat.toDigits 10 n.natAbs ∧ signedValue (negative, n.natAbs) = n := by
  cases n with
  | ofNat n => exact ⟨false, [], .absent, Nat.toList_repr, rfl⟩
  | negSucc n =>
    refine ⟨true, ['-'], .minus, ?_, rfl⟩
    rw [Int.natAbs_negSucc, ← Nat.toList_repr]
    exact String.toList_append

theorem numeral_toString (n : ℤ) : ∃ negative m, Numeral (toString n).toList negative m ∧
    signedValue (negative, m) = n := by
  obtain ⟨negative, sign, hsign, htext, hvalue⟩ := toString_digits n
  rw [htext]
  exact ⟨negative, n.natAbs, numeral_toDigits n.natAbs hsign, hvalue⟩

theorem stoi_toString {n : ℤ} (hlow : -2^31 ≤ n) (hhigh : n ≤ 2^31 - 1) : stoi (toString n) = .ok n := by
  obtain ⟨negative, m, hnumeral, hvalue⟩ := numeral_toString n
  exact stoi_iff.mpr ⟨negative, m, hnumeral, hvalue.symm, hlow, hhigh⟩

end ModbusCrawler.DecimalNumerals
