import Mathlib.Data.List.TakeWhile
import ModbusCrawler.CNumerals

set_option autoImplicit false

/-!
# The numerals of base 0

A grammar of what `strtol` and its relatives read with base 0, and that `scan`
reads it: white space, a sign, then the longest integer constant that follows.
-/
namespace ModbusCrawler.NumeralGrammar
open CNumerals

def AllDigits (base : ℕ) (digits : List Char) : Prop := ∀ c ∈ digits, isDigit base c = true

inductive Literal : List Char → ℕ → Prop where
  | decimal (digits : List Char) : digits ≠ [] → digits.head? ≠ some '0' → AllDigits 10 digits →
      Literal digits (digitsValue 10 digits)
  | octal (digits : List Char) : AllDigits 8 digits → Literal ('0' :: digits) (digitsValue 8 digits)
  | hexadecimal (x : Char) (digits : List Char) : x = 'x' ∨ x = 'X' → digits ≠ [] →
      AllDigits 16 digits → Literal ('0' :: x :: digits) (digitsValue 16 digits)

def Longest (lit body : List Char) : Prop :=
  ∀ longer n, longer <+: body → Literal longer n → longer.length ≤ lit.length

/-- The longest literal at the front of `body` denotes `m`. -/
def LeadingLiteral (body : List Char) (m : ℕ) : Prop :=
  ∃ lit rest, body = lit ++ rest ∧ Literal lit m ∧ Longest lit body

inductive Sign : Bool → List Char → Prop where
  | absent : Sign false []
  | plus : Sign false ['+']
  | minus : Sign true ['-']

def LeadingNumeral (s : List Char) (negative : Bool) (m : ℕ) : Prop :=
  ∃ spaces sign body, s = spaces ++ sign ++ body ∧ (∀ c ∈ spaces, isSpace c = true) ∧
    Sign negative sign ∧ LeadingLiteral body m

theorem Literal.leading {lit : List Char} {m : ℕ} (h : Literal lit m) : LeadingLiteral lit m :=
  ⟨lit, [], (List.append_nil lit).symm, h, fun _ _ hfront _ => hfront.length_le⟩

theorem digit_literal {c : Char} (hdigit : isDigit 10 c = true) (hzero : c ≠ '0') :
    Literal [c] (digitsValue 10 [c]) := by
  apply Literal.decimal
  · exact List.cons_ne_nil c []
  · intro hhead
    exact hzero (Option.some.inj hhead)
  · exact List.forall_mem_singleton.mpr hdigit

theorem isDigit_mono {low high : ℕ} (hle : low ≤ high) {c : Char} (h : isDigit low c = true) :
    isDigit high c = true := by
  simp only [isDigit, decide_eq_true_eq] at h ⊢
  omega

theorem detectBase_hexadecimal {x c : Char} {rest : List Char} (hx : x = 'x' ∨ x = 'X')
    (hc : isDigit 16 c = true) : detectBase ('0' :: x :: c :: rest) = (16, c :: rest) := by
  simp [detectBase, hx, hc]

theorem detectBase_octal {tail : List Char} (h : ∀ x c rest, tail = x :: c :: rest →
    x = 'x' ∨ x = 'X' → isDigit 16 c = false) : detectBase ('0' :: tail) = (8, '0' :: tail) := by
  match tail with
  | [] | [_] => rfl
  | x :: c :: rest =>
    have plain : ¬ ((x = 'x' ∨ x = 'X') ∧ isDigit 16 c = true) := by
      rintro ⟨hx, hc⟩
      rw [h x c rest rfl hx] at hc
      cases hc
    simp only [detectBase, if_neg plain]

theorem detectBase_decimal {s : List Char} (h : s.head? ≠ some '0') : detectBase s = (10, s) := by
  unfold detectBase
  split <;> simp_all

/-- A run of digits that no longer literal continues is all that is scanned. -/
theorem takeWhile_digits {base : ℕ} {digits rest : List Char} (hdigits : AllDigits base digits)
    (hlongest : ∀ more, more <+: rest → AllDigits base (digits ++ more) → more.length = 0) :
    (digits ++ rest).takeWhile (isDigit base) = digits := by
  have none : rest.takeWhile (isDigit base) = [] := by
    apply List.length_eq_zero_iff.mp
    apply hlongest _ (List.takeWhile_prefix _)
    intro c hc
    rcases List.mem_append.mp hc with hc | hc
    · exact hdigits c hc
    · exact List.mem_takeWhile_imp hc
  rw [List.takeWhile_append_of_pos hdigits, none, List.append_nil]

theorem Longest.stops {lit rest more : List Char} {n : ℕ} (h : Longest lit (lit ++ rest))
    (hmore : more <+: rest) (hlit : Literal (lit ++ more) n) : more.length = 0 := by
  have bound := h (lit ++ more) n ((List.prefix_append_right_inj lit).mpr hmore) hlit
  rw [List.length_append] at bound
  omega

theorem octal_stops {digits rest : List Char} (hdigits : AllDigits 8 digits)
    (h : Longest ('0' :: digits) ('0' :: digits ++ rest)) (x c : Char) (tail : List Char)
    (hbody : digits ++ rest = x :: c :: tail) (hx : x = 'x' ∨ x = 'X') : isDigit 16 c = false := by
  cases digits with
  | nil =>
    by_contra hc
    have hc' : isDigit 16 c = true := by simpa using hc
    have hall : AllDigits 16 [c] := by simpa [AllDigits] using hc'
    have hlit : Literal ('0' :: [] ++ [x, c]) _ := .hexadecimal x [c] hx (by simp) hall
    have := h.stops (by rw [← List.nil_append rest, hbody]; exact ⟨tail, rfl⟩) hlit
    simp at this
  | cons d digits =>
    have hd := hdigits d (by simp)
    obtain rfl : d = x := (List.cons.inj hbody).1
    rcases hx with rfl | rfl <;> cases hd

theorem literal_digits {body : List Char} {m : ℕ} (h : LeadingLiteral body m) :
    (detectBase body).2.takeWhile (isDigit (detectBase body).1) ≠ [] ∧
      digitsValue (detectBase body).1
        ((detectBase body).2.takeWhile (isDigit (detectBase body).1)) = m := by
  obtain ⟨lit, rest, rfl, hlit, hlongest⟩ := h
  cases hlit with
  | decimal digits hne hhead hdigits =>
    have head (more : List Char) : (lit ++ more).head? ≠ some '0' := by
      obtain ⟨c, tail, rfl⟩ := List.exists_cons_of_ne_nil hne
      exact hhead
    have run : (lit ++ rest).takeWhile (isDigit 10) = lit := by
      apply takeWhile_digits hdigits
      intro more hmore hall
      exact hlongest.stops hmore
        (.decimal _ (List.append_ne_nil_of_left_ne_nil hne more) (head more) hall)
    rw [detectBase_decimal (head rest)]
    dsimp only
    rw [run]
    exact ⟨hne, rfl⟩
  | octal digits hdigits =>
    have zero : isDigit 8 '0' = true := rfl
    have run : ('0' :: (digits ++ rest)).takeWhile (isDigit 8) = '0' :: digits := by
      rw [List.takeWhile_cons_of_pos zero, takeWhile_digits hdigits]
      intro more hmore hall
      exact hlongest.stops hmore (.octal _ hall)
    rw [List.cons_append, detectBase_octal (octal_stops hdigits hlongest)]
    dsimp only
    rw [run]
    exact ⟨List.cons_ne_nil _ _, rfl⟩
  | hexadecimal x digits hx hne hdigits =>
    have run : (digits ++ rest).takeWhile (isDigit 16) = digits := by
      apply takeWhile_digits hdigits
      intro more hmore hall
      exact hlongest.stops hmore
        (.hexadecimal x _ hx (List.append_ne_nil_of_left_ne_nil hne more) hall)
    obtain ⟨c, tail, rfl⟩ := List.exists_cons_of_ne_nil hne
    have hc := hdigits c (by simp)
    simp only [List.cons_append] at run ⊢
    rw [detectBase_hexadecimal hx hc]
    dsimp only
    rw [run]
    exact ⟨hne, rfl⟩

theorem Literal.head {lit : List Char} {m : ℕ} (h : Literal lit m) :
    ∃ c tail, lit = c :: tail ∧ isDigit 10 c = true := by
  cases h with
  | decimal digits hne _ hdigits =>
    obtain ⟨c, tail, rfl⟩ := List.exists_cons_of_ne_nil hne
    exact ⟨c, tail, rfl, hdigits c (by simp)⟩
  | octal digits _ => exact ⟨'0', digits, rfl, rfl⟩
  | hexadecimal x digits _ _ _ => exact ⟨'0', x :: digits, rfl, rfl⟩

theorem digit_range {c : Char} (h : isDigit 10 c = true) : 48 ≤ c.toNat ∧ c.toNat ≤ 57 := by
  have value : digitValue c < 10 := of_decide_eq_true h
  unfold digitValue at value
  split_ifs at value <;> omega

theorem scanSign_sign {negative : Bool} {sign body : List Char} (hsign : Sign negative sign)
    (hbody : ∃ c tail, body = c :: tail ∧ isDigit 10 c = true) :
    scanSign (sign ++ body) = (negative, body) := by
  obtain ⟨c, tail, rfl, hc⟩ := hbody
  cases hsign with
  | absent =>
    have digit := digit_range hc
    unfold scanSign
    split <;> simp_all
  | plus => rfl
  | minus => rfl

theorem dropWhile_spaces {spaces rest : List Char} (hspaces : ∀ c ∈ spaces, isSpace c = true)
    (hrest : ∃ c tail, rest = c :: tail ∧ isSpace c = false) :
    (spaces ++ rest).dropWhile isSpace = rest := by
  obtain ⟨c, tail, rfl, hc⟩ := hrest
  rw [List.dropWhile_append_of_pos hspaces, List.dropWhile_cons_of_neg (by simp [hc])]

theorem scan_leadingNumeral {s : List Char} {negative : Bool} {m : ℕ}
    (h : LeadingNumeral s negative m) : scan 0 s = some (negative, m) := by
  obtain ⟨spaces, sign, body, rfl, hspaces, hsign, hbody⟩ := h
  have head : ∃ c tail, body = c :: tail ∧ isDigit 10 c = true := by
    obtain ⟨lit, rest, rfl, hlit, _⟩ := hbody
    obtain ⟨c, tail, rfl, hc⟩ := hlit.head
    exact ⟨c, tail ++ rest, rfl, hc⟩
  have start : ∃ c tail, sign ++ body = c :: tail ∧ isSpace c = false := by
    cases hsign with
    | absent =>
      obtain ⟨c, tail, rfl, hc⟩ := head
      have digit := digit_range hc
      refine ⟨c, tail, rfl, ?_⟩
      unfold isSpace
      simp only [Bool.or_eq_false_iff, decide_eq_false_iff_not, Bool.and_eq_false_iff]
      omega
    | plus => exact ⟨'+', body, rfl, rfl⟩
    | minus => exact ⟨'-', body, rfl, rfl⟩
  obtain ⟨hne, hvalue⟩ := literal_digits hbody
  unfold scan
  rw [List.append_assoc, dropWhile_spaces hspaces start, scanSign_sign hsign head]
  dsimp only
  rw [if_pos rfl, if_neg hne, hvalue]

theorem Literal.mem {lit : List Char} {m : ℕ} (h : Literal lit m) {c : Char} (hc : c ∈ lit) :
    isDigit 16 c = true ∨ c = 'x' ∨ c = 'X' := by
  cases h with
  | decimal digits _ _ hdigits => exact .inl (isDigit_mono (by decide) (hdigits c hc))
  | octal digits hdigits =>
    rcases List.mem_cons.mp hc with rfl | hc
    · exact .inl rfl
    · exact .inl (isDigit_mono (by decide) (hdigits c hc))
  | hexadecimal x digits hx _ hdigits =>
    rcases List.mem_cons.mp hc with rfl | hc
    · exact .inl rfl
    · rcases List.mem_cons.mp hc with rfl | hc
      · exact .inr hx
      · exact .inl (hdigits c hc)

/-- A literal ends before a character that is in none. -/
theorem Literal.leading_before {lit rest : List Char} {m : ℕ} (h : Literal lit m) {c : Char}
    (hdigit : isDigit 16 c = false) (hx : c ≠ 'x' ∧ c ≠ 'X') :
    LeadingLiteral (lit ++ c :: rest) m := by
  refine ⟨lit, c :: rest, rfl, h, fun longer n hfront hlonger => ?_⟩
  by_contra hlength
  have short : lit ++ [c] <+: lit ++ c :: rest := ⟨rest, by simp⟩
  have inside : lit ++ [c] <+: longer := List.prefix_of_prefix_length_le short hfront (by
    rw [List.length_append, List.length_singleton]
    omega)
  have hmem : c ∈ longer := inside.subset (by simp)
  rcases hlonger.mem hmem with hc | hc
  · rw [hdigit] at hc
    cases hc
  · exact hc.elim hx.1 hx.2

theorem literal_not_nul {lit : List Char} {m : ℕ} (h : Literal lit m) {c : Char} (hc : c ∈ lit) :
    c.toNat ≠ 0 := by
  intro nul
  rcases h.mem hc with hdigit | rfl | rfl
  · have value : digitValue c < 16 := of_decide_eq_true hdigit
    rw [digitValue, nul] at value
    revert value
    decide
  · cases nul
  · cases nul

/-- A numeral ends before a NUL that cuts the string short. -/
theorem leadingNumeral_cString {s : String} {negative : Bool} {m : ℕ}
    (h : LeadingNumeral s.toList negative m) : LeadingNumeral (cString s) negative m := by
  obtain ⟨spaces, sign, body, hs, hspaces, hsign, lit, rest, rfl, hlit, hlongest⟩ := h
  have hspaces' : ∀ c ∈ spaces, decide (c.toNat ≠ 0) = true := by
    intro c hc
    have space := hspaces c hc
    rw [decide_eq_true_eq]
    intro nul
    rw [isSpace, nul] at space
    cases space
  have hsign' : ∀ c ∈ sign, decide (c.toNat ≠ 0) = true := by
    intro c hc
    cases hsign with
    | absent => cases hc
    | plus | minus =>
      rw [List.mem_singleton] at hc
      subst hc
      rfl
  have hlit' : ∀ c ∈ lit, decide (c.toNat ≠ 0) = true :=
    fun c hc => decide_eq_true (literal_not_nul hlit hc)
  have cut : cString s = spaces ++ sign ++ (lit ++ rest.takeWhile (fun c => c.toNat ≠ 0)) := by
    rw [cString, hs, List.append_assoc, List.takeWhile_append_of_pos hspaces',
      List.takeWhile_append_of_pos hsign', List.takeWhile_append_of_pos hlit', List.append_assoc]
  refine ⟨spaces, sign, _, cut, hspaces, hsign, lit, _, rfl, hlit, ?_⟩
  intro longer n hfront
  exact hlongest longer n
    (hfront.trans ((List.prefix_append_right_inj lit).mpr (List.takeWhile_prefix _)))

end ModbusCrawler.NumeralGrammar
