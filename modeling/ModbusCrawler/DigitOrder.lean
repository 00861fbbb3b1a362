import Mathlib.Algebra.Ring.Nat
import Mathlib.Data.Nat.Notation
import Mathlib.Tactic.Common

set_option autoImplicit false

/-!
# The order of decimal digits

Digits of one length are in lexicographic order as the numbers that they spell.
-/
namespace ModbusCrawler.DigitOrder

def digit (c : Char) : ℕ := c.toNat - '0'.toNat

theorem digit_range {c : Char} (h : c.isDigit) : 48 ≤ c.toNat ∧ c.toNat ≤ 57 :=
  Char.isDigit_iff_toNat.mp h

theorem digit_lt {c : Char} (h : c.isDigit) : digit c < 10 := by
  have range := digit_range h
  change c.toNat - 48 < 10
  omega

theorem lt_of_digit_lt {c d : Char} (h : digit c < digit d) : c < d := by
  change c.toNat - 48 < d.toNat - 48 at h
  change c.toNat < d.toNat
  omega

theorem eq_of_digit_eq {c d : Char} (hc : c.isDigit) (hd : d.isDigit) (h : digit c = digit d) :
    c = d := by
  have first := digit_range hc
  have second := digit_range hd
  apply Char.toNat_inj.mp
  change c.toNat - 48 = d.toNat - 48 at h
  omega

def value (digits : List Char) : ℕ := Nat.ofDigitChars 10 digits 0

theorem value_cons (c : Char) (digits : List Char) :
    value (c :: digits) = 10 ^ digits.length * digit c + value digits := by
  unfold value
  rw [Nat.ofDigitChars_cons, Nat.ofDigitChars_eq_ofDigitChars_zero]
  simp [digit]

theorem value_lt {digits : List Char} (h : ∀ c ∈ digits, c.isDigit) :
    value digits < 10 ^ digits.length := by
  induction digits with
  | nil => simp [value]
  | cons c rest ih =>
    have tail := ih fun d hd => h d (List.mem_cons_of_mem _ hd)
    have head := digit_lt (h c (List.mem_cons_self ..))
    have power : 10 ^ rest.length * digit c ≤ 10 ^ rest.length * 9 := Nat.mul_le_mul_left _ (by omega)
    rw [value_cons, List.length_cons, Nat.pow_succ]
    omega

theorem digits_lt {a b : List Char} (ha : ∀ c ∈ a, c.isDigit) (hb : ∀ c ∈ b, c.isDigit)
    (hlength : a.length = b.length) (hvalue : value a < value b) : a < b := by
  induction a generalizing b with
  | nil =>
    rw [List.eq_nil_of_length_eq_zero hlength.symm] at hvalue
    exact absurd hvalue (Nat.lt_irrefl _)
  | cons c cs ih =>
    cases b with
    | nil => cases hlength
    | cons d ds =>
      have same : cs.length = ds.length := Nat.succ.inj hlength
      have hcs : ∀ e ∈ cs, e.isDigit := fun e he => ha e (List.mem_cons_of_mem _ he)
      have hds : ∀ e ∈ ds, e.isDigit := fun e he => hb e (List.mem_cons_of_mem _ he)
      have hc := ha c (List.mem_cons_self ..)
      have hd := hb d (List.mem_cons_self ..)
      rw [value_cons, value_cons, same] at hvalue
      rw [List.cons_lt_cons_iff]
      rcases Nat.lt_trichotomy (digit c) (digit d) with hlt | heq | hgt
      · exact .inl (lt_of_digit_lt hlt)
      · rw [heq] at hvalue
        exact .inr ⟨eq_of_digit_eq hc hd heq, ih hcs hds same (by omega)⟩
      · have tail := value_lt hds
        have power : 10 ^ ds.length * (digit d + 1) ≤ 10 ^ ds.length * digit c :=
          Nat.mul_le_mul_left _ hgt
        rw [Nat.mul_succ] at power
        omega

/-- What follows words of one length does not change their order. -/
theorem append_lt_append {α : Type} [LT α] {a b : List α} (hlength : a.length = b.length)
    (h : a < b) (s t : List α) : a ++ s < b ++ t := by
  induction a generalizing b with
  | nil =>
    rw [List.eq_nil_of_length_eq_zero hlength.symm] at h
    cases h
  | cons c cs ih =>
    cases b with
    | nil => cases hlength
    | cons d ds =>
      rw [List.cons_append, List.cons_append, List.cons_lt_cons_iff]
      rcases List.cons_lt_cons_iff.mp h with hhead | ⟨hhead, htail⟩
      · exact .inl hhead
      · exact .inr ⟨hhead, ih (Nat.succ.inj hlength) htail⟩

end ModbusCrawler.DigitOrder
