import Mathlib.Algebra.Ring.Int.Defs
import Mathlib.Algebra.Ring.Nat
import Mathlib.Data.Int.Notation
import Mathlib.Tactic.Common

set_option autoImplicit false

/-!
# Reading integers as the C library does

`strtoimax`, `strtoumax` and the `strto*` scan below them, on C strings (a list
of characters up to the first NUL), and `std::stoi` on top of the scan.
-/
namespace ModbusCrawler.CNumerals

def isSpace (c : Char) : Bool := c.toNat = 32 || (9 ≤ c.toNat && c.toNat ≤ 13)

def digitValue (c : Char) : ℕ :=
  if 48 ≤ c.toNat ∧ c.toNat ≤ 57 then c.toNat - 48
  else if 97 ≤ c.toNat ∧ c.toNat ≤ 122 then c.toNat - 87
  else if 65 ≤ c.toNat ∧ c.toNat ≤ 90 then c.toNat - 55
  else 36

def isDigit (base : ℕ) (c : Char) : Bool := digitValue c < base

def digitsValue (base : ℕ) (digits : List Char) : ℕ :=
  digits.foldl (fun value c => base * value + digitValue c) 0

/-- The base that base 0 selects and what is left to scan: `0x` counts only
    before a hexadecimal digit, a lone `0` is an octal digit. -/
def detectBase : List Char → ℕ × List Char
  | '0' :: x :: c :: rest =>
    if (x = 'x' ∨ x = 'X') ∧ isDigit 16 c then (16, c :: rest) else (8, '0' :: x :: c :: rest)
  | '0' :: rest => (8, '0' :: rest)
  | s => (10, s)

def scanSign : List Char → Bool × List Char
  | '-' :: rest => (true, rest)
  | '+' :: rest => (false, rest)
  | s => (false, s)

def cString (s : String) : List Char := s.toList.takeWhile (fun c => c.toNat ≠ 0)

/-- Sign and magnitude of the numeral at the front, `none` when no conversion is
    performed. -/
def scan (base : ℕ) (s : List Char) : Option (Bool × ℕ) :=
  let signed := scanSign (s.dropWhile isSpace)
  let based := if base = 0 then detectBase signed.2 else (base, signed.2)
  let digits := based.2.takeWhile (isDigit based.1)
  if digits = [] then none else some (signed.1, digitsValue based.1 digits)

def signedValue : Bool × ℕ → ℤ
  | (true, magnitude) => -magnitude
  | (false, magnitude) => magnitude

/-- The value and whether `errno` is set to `ERANGE`. -/
def strtoimax (s : List Char) : ℤ × Bool :=
  match scan 0 s with
  | none => (0, false)
  | some numeral =>
    if signedValue numeral > 2^63 - 1 then (2^63 - 1, true)
    else if signedValue numeral < -2^63 then (-2^63, true)
    else (signedValue numeral, false)

def strtoumax (s : List Char) : ℤ × Bool :=
  match scan 0 s with
  | none => (0, false)
  | some numeral =>
    if numeral.2 > 2^64 - 1 then (2^64 - 1, true)
    else (signedValue numeral % 2^64, false)

inductive StoiError where
  | noConversion | outOfRange
  deriving DecidableEq, Repr

def stoi (s : String) : Except StoiError ℤ :=
  match scan 10 (cString s) with
  | none => .error .noConversion
  | some numeral =>
    if -2^31 ≤ signedValue numeral ∧ signedValue numeral ≤ 2^31 - 1 then .ok (signedValue numeral)
    else .error .outOfRange

theorem stoi_range {s : String} {n : ℤ} (h : stoi s = .ok n) : -2^31 ≤ n ∧ n ≤ 2^31 - 1 := by
  unfold stoi at h
  cases hs : scan 10 (cString s) with
  | none => rw [hs] at h; cases h
  | some numeral =>
    rw [hs] at h
    dsimp only at h
    split_ifs at h with hr
    cases h
    exact hr

end ModbusCrawler.CNumerals
