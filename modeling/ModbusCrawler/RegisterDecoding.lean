import ModbusCrawler.Classification
import Mathlib.Algebra.Ring.Int.Defs
import Mathlib.Data.Nat.Digits.Lemmas

set_option autoImplicit false

/-!
# Register decoding

`to_val` reads its words as one two's-complement integer, and every integer of
that width is what its own words decode to.
-/
namespace ModbusCrawler.RegisterDecoding
open ModbusSlave Classification

/-- The words of an integer, low word first. -/
def splitWords : ℕ → ℤ → List UInt16
  | 0, _ => []
  | size + 1, n => UInt16.ofInt n :: splitWords size (n / 2 ^ 16)

theorem splitWords_length (size : ℕ) (n : ℤ) : (splitWords size n).length = size := by
  induction size generalizing n with
  | zero => rfl
  | succ size ih => rw [splitWords, List.length_cons, ih]

theorem ofInt_toNat (n : ℤ) : ((UInt16.ofInt n).toNat : ℤ) = n % 2 ^ 16 := by
  have below : n % 2 ^ 16 < 2 ^ 16 := Int.emod_lt_of_pos n (by decide)
  have positive : 0 ≤ n % 2 ^ 16 := Int.emod_nonneg n (by decide)
  have small : (n % 2 ^ 16).toNat < UInt16.size := (Int.toNat_lt positive).mpr below
  rw [UInt16.ofInt, UInt16.toNat_ofNat_of_lt' small, Int.toNat_of_nonneg positive]

/-- The residue of `n` for a product of moduli, from the residues of its quotient. -/
theorem emod_mul (n a b : ℤ) (ha : 0 < a) : n % (a * b) = n % a + a * (n / a % b) := by
  have quotient : n / (a * b) = n / a / b := (Int.ediv_ediv_of_nonneg ha.le).symm
  rw [Int.emod_def, Int.emod_def, Int.emod_def, quotient]
  ring

/-- The words spell the residue: the quotient is rounded down, so a negative integer
    keeps its sign in the higher words. -/
theorem littleValue_splitWords (size : ℕ) (n : ℤ) :
    (littleValue (splitWords size n) : ℤ) = n % 2 ^ (16 * size) := by
  induction size generalizing n with
  | zero => simp [splitWords, littleValue]
  | succ size ih =>
    have width : (2 : ℤ) ^ (16 * (size + 1)) = 2 ^ 16 * 2 ^ (16 * size) := by
      rw [← pow_add, mul_add, add_comm]
    rw [splitWords, littleValue, Nat.cast_add, Nat.cast_mul, ofInt_toNat, ih, width,
      emod_mul n _ _ (by decide)]
    rfl

theorem littleValue_eq_ofDigits (words : List UInt16) :
    littleValue words = Nat.ofDigits (2 ^ 16) (words.map UInt16.toNat) := by
  induction words with
  | nil => rfl
  | cons word words ih =>
    rw [littleValue, List.map_cons, Nat.ofDigits_cons, ih]
    rfl

theorem littleValue_eq_sum (words : List UInt16) :
    littleValue words = (words.mapIdx fun i word => word.toNat * 2 ^ (16 * i)).sum := by
  rw [littleValue_eq_ofDigits, Nat.ofDigits_eq_sum_mapIdx]
  apply congrArg List.sum
  apply List.ext_getElem
  · simp
  · intro i _ _
    simp [pow_mul]

/-- The signed integer of the width of the words whose unsigned form they spell, low word first. -/
structure TwosComplement (words : List UInt16) (val : ℤ) : Prop where
  unsigned : val % 2 ^ (16 * words.length) =
    ((words.mapIdx fun i word => word.toNat * 2 ^ (16 * i)).sum : ℕ)
  lower : -2 ^ (16 * words.length - 1) ≤ val
  upper : val < 2 ^ (16 * words.length - 1)

structure DecodesExactly (size : ℕ) : Prop where
  little : ∀ words : List UInt16, words.length = size →
    ∃ val, toValLe words size = some val ∧ TwosComplement words val.toInt
  big : ∀ words : List UInt16, words.length = size → toValBe words size = toValLe words.reverse size
  splitLittle : ∀ n : ℤ, -2 ^ (16 * size - 1) ≤ n → n < 2 ^ (16 * size - 1) →
    (toValLe (splitWords size n) size).map Int64.toInt = some n
  splitBig : ∀ n : ℤ, -2 ^ (16 * size - 1) ≤ n → n < 2 ^ (16 * size - 1) →
    (toValBe (splitWords size n).reverse size).map Int64.toInt = some n

theorem toInt_twosComplement {words : List UInt16} {val : ℤ}
    (hval : val = (BitVec.ofNat (16 * words.length) (littleValue words)).toInt) :
    TwosComplement words val := by
  subst hval
  refine ⟨?_, BitVec.le_toInt _, BitVec.toInt_lt⟩
  have below : (littleValue words : ℤ) < (2 ^ (16 * words.length) : ℕ) :=
    Int.ofNat_lt.mpr (littleValue_lt words)
  have power : ((2 ^ (16 * words.length) : ℕ) : ℤ) = 2 ^ (16 * words.length) := Nat.cast_pow 2 _
  rw [BitVec.toInt_ofNat', ← power, Int.bmod_emod, ← littleValue_eq_sum,
    Int.emod_eq_of_lt (Int.natCast_nonneg _) below]

theorem ofNat_splitWords (size : ℕ) (n : ℤ) :
    BitVec.ofNat (16 * size) (littleValue (splitWords size n)) = BitVec.ofInt (16 * size) n := by
  apply BitVec.eq_of_toNat_eq
  have spelled := littleValue_splitWords size n
  have below := littleValue_lt (splitWords size n)
  rw [splitWords_length] at below
  have power : ((2 ^ (16 * size) : ℕ) : ℤ) = 2 ^ (16 * size) := Nat.cast_pow 2 _
  rw [BitVec.toNat_ofNat, BitVec.toNat_ofInt, power, ← spelled, Int.toNat_natCast,
    Nat.mod_eq_of_lt below]

theorem toValLe_splitWords {size : ℕ} (hsize : size = 1 ∨ size = 2 ∨ size = 4) {n : ℤ}
    (hlower : -2 ^ (16 * size - 1) ≤ n) (hupper : n < 2 ^ (16 * size - 1)) :
    (toValLe (splitWords size n) size).map Int64.toInt = some n := by
  obtain ⟨val, hval, value⟩ := toValLe_words hsize (splitWords_length size n)
  have positive : 0 < 16 * size := by omega
  rw [hval, Option.map_some, value, ofNat_splitWords,
    BitVec.toInt_ofInt_eq_self positive hlower hupper]

theorem toVal_decodesExactly {size : ℕ} (hsize : size = 1 ∨ size = 2 ∨ size = 4) :
    DecodesExactly size := by
  refine ⟨?_, fun words hlength => toValBe_reverse hsize hlength,
    fun n hlower hupper => toValLe_splitWords hsize hlower hupper, ?_⟩
  · intro words hlength
    obtain ⟨val, hval, value⟩ := toValLe_words hsize hlength
    subst hlength
    exact ⟨val, hval, toInt_twosComplement value⟩
  · intro n hlower hupper
    have hlength : (splitWords size n).reverse.length = size :=
      List.length_reverse.trans (splitWords_length size n)
    rw [toValBe_reverse hsize hlength, List.reverse_reverse]
    exact toValLe_splitWords hsize hlower hupper

theorem twoWords_decodesExactly : DecodesExactly 2 := toVal_decodesExactly (.inr (.inl rfl))

end ModbusCrawler.RegisterDecoding
