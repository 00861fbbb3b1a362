import Mathlib.Data.BitVec
import Mathlib.Tactic.Common

set_option autoImplicit false

/-!
# Reflected shift registers

The shift register of a reflected CRC is linear over exclusive or, so eight of
its steps are one lookup of the low byte and one shift of the rest. The width
and the polynomial are parameters.
-/
namespace ModbusCrawler.ReflectedCrc

variable {w : ℕ}

def bitStep (polynomial c : BitVec w) : BitVec w :=
  if c.getLsbD 0 then polynomial ^^^ (c >>> 1) else c >>> 1

def bitSteps (polynomial : BitVec w) : ℕ → BitVec w → BitVec w
  | 0, c => c
  | n + 1, c => bitSteps polynomial n (bitStep polynomial c)

/-- Bit at a time: the byte enters at the low end, then eight steps. -/
def byteStep (polynomial c : BitVec w) (byte : BitVec 8) : BitVec w :=
  bitSteps polynomial 8 (c ^^^ byte.setWidth w)

/-- The checksum with the register preset and the result both complemented. -/
def checksum (polynomial : BitVec w) (bytes : List (BitVec 8)) : BitVec w :=
  ~~~ bytes.foldl (byteStep polynomial) (BitVec.allOnes w)

theorem bitStep_xor (p x y : BitVec w) : bitStep p (x ^^^ y) = bitStep p x ^^^ bitStep p y := by
  simp only [bitStep, BitVec.getLsbD_xor, BitVec.ushiftRight_xor_distrib]
  cases x.getLsbD 0 <;> cases y.getLsbD 0
  · rfl
  · change p ^^^ (x >>> 1 ^^^ y >>> 1) = x >>> 1 ^^^ (p ^^^ y >>> 1)
    ac_rfl
  · change p ^^^ (x >>> 1 ^^^ y >>> 1) = (p ^^^ x >>> 1) ^^^ y >>> 1
    ac_rfl
  · change x >>> 1 ^^^ y >>> 1 = (p ^^^ x >>> 1) ^^^ (p ^^^ y >>> 1)
    have cancel : (p ^^^ x >>> 1) ^^^ (p ^^^ y >>> 1) =
        (p ^^^ p) ^^^ (x >>> 1 ^^^ y >>> 1) := by ac_rfl
    rw [cancel, BitVec.xor_self, BitVec.zero_xor]

theorem bitSteps_xor (p : BitVec w) (n : ℕ) (x y : BitVec w) :
    bitSteps p n (x ^^^ y) = bitSteps p n x ^^^ bitSteps p n y := by
  induction n generalizing x y with
  | zero => rfl
  | succ n ih =>
    change bitSteps p n (bitStep p (x ^^^ y)) = _
    rw [bitStep_xor, ih]
    rfl

theorem bitSteps_low_clear (p : BitVec w) (n : ℕ) (x : BitVec w)
    (h : ∀ i < n, x.getLsbD i = false) : bitSteps p n x = x >>> n := by
  induction n generalizing x with
  | zero => simp [bitSteps]
  | succ n ih =>
    have step : bitStep p x = x >>> 1 := by simp [bitStep, h 0 (by omega)]
    change bitSteps p n (bitStep p x) = _
    rw [step, ih _ (fun i hi => by rw [BitVec.getLsbD_ushiftRight]; exact h _ (by omega)),
      ← BitVec.shiftRight_add, Nat.add_comm]

theorem split_low (x : BitVec w) (n : ℕ) :
    x = (x.setWidth n).setWidth w ^^^ ((x >>> n) <<< n) := by
  apply BitVec.eq_of_getLsbD_eq
  intro i hi
  rw [BitVec.getLsbD_xor, BitVec.getLsbD_setWidth, BitVec.getLsbD_setWidth,
    BitVec.getLsbD_shiftLeft, BitVec.getLsbD_ushiftRight]
  by_cases h : i < n
  · simp [h, hi]
  · have hn : n + (i - n) = i := by omega
    simp [h, hi, hn]

/-- Eight steps are one table entry, indexed by the low byte, and one shift. -/
theorem bitSteps_eight (p x : BitVec w) :
    bitSteps p 8 x = bitSteps p 8 ((x.setWidth 8).setWidth w) ^^^ (x >>> 8) := by
  conv_lhs => rw [split_low x 8]
  rw [bitSteps_xor]
  congr 1
  rw [bitSteps_low_clear p 8 _ (fun i hi => by rw [BitVec.getLsbD_shiftLeft]; simp [hi])]
  apply BitVec.eq_of_getLsbD_eq
  intro i hi
  rw [BitVec.getLsbD_ushiftRight, BitVec.getLsbD_shiftLeft, BitVec.getLsbD_ushiftRight,
    BitVec.getLsbD_ushiftRight]
  by_cases h : 8 + i < w
  · have hi8 : ¬ 8 + i < 8 := by omega
    have hsub : 8 + (8 + i - 8) = 8 + i := by omega
    simp only [h, hi8, decide_true, decide_false, Bool.not_false, Bool.true_and, hsub]
  · simp [h, BitVec.getLsbD_of_ge x (8 + i) (by omega)]

theorem byteStep_eq_table (p c : BitVec w) (byte : BitVec 8) :
    byteStep p c byte =
      bitSteps p 8 (((c ^^^ byte.setWidth w).setWidth 8).setWidth w) ^^^ (c >>> 8) := by
  have hbyte : byte.setWidth w >>> 8 = 0#w := by
    apply BitVec.eq_of_getLsbD_eq
    intro i _
    rw [BitVec.getLsbD_ushiftRight, BitVec.getLsbD_setWidth,
      BitVec.getLsbD_of_ge byte (8 + i) (by omega)]
    simp
  unfold byteStep
  rw [bitSteps_eight, BitVec.ushiftRight_xor_distrib, hbyte, BitVec.xor_zero]

end ModbusCrawler.ReflectedCrc
