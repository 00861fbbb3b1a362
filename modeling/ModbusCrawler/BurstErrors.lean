import ModbusCrawler.ReflectedCrc

set_option autoImplicit false

/-!
# Burst errors under a reflected CRC

Bit by bit, a stream enters the register at its low end. With the top bit of the
polynomial set a step loses nothing, so two streams that differ in a burst that is
no longer than the register leave different registers.
-/
namespace ModbusCrawler.BurstErrors
open ReflectedCrc

variable {w : ℕ}

/-- One bit of a stream. -/
def feed (polynomial c : BitVec w) (bit : Bool) : BitVec w :=
  bitStep polynomial (c ^^^ (BitVec.ofBool bit).setWidth w)

/-- A short stream side by side, the first bit at the low end. -/
def pack (w : ℕ) : List Bool → BitVec w
  | [] => 0#w
  | bit :: rest => (BitVec.ofBool bit).setWidth w ^^^ (pack w rest <<< 1)

/-- The bits of a byte in the order in which they are fed. -/
def byteBits (byte : BitVec 8) : List Bool := (List.range 8).map byte.getLsbD

def streamBits (bytes : List (BitVec 8)) : List Bool := bytes.flatMap byteBits

/-- Two streams that agree but for a window of at most `n` bits. -/
def Burst (n : ℕ) (xs ys : List Bool) : Prop :=
  ∃ pre a b post, xs = pre ++ a ++ post ∧ ys = pre ++ b ++ post ∧ a.length = b.length ∧
    a.length ≤ n ∧ a ≠ b

theorem pack_getLsbD (bits : List Bool) {i : ℕ} (hi : i < w) :
    (pack w bits).getLsbD i = bits.getD i false := by
  induction bits generalizing i with
  | nil => simp [pack]
  | cons bit rest ih =>
    rw [pack, BitVec.getLsbD_xor, BitVec.getLsbD_setWidth, BitVec.getLsbD_shiftLeft]
    cases i with
    | zero => simp [hi]
    | succ i => simp [hi, ih (Nat.lt_of_succ_lt hi)]

theorem pack_injective {a b : List Bool} (hlength : a.length = b.length) (hsize : a.length ≤ w)
    (h : pack w a = pack w b) : a = b := by
  refine List.ext_getElem hlength fun i ha hb => ?_
  have bits := congrArg (fun x => x.getLsbD i) h
  simpa [pack_getLsbD _ (Nat.lt_of_lt_of_le ha hsize), ha, hb] using bits

/-- A bit that enters after a step enters one place higher before it. -/
theorem bitStep_shiftLeft (p x : BitVec w) (h : ∀ i, w ≤ i + 1 → x.getLsbD i = false) :
    bitStep p (x <<< 1) = x := by
  have low : (x <<< 1).getLsbD 0 = false := by simp
  unfold bitStep
  rw [low]
  refine BitVec.eq_of_getLsbD_eq fun i hi => ?_
  rw [if_neg Bool.false_ne_true, BitVec.getLsbD_ushiftRight, BitVec.getLsbD_shiftLeft,
    Nat.add_comm 1 i]
  by_cases htop : i + 1 < w
  · simp only [htop, decide_true, Nat.lt_one_iff, Nat.add_one_ne_zero, decide_false, Bool.not_false,
      Bool.true_and, Nat.add_sub_cancel]
  · simp only [htop, decide_false, Bool.false_and, h i (by omega)]

/-- A short stream enters the register all at once. -/
theorem foldl_feed (p c : BitVec w) (bits : List Bool) (hsize : bits.length ≤ w) :
    bits.foldl (feed p) c = bitSteps p bits.length (c ^^^ pack w bits) := by
  induction bits generalizing c with
  | nil => simp [pack, bitSteps]
  | cons bit rest ih =>
    have room : rest.length + 1 ≤ w := hsize
    have clear : ∀ i, w ≤ i + 1 → (pack w rest).getLsbD i = false := by
      intro i hi
      by_cases hin : i < w
      · rw [pack_getLsbD _ hin, List.getD_eq_getElem?_getD, List.getElem?_eq_none (by omega),
          Option.getD_none]
      · exact BitVec.getLsbD_of_ge _ _ (by omega)
    have joined : bitStep p (c ^^^ pack w (bit :: rest)) = feed p c bit ^^^ pack w rest := by
      rw [pack, ← BitVec.xor_assoc, bitStep_xor, bitStep_shiftLeft p _ clear]
      rfl
    rw [List.foldl_cons, ih _ (by omega), List.length_cons, bitSteps, joined]

theorem byteStep_feed (p c : BitVec w) (byte : BitVec 8) (hw : 8 ≤ w) :
    byteStep p c byte = (byteBits byte).foldl (feed p) c := by
  have same : pack w (byteBits byte) = byte.setWidth w := by
    refine BitVec.eq_of_getLsbD_eq fun i hi => ?_
    rw [pack_getLsbD _ hi, BitVec.getLsbD_setWidth]
    by_cases hbyte : i < 8
    · simp [byteBits, hi, hbyte]
    · simp [byteBits, hi, hbyte, BitVec.getLsbD_of_ge byte i (by omega)]
  rw [foldl_feed p c _ (by simpa [byteBits] using hw), same]
  rfl

theorem foldl_byteStep (p c : BitVec w) (bytes : List (BitVec 8)) (hw : 8 ≤ w) :
    bytes.foldl (byteStep p) c = (streamBits bytes).foldl (feed p) c := by
  induction bytes generalizing c with
  | nil => rfl
  | cons byte rest ih =>
    have split : streamBits (byte :: rest) = byteBits byte ++ streamBits rest := List.flatMap_cons
    rw [List.foldl_cons, ih, byteStep_feed p c byte hw, split, List.foldl_append]

section Injective
variable {p : BitVec w} (htop : p.getLsbD (w - 1) = true)
include htop

theorem bitStep_injective {x y : BitVec w} (h : bitStep p x = bitStep p y) : x = y := by
  have positive : 0 < w := by
    by_contra hzero
    rw [BitVec.getLsbD_of_ge p _ (by omega)] at htop
    cases htop
  have cancels : bitStep p (x ^^^ y) = 0#w := by rw [bitStep_xor, h, BitVec.xor_self]
  -- the top bit of a step tells which branch was taken
  have low : (x ^^^ y).getLsbD 0 = false := by
    by_contra hset
    rw [bitStep, if_pos (by simpa using hset)] at cancels
    have top := congrArg (fun z => z.getLsbD (w - 1)) cancels
    simp only [BitVec.getLsbD_xor, htop, BitVec.getLsbD_ushiftRight] at top
    rw [← BitVec.getLsbD_xor, BitVec.getLsbD_of_ge _ _ (by omega)] at top
    simp at top
  rw [bitStep, if_neg (by simp [low])] at cancels
  have zero : x ^^^ y = 0#w := by
    refine BitVec.eq_of_getLsbD_eq fun i hi => ?_
    cases i with
    | zero => simpa using low
    | succ i =>
      have bit := congrArg (fun z => z.getLsbD i) cancels
      simpa [BitVec.getLsbD_ushiftRight, Nat.add_comm 1 i] using bit
  exact BitVec.xor_eq_zero_iff.mp zero

theorem bitSteps_injective {n : ℕ} {x y : BitVec w} (h : bitSteps p n x = bitSteps p n y) : x = y := by
  induction n generalizing x y with
  | zero => exact h
  | succ n ih => exact bitStep_injective htop (ih h)

theorem foldl_feed_injective {bits : List Bool} {c d : BitVec w}
    (h : bits.foldl (feed p) c = bits.foldl (feed p) d) : c = d := by
  induction bits generalizing c d with
  | nil => exact h
  | cons bit rest ih => exact BitVec.xor_left_inj _ |>.mp (bitStep_injective htop (ih h))

/-- A burst that is no longer than the register changes it. -/
theorem burst_feed {xs ys : List Bool} (hburst : Burst w xs ys) (c : BitVec w) :
    xs.foldl (feed p) c ≠ ys.foldl (feed p) c := by
  obtain ⟨pre, a, b, post, rfl, rfl, hlength, hsize, hne⟩ := hburst
  intro h
  simp only [List.foldl_append] at h
  have inside := foldl_feed_injective htop h
  have hsize' : b.length ≤ w := by omega
  rw [foldl_feed p _ a hsize, foldl_feed p _ b hsize', hlength] at inside
  have packed := BitVec.xor_right_inj _ |>.mp (bitSteps_injective htop inside)
  exact hne (pack_injective hlength hsize packed)

/-- The checksum tells apart any two byte strings that differ in one such burst. -/
theorem checksum_burst (hw : 8 ≤ w) {xs ys : List (BitVec 8)}
    (hburst : Burst w (streamBits xs) (streamBits ys)) : checksum p xs ≠ checksum p ys := by
  intro h
  have registers := BitVec.not_inj.mp h
  rw [foldl_byteStep p _ xs hw, foldl_byteStep p _ ys hw] at registers
  exact burst_feed htop hburst _ registers

end Injective

end ModbusCrawler.BurstErrors
