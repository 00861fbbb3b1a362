import ModbusCrawler.MeasExecutor

set_option autoImplicit false

/-!
# How a measurement is classified

The integer that the words of a register spell, against what the task of
`add_schedule` records for it.
-/
namespace ModbusCrawler.Classification
open FailStop ModbusTypes ModbusSlave MeasConfig MeasReporter MeasExecutor

variable {D : Type}

def littleValue : List UInt16 → ℕ
  | [] => 0
  | word :: words => word.toNat + 65536 * littleValue words

/-- The words of a value in the configured order, in plain binary. -/
def plainValue (endianess : WordEndianess) (words : List UInt16) : ℕ :=
  littleValue (if endianess = .little then words else words.reverse)

/-- Two's complement for the signed types. -/
def encoded (vt : ValueType) (endianess : WordEndianess) (words : List UInt16) : ℤ :=
  if valueSigned vt then (BitVec.ofNat (16 * regSize vt) (plainValue endianess words)).toInt
  else plainValue endianess words

theorem littleValue_lt (words : List UInt16) : littleValue words < 2 ^ (16 * words.length) := by
  induction words with
  | nil => simp [littleValue]
  | cons word words ih =>
    have word_lt : word.toNat < 65536 := word.toNat_lt
    rw [littleValue, List.length_cons, Nat.mul_add, Nat.pow_add]
    omega

theorem plainValue_lt (endianess : WordEndianess) (words : List UInt16) :
    plainValue endianess words < 2 ^ (16 * words.length) := by
  unfold plainValue
  split_ifs
  · exact littleValue_lt words
  · simpa using littleValue_lt words.reverse

/-! The words side by side, as `to_val` puts them together. -/

theorem append_toNat {v : ℕ} (high : BitVec v) (low : UInt16) :
    (high ++ low.toBitVec).toNat = low.toNat + 65536 * high.toNat := by
  rw [BitVec.toNat_append, ← Nat.shiftLeft_add_eq_or_of_lt low.toBitVec.isLt, Nat.shiftLeft_eq]
  change high.toNat * 65536 + low.toNat = _
  omega

theorem twoWords_toBitVec (high low : UInt16) :
    ((high.toUInt32.toInt32 <<< 16) ||| low.toUInt32.toInt32).toBitVec =
      high.toBitVec ++ low.toBitVec := by
  have joined : (high.toBitVec ++ low.toBitVec).setWidth 32 = _ :=
    BitVec.setWidth_append_eq_shiftLeft_setWidth_or
  rw [BitVec.setWidth_eq] at joined
  rw [joined]
  rfl

theorem fourWords_toBitVec (w3 w2 w1 w0 : UInt16) :
    ((w3.toUInt64.toInt64 <<< 48) ||| (w2.toUInt64.toInt64 <<< 32) |||
      (w1.toUInt64.toInt64 <<< 16) ||| w0.toUInt64.toInt64).toBitVec =
      w3.toBitVec ++ w2.toBitVec ++ w1.toBitVec ++ w0.toBitVec := by
  have joined : (w3.toBitVec ++ w2.toBitVec ++ w1.toBitVec ++ w0.toBitVec).setWidth 64 = _ :=
    BitVec.setWidth_append_append_append_eq_shiftLeft_setWidth_or
  rw [BitVec.setWidth_eq] at joined
  rw [joined]
  rfl

theorem oneWord_toInt (w0 : UInt16) :
    w0.toInt16.toInt64.toInt = (BitVec.ofNat 16 (littleValue [w0])).toInt := by
  have spelled : BitVec.ofNat 16 (littleValue [w0]) = w0.toBitVec := by
    apply BitVec.eq_of_toNat_eq
    simp [littleValue]
  rw [spelled, Int16.toInt_toInt64]
  rfl

theorem twoWords_toInt (high low : UInt16) :
    (((high.toUInt32.toInt32 <<< 16) ||| low.toUInt32.toInt32).toInt64).toInt =
      (BitVec.ofNat 32 (littleValue [low, high])).toInt := by
  have spelled : BitVec.ofNat 32 (littleValue [low, high]) = high.toBitVec ++ low.toBitVec := by
    have below : littleValue [low, high] < 2^32 := littleValue_lt [low, high]
    apply BitVec.eq_of_toNat_eq
    rw [append_toNat, BitVec.toNat_ofNat, Nat.mod_eq_of_lt below]
    simp [littleValue]
  rw [spelled, Int32.toInt_toInt64, ← twoWords_toBitVec]
  rfl

theorem fourWords_toInt (w3 w2 w1 w0 : UInt16) :
    ((w3.toUInt64.toInt64 <<< 48) ||| (w2.toUInt64.toInt64 <<< 32) |||
      (w1.toUInt64.toInt64 <<< 16) ||| w0.toUInt64.toInt64).toInt =
      (BitVec.ofNat 64 (littleValue [w0, w1, w2, w3])).toInt := by
  have spelled : BitVec.ofNat 64 (littleValue [w0, w1, w2, w3]) =
      w3.toBitVec ++ w2.toBitVec ++ w1.toBitVec ++ w0.toBitVec := by
    have below : littleValue [w0, w1, w2, w3] < 2^64 := littleValue_lt [w0, w1, w2, w3]
    apply BitVec.eq_of_toNat_eq
    rw [append_toNat, append_toNat, append_toNat, BitVec.toNat_ofNat, Nat.mod_eq_of_lt below]
    simp [littleValue]
  rw [spelled, ← fourWords_toBitVec]
  rfl

/-- Sign-extended from the width of the words, whichever width the shifts were done at. -/
theorem toValLe_words {size : ℕ} (hsize : size = 1 ∨ size = 2 ∨ size = 4) {words : List UInt16}
    (hlength : words.length = size) : ∃ val, toValLe words size = some val ∧
      val.toInt = (BitVec.ofNat (16 * size) (littleValue words)).toInt := by
  rcases hsize with rfl | rfl | rfl
  · obtain ⟨w0, rfl⟩ := List.length_eq_one_iff.mp hlength
    exact ⟨_, rfl, oneWord_toInt w0⟩
  · obtain ⟨w0, w1, rfl⟩ := List.length_eq_two.mp hlength
    exact ⟨_, rfl, twoWords_toInt w1 w0⟩
  · match words, hlength with
    | [w0, w1, w2, w3], _ => exact ⟨_, rfl, fourWords_toInt w3 w2 w1 w0⟩

theorem toValBe_reverse {size : ℕ} (hsize : size = 1 ∨ size = 2 ∨ size = 4) {words : List UInt16}
    (hlength : words.length = size) : toValBe words size = toValLe words.reverse size := by
  rcases hsize with rfl | rfl | rfl
  · obtain ⟨w0, rfl⟩ := List.length_eq_one_iff.mp hlength
    simp [toValBe, toValLe, reg]
  · obtain ⟨w0, w1, rfl⟩ := List.length_eq_two.mp hlength
    simp [toValBe, toValLe, reg]
  · match words, hlength with
    | [w0, w1, w2, w3], _ => simp [toValBe, toValLe, reg]

/-- What the words of a read become: always sign-extended. -/
theorem toVal_words (vt : ValueType) (hvalid : vt ≠ .invalid) (endianess : WordEndianess)
    (words : List UInt16) (hlength : words.length = regSize vt) :
    ∃ val, toVal endianess words (regSize vt) = some val ∧
      val.toInt = (BitVec.ofNat (16 * regSize vt) (plainValue endianess words)).toInt := by
  have hsize := regSize_supported hvalid
  unfold toVal plainValue
  split_ifs
  · exact toValLe_words hsize hlength
  · rw [toValBe_reverse hsize hlength]
    exact toValLe_words hsize (List.length_reverse.trans hlength)

/-- The values of the narrow unsigned types whose top bit is set. -/
def SignExtended (vt : ValueType) (n : ℤ) : Prop :=
  (vt = .uint16 ∨ vt = .uint32) ∧ 2 ^ (16 * regSize vt) ≤ 2 * n

instance (vt : ValueType) (n : ℤ) : Decidable (SignExtended vt n) :=
  inferInstanceAs (Decidable (_ ∧ _))

def seen (vt : ValueType) (n : ℤ) : ℤ :=
  if SignExtended vt n then n + 2^64 - 2 ^ (16 * regSize vt) else n

def thresholdValue : Suval → ℤ
  | .signed sval => sval.toInt
  | .unsigned uval => uval.toNat

variable [Doubles D]

/-- The outcome of an integer between two thresholds. -/
def outcome (n low high : ℤ) (scaleFactor : D) : SampleType × D :=
  if n < low then (.underflow, Doubles.quietNaN)
  else if high < n then (.overflow, Doubles.quietNaN)
  else (.regular, Doubles.mul (Doubles.ofInt n) scaleFactor)

theorem toUInt64_toNat (val : Int64) : (val.toUInt64.toNat : ℤ) = val.toInt % 2^64 := by
  have bits : val.toInt = Int.bmod val.toUInt64.toNat (2^64) := BitVec.toInt_eq_toNat_bmod _
  have below : val.toUInt64.toNat < 2^64 := val.toUInt64.toNat_lt
  change _ = _ % ((2^64 : ℕ) : ℤ)
  rw [bits, Int.bmod_emod]
  omega

theorem unsigned_seen {vt : ValueType} (hvalid : vt ≠ .invalid) (hsigned : valueSigned vt = false)
    {val : Int64} {n : ℕ} (hn : n < 2 ^ (16 * regSize vt))
    (hval : val.toInt = (BitVec.ofNat (16 * regSize vt) n).toInt) :
    (val.toUInt64.toNat : ℤ) = seen vt n := by
  rw [toUInt64_toNat, hval, BitVec.toInt_eq_toNat_cond, BitVec.toNat_ofNat, Nat.mod_eq_of_lt hn]
  unfold seen SignExtended
  cases vt with
  | invalid => exact absurd rfl hvalid
  | int16 => cases hsigned
  | int32 => cases hsigned
  | int64 => cases hsigned
  | uint16 => simp [regSize] at *; omega
  | uint32 => simp [regSize] at *; omega
  | uint64 => simp [regSize] at *; omega

def readRequest (source : SourceRegister D) : Request :=
  if source.regType = .holding then .readRegisters source.address (regSize source.valueType)
  else .readInputRegisters source.address (regSize source.valueType)

/-- A successful read: the device stores as many words as it was asked for. -/
structure Reads (device : Device) (log : Log Request Reply) (source : SourceRegister D)
    (words : List UInt16) : Prop where
  answered : (device log (readRequest source)).apiRv.toInt = regSize source.valueType
  stored : (device log (readRequest source)).regs = words
  length : words.length = regSize source.valueType

theorem regSize_accepted {vt : ValueType} (hvalid : vt ≠ .invalid) :
    regsizeSupported (regSize vt) = true := by
  cases vt with
  | invalid => exact absurd rfl hvalid
  | _ => rfl

omit [Doubles D] in
theorem readRegister_run {device : Device} {log : Log Request Reply} {source : SourceRegister D}
    {val : Int64} (hvalid : source.valueType ≠ .invalid)
    (hanswered : (device log (readRequest source)).apiRv.toInt = regSize source.valueType)
    (hval : toVal source.endianess (device log (readRequest source)).regs
      (regSize source.valueType) = some val) (id : ℤ) (name : String) :
    (readRegister (RTUSlave.concept device id name) source).run log =
      .ok val (log ++ [(readRequest source, device log (readRequest source))]) := by
  have supported := regSize_accepted hvalid
  unfold readRegister readRequest at *
  split_ifs at * with hholding
  · change (RTUSlave.readTyped _ _ _ _ _ _).run log = _
    rw [readTyped_run _ _ _ _ _ _ _ supported]
    simp only [hanswered, if_true, hval]
  · change (RTUSlave.readTyped _ _ _ _ _ _).run log = _
    rw [readTyped_run _ _ _ _ _ _ _ supported]
    simp only [hanswered, if_true, hval]

omit [Doubles D] in
theorem readRegister_reads {device : Device} {log : Log Request Reply} {source : SourceRegister D}
    {words : List UInt16} (hvalid : source.valueType ≠ .invalid)
    (hread : Reads device log source words) (id : ℤ) (name : String) : ∃ val log',
    (readRegister (RTUSlave.concept device id name) source).run log = .ok val log' ∧
      val.toInt = (BitVec.ofNat (16 * regSize source.valueType)
        (plainValue source.endianess words)).toInt := by
  obtain ⟨val, hval, value⟩ := toVal_words source.valueType hvalid source.endianess words hread.length
  obtain ⟨answered, rfl, _⟩ := hread
  exact ⟨val, _, readRegister_run hvalid answered hval id name, value⟩

/-- Thresholds of the right type: no accessor throws, and integers are compared. -/
theorem classify_outcome {source : SourceRegister D}
    (hmin : source.minReadValue.Fits source.valueType)
    (hmax : source.maxReadValue.Fits source.valueType) (val : Int64) :
    classify source val = .ok (outcome
      (if valueSigned source.valueType then val.toInt else val.toUInt64.toNat)
      (thresholdValue source.minReadValue) (thresholdValue source.maxReadValue)
      source.scaleFactor) := by
  unfold classify
  cases hsigned : valueSigned source.valueType with
  | true =>
    rw [if_pos rfl, if_pos rfl]
    cases hlow : source.minReadValue with
    | unsigned low => rw [hlow] at hmin; rw [hmin.1] at hsigned; cases hsigned
    | signed low =>
      cases hhigh : source.maxReadValue with
      | unsigned high => rw [hhigh] at hmax; rw [hmax.1] at hsigned; cases hsigned
      | signed high =>
        change (if val < low then _ else if val > high then _ else _) = _
        unfold outcome thresholdValue
        simp only [Int64.lt_iff_toInt_lt, gt_iff_lt]
        split_ifs <;> rfl
  | false =>
    rw [if_neg Bool.false_ne_true, if_neg Bool.false_ne_true]
    cases hlow : source.minReadValue with
    | signed low => rw [hlow] at hmin; rw [hmin.1] at hsigned; cases hsigned
    | unsigned low =>
      cases hhigh : source.maxReadValue with
      | signed high => rw [hhigh] at hmax; rw [hmax.1] at hsigned; cases hsigned
      | unsigned high =>
        change (if val.toUInt64 < low then _ else if val.toUInt64 > high then _ else _) = _
        unfold outcome thresholdValue
        simp only [UInt64.lt_iff_toNat_lt, gt_iff_lt, Int.ofNat_lt]
        split_ifs <;> rfl

theorem classify_eq {source : SourceRegister D} {val : Int64} {n : ℕ}
    (hvalid : source.valueType ≠ .invalid) (hmin : source.minReadValue.Fits source.valueType)
    (hmax : source.maxReadValue.Fits source.valueType) (hn : n < 2 ^ (16 * regSize source.valueType))
    (hval : val.toInt = (BitVec.ofNat (16 * regSize source.valueType) n).toInt) :
    classify source val = .ok (outcome
      (if valueSigned source.valueType then val.toInt else seen source.valueType n)
      (thresholdValue source.minReadValue) (thresholdValue source.maxReadValue)
      source.scaleFactor) := by
  rw [classify_outcome hmin hmax]
  cases hsigned : valueSigned source.valueType with
  | true => rfl
  | false =>
    rw [if_neg Bool.false_ne_true, if_neg Bool.false_ne_true, unsigned_seen hvalid hsigned hn hval]

/-- The integer that a read spells is classified as the one that the task sees. -/
theorem measure_eq {device : Device} {log : Log Request Reply} {source : SourceRegister D}
    {words : List UInt16} (hvalid : source.valueType ≠ .invalid)
    (hmin : source.minReadValue.Fits source.valueType)
    (hmax : source.maxReadValue.Fits source.valueType)
    (hread : Reads device log source words) (id : ℤ) (name : String) :
    (MeasExecutor.measure (RTUSlave.concept device id name) source log).1 =
      outcome (seen source.valueType (encoded source.valueType source.endianess words))
        (thresholdValue source.minReadValue) (thresholdValue source.maxReadValue)
        source.scaleFactor := by
  obtain ⟨val, log', hrun, hval⟩ := readRegister_reads hvalid hread id name
  have hn : plainValue source.endianess words < 2 ^ (16 * regSize source.valueType) := by
    rw [← hread.length]
    exact plainValue_lt source.endianess words
  have same : (if valueSigned source.valueType then val.toInt
      else seen source.valueType (plainValue source.endianess words)) =
      seen source.valueType (encoded source.valueType source.endianess words) := by
    unfold encoded
    split_ifs with hsigned
    · rw [hval, seen, if_neg]
      rintro ⟨hvt | hvt, _⟩ <;> rw [hvt] at hsigned <;> cases hsigned
    · rfl
  unfold MeasExecutor.measure
  rw [hrun]
  dsimp only
  rw [classify_eq hvalid hmin hmax hn hval, same]

theorem Data.add_periodOverflows (data : Data D) (now : ℤ) (value : D) (sampleType : SampleType) :
    (data.add now value sampleType).periodOverflows =
      data.periodOverflows + if sampleType = .overflow then 1 else 0 := by
  cases sampleType <;> rfl

theorem recorded_overflow_iff {σ : Type} {slave : SlaveConcept σ} {meas : Measure D}
    {nowsecs : ℤ} {system : System σ D} {result result' : SampleType × D}
    (hconfigured : (system.reporter.find (taskKey slave meas)).isSome)
    (h : Recorded slave meas nowsecs system result)
    (h' : Recorded slave meas nowsecs system result') :
    result.1 = .overflow ↔ result'.1 = .overflow := by
  obtain ⟨system1, hrun, hfind⟩ := h
  obtain ⟨system2, hrun', hfind'⟩ := h'
  rw [hrun] at hrun'
  injection hrun' with _ hsystem
  subst hsystem
  obtain ⟨measured, hmeasured⟩ := Option.isSome_iff_exists.mp hconfigured
  have both := (hfind (taskKey slave meas)).symm.trans (hfind' (taskKey slave meas))
  rw [if_pos rfl, if_pos rfl, hmeasured] at both
  have counts := congrArg (fun r => r.data.periodOverflows) (Option.some.inj both)
  simp only [Data.add_periodOverflows] at counts
  constructor
  · intro ho
    by_contra hn
    rw [if_pos ho, if_neg hn] at counts
    omega
  · intro ho
    by_contra hn
    rw [if_pos ho, if_neg hn] at counts
    omega

theorem outcome_overflow {n low high : ℤ} {scaleFactor : D} :
    (outcome n low high scaleFactor).1 = .overflow ↔ low ≤ n ∧ high < n := by
  unfold outcome
  split_ifs with hlow hhigh
  · simp only [false_iff, not_and]
    omega
  · simp only [true_iff]
    omega
  · simp only [false_iff, not_and]
    omega

theorem seen_above {vt : ValueType} {n : ℤ} (h : SignExtended vt n) :
    numericMax vt < seen vt n := by
  unfold seen
  rw [if_pos h]
  obtain ⟨hvt | hvt, htop⟩ := h <;> subst hvt <;> simp [regSize, numericMax] at * <;> omega

section Records
variable {j : Json D} {source : SourceRegister D} {errno errno' : Errno}

theorem measTask_records (haccepted : (sourceFromJson j).run errno = .ok source errno')
    (device : Device) (id : ℤ) (name : String) {meas : Measure D} (hmeas : meas.source = source)
    (nowsecs : ℤ) {system : System (Log Request Reply) D} {words : List UInt16}
    (hread : Reads device system.sources source words)
    (hconfigured : (system.reporter.find (⟨name, id⟩, meas.name)).isSome) :
    Recorded (RTUSlave.concept device id name) meas nowsecs system
      (outcome (seen source.valueType (encoded source.valueType source.endianess words))
        (thresholdValue source.minReadValue) (thresholdValue source.maxReadValue)
        source.scaleFactor) := by
  obtain ⟨_, _, hvalid, hmin, hmax⟩ := sourceFromJson_ok haccepted
  subst hmeas
  rw [← measure_eq hvalid hmin hmax hread id name]
  exact measTask_recorded _ meas nowsecs system hconfigured

theorem fits_le {vt : ValueType} {value : Suval} (h : value.Fits vt) :
    thresholdValue value ≤ numericMax vt := by
  cases value with
  | signed sval => exact h.2.2
  | unsigned uval => exact h.2

/-- The integer that the words spell is what is classified, except that a narrow unsigned
    value with its top bit set always counts as an overflow. -/
theorem measTask_records_iff (haccepted : (sourceFromJson j).run errno = .ok source errno')
    (device : Device) (id : ℤ) (name : String) {meas : Measure D} (hmeas : meas.source = source)
    (nowsecs : ℤ) {system : System (Log Request Reply) D} {words : List UInt16}
    (hread : Reads device system.sources source words)
    (hconfigured : (system.reporter.find (⟨name, id⟩, meas.name)).isSome) :
    let n := encoded source.valueType source.endianess words
    let low := thresholdValue source.minReadValue
    let high := thresholdValue source.maxReadValue
    Recorded (RTUSlave.concept device id name) meas nowsecs system
      (outcome n low high source.scaleFactor) ↔
      ¬ SignExtended source.valueType n ∨ (low ≤ n ∧ high < n) := by
  intro n low high
  have recorded := measTask_records haccepted device id name hmeas nowsecs hread hconfigured
  obtain ⟨_, _, hvalid, hmin, hmax⟩ := sourceFromJson_ok haccepted
  by_cases hsign : SignExtended source.valueType n
  · have above := seen_above hsign
    have low_le := fits_le hmin
    have high_le := fits_le hmax
    have overflows : low ≤ seen source.valueType n ∧ high < seen source.valueType n := by
      constructor
      · exact Int.le_trans low_le (Int.le_of_lt above)
      · exact Int.lt_of_le_of_lt high_le above
    constructor
    · intro expected
      have same := recorded_overflow_iff hconfigured recorded expected
      rw [outcome_overflow, outcome_overflow] at same
      exact .inr (same.mp overflows)
    · rintro (hnot | hover)
      · exact absurd hsign hnot
      · have same : outcome n low high source.scaleFactor =
            outcome (seen source.valueType n) low high source.scaleFactor := by
          rw [outcome, if_neg (by omega), if_pos hover.2, outcome, if_neg (by omega),
            if_pos overflows.2]
        rw [same]
        exact recorded
  · have same : seen source.valueType n = n := if_neg hsign
    constructor
    · exact fun _ => .inl hsign
    · intro _
      rw [← same]
      exact recorded

end Records

def wordSource : Json Float := .object [("address", .integer 0), ("endianess", .string "little"),
  ("reg_type", .string "holding"), ("value_type", .string "UINT16")]

def wordMeasure : Measure Float where
  name := "level"
  source :=
    { address := 0
      endianess := .little
      regType := .holding
      valueType := .uint16
      minReadValue := .unsigned 0
      maxReadValue := .unsigned 65535
      scaleFactor := Doubles.ofInt 1 }

def constantDevice (word : UInt16) : Device := fun _ request =>
  match request with
  | .readRegisters _ _ => { apiRv := 1, regs := [word] }
  | _ => { apiRv := -1 }

def wordSystem : System (Log Request Reply) Float where
  sources := []
  reporter :=
    { results := (∅ : Std.TreeMap ServerKey _ ServerKey.order).insert ⟨"tank", 1⟩
        ((∅ : Std.TreeMap String (Result Float) compare).insert "level"
          { descriptor := ⟨5, false, false⟩ })
      outFolder := "/tmp" }

theorem wordSource_accepted :
    (sourceFromJson wordSource).run .other = .ok wordMeasure.source .other := by
  rfl

theorem wordSystem_configured :
    (wordSystem.reporter.find (⟨"tank", 1⟩, wordMeasure.name)).isSome := by
  simp [wordSystem, wordMeasure, Reporter.find, NestedMap.lookup_insert]

theorem wordSystem_reads (word : UInt16) :
    Reads (constantDevice word) wordSystem.sources wordMeasure.source [word] := ⟨rfl, rfl, rfl⟩

theorem measTask_records_five :
    Recorded (RTUSlave.concept (constantDevice 5) 1 "tank") wordMeasure 946684800 wordSystem
      (.regular, Doubles.mul (Doubles.ofInt 5) (Doubles.ofInt 1)) :=
  (measTask_records_iff wordSource_accepted (constantDevice 5) 1 "tank" rfl 946684800
    (wordSystem_reads 5) wordSystem_configured).mpr (.inl (by decide))

/-- A word of 32768 lies within the range of its type, and it is counted as an overflow. -/
theorem measTask_topBit_fails :
    encoded .uint16 .little [32768] = 32768 ∧
    ¬ Recorded (RTUSlave.concept (constantDevice 32768) 1 "tank") wordMeasure 946684800 wordSystem
      (outcome 32768 (thresholdValue wordMeasure.source.minReadValue)
        (thresholdValue wordMeasure.source.maxReadValue) wordMeasure.source.scaleFactor) := by
  refine ⟨by decide, fun expected => ?_⟩
  have recorded := measTask_records wordSource_accepted (constantDevice 32768) 1 "tank" rfl
    946684800 (wordSystem_reads 32768) wordSystem_configured
  have same := recorded_overflow_iff wordSystem_configured recorded expected
  rw [outcome_overflow, outcome_overflow] at same
  have overflows := same.mp (by decide)
  exact absurd overflows (by decide)

end ModbusCrawler.Classification
