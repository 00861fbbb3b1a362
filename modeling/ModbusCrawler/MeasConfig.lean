import ModbusCrawler.CNumerals
import ModbusCrawler.ModbusTypes

set_option autoImplicit false

/-!
# The measurement configuration: `crawler/meas_config.h` and `meas_config.cpp`

A JSON value is what the parser delivers, and an object is the list of its
members. Reading a threshold leaves its mark in `errno`, so the functions that
reach one carry it as their state.
-/
namespace ModbusCrawler.MeasConfig
open Std CNumerals ModbusTypes

inductive Json (D : Type) where
  | null
  | boolean (b : Bool)
  | integer (n : ℤ)
  | floating (d : D)
  | string (s : String)
  | array (elements : List (Json D))
  | object (members : List (String × Json D))

variable {D : Type}

namespace Json

def find (j : Json D) (key : String) : Option (Json D) :=
  match j with
  | .object members => members.lookup key
  | _ => none

def typeName : Json D → String
  | .null => "null"
  | .boolean _ => "boolean"
  | .integer _ | .floating _ => "number"
  | .string _ => "string"
  | .array _ => "array"
  | .object _ => "object"

def at_ (j : Json D) (key : String) : Except Exception (Json D) :=
  match j with
  | .object members =>
    match members.lookup key with
    | some value => .ok value
    | none => .error (.outOfRange ("[json.exception.out_of_range.403] key '" ++ key ++ "' not found"))
  | _ => .error (.typeError ("[json.exception.type_error.304] cannot use at() with " ++ j.typeName))

def wrongType {α : Type} (expected : String) (j : Json D) : Except Exception α :=
  .error (.typeError ("[json.exception.type_error.302] type must be " ++ expected ++ ", but is " ++
    j.typeName))

def getBool : Json D → Except Exception Bool
  | .boolean b => .ok b
  | j => j.wrongType "boolean"

def getString : Json D → Except Exception String
  | .string s => .ok s
  | j => j.wrongType "string"

def getArray : Json D → Except Exception (List (Json D))
  | .array elements => .ok elements
  | j => j.wrongType "array"

/-- `get<E>` of an enumeration: a value that is not in the table is the first one. -/
def getEnum {E : Type} (invalid : E) (table : List (String × E)) (j : Json D) : E :=
  match j with
  | .string s => (table.lookup s).getD invalid
  | _ => invalid

section Numbers
variable [Doubles D]

def getInt : Json D → Except Exception ℤ
  | .integer n => .ok (Int32.ofInt n).toInt
  | .floating d => .ok (Int32.ofInt (Doubles.toInt d)).toInt
  | .boolean b => .ok b.toInt
  | j => j.wrongType "number"

/-- `get<Rep>` of the durations, whose representation has 64 bits. -/
def getCount : Json D → Except Exception ℤ
  | .integer n => .ok (Int64.ofInt n).toInt
  | .floating d => .ok (Int64.ofInt (Doubles.toInt d)).toInt
  | j => j.wrongType "number"

def getDouble : Json D → Except Exception D
  | .integer n => .ok (Doubles.ofInt n)
  | .floating d => .ok d
  | j => j.wrongType "number"

end Numbers

/-- `j.find(key)` and `get_to` if it is there. -/
def getOr {α : Type} (j : Json D) (key : String) (get : Json D → Except Exception α)
    (default : α) : Except Exception α :=
  match j.find key with
  | some value => get value
  | none => .ok default

end Json

/-- Whether `errno` is `ERANGE`. -/
inductive Errno where
  | other | erange
  deriving DecidableEq, Repr

abbrev Parse := EStateM Exception Errno

def lift {α : Type} (value : Except Exception α) : Parse α :=
  match value with
  | .ok a => pure a
  | .error e => throw e

inductive Suval where
  | signed (sval : Int64)
  | unsigned (uval : UInt64)
  deriving DecidableEq

namespace Suval

def asSigned : Suval → Except Exception Int64
  | .signed sval => .ok sval
  | .unsigned _ => .error (.runtimeError "Current value is not SIGNED")

def asUnsigned : Suval → Except Exception UInt64
  | .unsigned uval => .ok uval
  | .signed _ => .error (.runtimeError "Current value is not UNSIGNED")

def ofLimit (limit : ValueType → ℤ) (vt : ValueType) : Suval :=
  if valueSigned vt then .signed (Int64.ofInt (limit vt)) else .unsigned (UInt64.ofInt (limit vt))

def assignMin : ValueType → Suval := ofLimit numericMin

def assignMax : ValueType → Suval := ofLimit numericMax

def setErange (erange : Bool) : Parse Unit := if erange then set Errno.erange else pure ()

/-- `errno == ERANGE || !value_in_range(value, vt)`. -/
def storeInRange (s : String) (vt : ValueType) (inRange : Bool) (value : Suval) : Parse Suval := do
  if (← get) = .erange || !inRange then
    throw (.rangeError (s ++ " OOR for " ++ vt.toString))
  pure value

/-- The value of the unsigned case; after a minus sign it is never used. -/
def parseUnsigned (s : String) : Parse UInt64 :=
  match s.toList.dropWhile (fun c => c = ' ') with
  | '-' :: _ => do
    set Errno.erange
    pure 0
  | _ => do
    let parsed := strtoumax (cString s)
    setErange parsed.2
    pure (UInt64.ofInt parsed.1)

def assignFromString (s : String) (vt : ValueType) : Parse Suval :=
  if valueSigned vt then do
    let parsed := strtoimax (cString s)
    setErange parsed.2
    let signedValue := Int64.ofInt parsed.1
    storeInRange s vt (valueInRange Int64.ofInt signedValue vt) (.signed signedValue)
  else do
    let unsignedValue ← parseUnsigned s
    storeInRange s vt (valueInRange UInt64.ofInt unsignedValue vt) (.unsigned unsignedValue)

end Suval

structure ModbusServer where
  modbusId : ℤ
  name : String
  serialDevice : String := ""
  enabled : Bool := true
  lineConfig : String := "9600:8:N:1"
  answeringTime : ℤ := 500
  samplingPeriod : ℤ := 5
  deriving DecidableEq

structure SourceRegister (D : Type) where
  address : ℤ
  endianess : WordEndianess
  regType : Regtype
  valueType : ValueType
  minReadValue : Suval
  maxReadValue : Suval
  scaleFactor : D
  randomMeanDev : String := ""

structure Measure (D : Type) where
  name : String
  samplingPeriod : ℤ := 0
  enabled : Bool := true
  accumulating : Bool := false
  reportRawSamples : Bool := false
  source : SourceRegister D

structure Descriptor (D : Type) where
  server : ModbusServer
  measures : List (Measure D)

abbrev ConfigurationMap (D : Type) := TreeMap ℤ (Descriptor D) compare

def wordEndianessTable : List (String × WordEndianess) := [("little", .little), ("big", .big)]

def regtypeTable : List (String × Regtype) := [("holding", .holding), ("input", .input)]

def valueTypeTable : List (String × ValueType) :=
  [("INT16", .int16), ("UINT16", .uint16), ("INT32", .int32), ("UINT32", .uint32),
    ("INT64", .int64), ("UINT64", .uint64)]

section FromJson
variable [Doubles D]

def serverFromJson (j : Json D) : Except Exception ModbusServer := do
  let enabled ← j.getOr "enabled" Json.getBool true
  let samplingPeriod ← j.getOr "sampling_period" Json.getCount 5
  let serialDevice ← j.getOr "serial_device" Json.getString ""
  let modbusId ← (← j.at_ "modbus_id").getInt
  let name ← (← j.at_ "name").getString
  let lineConfig ← j.getOr "line_config" Json.getString "9600:8:N:1"
  let answeringTime ← j.getOr "answering_time_ms" Json.getCount 500
  pure ⟨modbusId, name, serialDevice, enabled, lineConfig, answeringTime, samplingPeriod⟩

def threshold (j : Json D) (key : String) (limit : ValueType → Suval) (vt : ValueType) :
    Parse Suval :=
  match j.find key with
  | some value => do
    let s ← lift value.getString
    Suval.assignFromString s vt
  | none => pure (limit vt)

def sourceFromJson (j : Json D) : Parse (SourceRegister D) := do
  let address ← lift (do (← j.at_ "address").getInt)
  let endianess := Json.getEnum .invalid wordEndianessTable (← lift (j.at_ "endianess"))
  lift (checkEnum .invalid endianess)
  let regType := Json.getEnum .invalid regtypeTable (← lift (j.at_ "reg_type"))
  lift (checkEnum .invalid regType)
  let valueType := Json.getEnum .invalid valueTypeTable (← lift (j.at_ "value_type"))
  lift (checkEnum .invalid valueType)
  let scaleFactor ← lift (j.getOr "scale_factor" Json.getDouble (Doubles.ofInt 1))
  let minReadValue ← threshold j "min_read_value" Suval.assignMin valueType
  let maxReadValue ← threshold j "max_read_value" Suval.assignMax valueType
  let randomMeanDev ← lift (j.getOr "random_mean_dev" Json.getString "")
  pure ⟨address, endianess, regType, valueType, minReadValue, maxReadValue, scaleFactor,
    randomMeanDev⟩

def measureFromJson (j : Json D) : Parse (Measure D) := do
  let name ← lift (do (← j.at_ "name").getString)
  let samplingPeriod ← lift (j.getOr "sampling_period" Json.getCount 0)
  let enabled ← lift (j.getOr "enabled" Json.getBool true)
  let accumulating ← lift (j.getOr "accumulating" Json.getBool false)
  let reportRawSamples ← lift (j.getOr "report_raw_samples" Json.getBool false)
  let source ← sourceFromJson (← lift (j.at_ "source"))
  pure ⟨name, samplingPeriod, enabled, accumulating, reportRawSamples, source⟩

def descriptorFromJson (j : Json D) : Parse (Descriptor D) := do
  let server ← lift (do serverFromJson (← j.at_ "server"))
  let measures ← (← lift (do (← j.at_ "measures").getArray)).mapM measureFromJson
  pure ⟨server, measures⟩

end FromJson

def inheritPeriod (server : ModbusServer) (m : Measure D) : Measure D :=
  if m.samplingPeriod = 0 then { m with samplingPeriod := server.samplingPeriod } else m

def effective (desc : Descriptor D) : Descriptor D where
  server := desc.server
  measures := (desc.measures.filter (fun m => m.enabled)).map (inheritPeriod desc.server)

def insertAll : List (Descriptor D) → ConfigurationMap D → Except Exception (ConfigurationMap D)
  | [], descriptors => .ok descriptors
  | desc :: rest, descriptors =>
    if !desc.server.enabled then insertAll rest descriptors
    else if descriptors.contains desc.server.modbusId then
      .error (.invalidArgument ("Duplicate Modbus ID: " ++ toString desc.server.modbusId))
    else insertAll rest (descriptors.insert desc.server.modbusId (effective desc))

/-- `j.get<std::vector<descriptor_t>>()` of the parsed file. -/
def decode [Doubles D] (document : Except Exception (Json D)) : Parse (List (Descriptor D)) := do
  let j ← lift document
  (← lift j.getArray).mapM descriptorFromJson

def readConfig [Doubles D] (document : Except Exception (Json D)) : Parse (ConfigurationMap D) := do
  let descs ← decode document
  lift (insertAll descs ∅)

theorem bind_ok {ε τ α β : Type} {first : EStateM ε τ α} {next : α → EStateM ε τ β} {s s' : τ}
    {b : β} (h : (first >>= next).run s = .ok b s') :
    ∃ a s1, first.run s = .ok a s1 ∧ (next a).run s1 = .ok b s' := by
  rw [EStateM.run_bind] at h
  cases hfirst : first.run s with
  | ok a s1 =>
    rw [hfirst] at h
    exact ⟨a, s1, rfl, h⟩
  | error e s1 =>
    rw [hfirst] at h
    cases h

theorem lift_ok {α : Type} {value : Except Exception α} {a : α} {errno errno' : Errno}
    (h : (lift value).run errno = .ok a errno') : value = .ok a := by
  cases value with
  | ok a' =>
    cases h
    rfl
  | error e => cases h

theorem insertAll_mem {descs : List (Descriptor D)} {m m' : ConfigurationMap D}
    (h : insertAll descs m = .ok m') (kept : Descriptor D) :
    (∃ id : ℤ, m'[id]? = some kept) ↔ (∃ id : ℤ, m[id]? = some kept) ∨
      ∃ desc ∈ descs, desc.server.enabled = true ∧ effective desc = kept := by
  induction descs generalizing m with
  | nil =>
    cases h
    simp
  | cons desc rest ih =>
    unfold insertAll at h
    split_ifs at h with hdisabled hduplicate
    · rw [ih h]
      have disabled : desc.server.enabled = false := by simpa using hdisabled
      simp [disabled]
    · have enabled : desc.server.enabled = true := by simpa using hdisabled
      have absent : m[desc.server.modbusId]? = none := by
        rw [TreeMap.contains_eq_isSome_getElem?] at hduplicate
        simpa using hduplicate
      have inserted : (∃ id : ℤ, (m.insert desc.server.modbusId (effective desc))[id]? = some kept) ↔
          (∃ id : ℤ, m[id]? = some kept) ∨ effective desc = kept := by
        constructor
        · rintro ⟨id, hid⟩
          rw [TreeMap.getElem?_insert] at hid
          split_ifs at hid with hsame
          · exact .inr (Option.some.inj hid)
          · exact .inl ⟨id, hid⟩
        · rintro (⟨id, hid⟩ | rfl)
          · refine ⟨id, ?_⟩
            rw [TreeMap.getElem?_insert, if_neg]
            · exact hid
            · intro hsame
              rw [LawfulEqCmp.compare_eq_iff_eq] at hsame
              rw [← hsame, absent] at hid
              cases hid
          · exact ⟨desc.server.modbusId, TreeMap.getElem?_insert_self⟩
      rw [ih h, inserted]
      simp [enabled, or_assoc]

theorem mem_effective {desc : Descriptor D} {meas : Measure D} :
    meas ∈ (effective desc).measures ↔
      ∃ m ∈ desc.measures, m.enabled = true ∧ inheritPeriod desc.server m = meas := by
  simp [effective, and_assoc]

theorem readConfig_ok [Doubles D] {document : Except Exception (Json D)} {errno errno' : Errno}
    {configmap : ConfigurationMap D} (h : (readConfig document).run errno = .ok configmap errno') :
    ∃ descs errno1, (decode document).run errno = .ok descs errno1 ∧
      insertAll descs ∅ = .ok configmap := by
  obtain ⟨descs, errno1, hdecode, hinsert⟩ := bind_ok h
  exact ⟨descs, errno1, hdecode, lift_ok hinsert⟩

def Suval.Fits (vt : ValueType) : Suval → Prop
  | .signed sval => valueSigned vt = true ∧ numericMin vt ≤ sval.toInt ∧ sval.toInt ≤ numericMax vt
  | .unsigned uval => valueSigned vt = false ∧ (uval.toNat : ℤ) ≤ numericMax vt

theorem numericMax_unsigned (vt : ValueType) : 0 ≤ numericMax vt ∧ numericMax vt < 2^64 := by
  cases vt <;> decide

theorem numericRange_signed {vt : ValueType} (h : valueSigned vt = true) :
    -2^63 ≤ numericMin vt ∧ numericMax vt < 2^63 := by
  cases vt <;> first | decide | cases h

theorem valueInRange_signed {vt : ValueType} (hsigned : valueSigned vt = true) (sval : Int64) :
    valueInRange Int64.ofInt sval vt = true ↔
      numericMin vt ≤ sval.toInt ∧ sval.toInt ≤ numericMax vt := by
  obtain ⟨low, high⟩ := numericRange_signed hsigned
  have ordered := numericMin_le_max vt
  have range : valueInRange Int64.ofInt sval vt = inRangeImpl Int64.ofInt vt sval := by
    cases vt <;> first | rfl | cases hsigned
  rw [range, inRangeImpl, Bool.and_eq_true, decide_eq_true_eq, decide_eq_true_eq,
    Int64.le_iff_toInt_le, Int64.le_iff_toInt_le, Int64.toInt_ofInt_of_le (by omega) (by omega),
    Int64.toInt_ofInt_of_le (by omega) (by omega)]

theorem fits_signed {vt : ValueType} {sval : Int64} (hsigned : valueSigned vt = true)
    (h : valueInRange Int64.ofInt sval vt = true) : (Suval.signed sval).Fits vt :=
  ⟨hsigned, (valueInRange_signed hsigned sval).mp h⟩

theorem toNat_ofInt {n : ℤ} (hlo : 0 ≤ n) (hhi : n < 2^64) : ((UInt64.ofInt n).toNat : ℤ) = n := by
  have small : n % 2^64 = n := Int.emod_eq_of_lt hlo hhi
  have below : n.toNat < 2^64 := by omega
  rw [UInt64.ofInt, small, UInt64.toNat_ofNat_of_lt' below, Int.toNat_of_nonneg hlo]

theorem valueInRange_unsigned {vt : ValueType} (hvalid : vt ≠ .invalid)
    (hsigned : valueSigned vt = false) (uval : UInt64) :
    valueInRange UInt64.ofInt uval vt = true ↔ (uval.toNat : ℤ) ≤ numericMax vt := by
  obtain ⟨low, high⟩ := numericMax_unsigned vt
  have range : valueInRange UInt64.ofInt uval vt = inRangeImpl UInt64.ofInt vt uval := by
    cases vt <;> first | rfl | exact absurd rfl hvalid
  rw [range, inRangeImpl, Bool.and_eq_true, decide_eq_true_eq, decide_eq_true_eq,
    UInt64.le_iff_toNat_le, UInt64.le_iff_toNat_le, numericMin_unsigned hsigned]
  constructor
  · rintro ⟨_, hmax⟩
    rw [← toNat_ofInt low high]
    exact Int.ofNat_le.mpr hmax
  · intro hmax
    rw [← toNat_ofInt low high] at hmax
    exact ⟨Nat.zero_le _, Int.ofNat_le.mp hmax⟩

theorem fits_unsigned {vt : ValueType} {uval : UInt64} (hvalid : vt ≠ .invalid)
    (hsigned : valueSigned vt = false) (h : valueInRange UInt64.ofInt uval vt = true) :
    (Suval.unsigned uval).Fits vt :=
  ⟨hsigned, (valueInRange_unsigned hvalid hsigned uval).mp h⟩

theorem storeInRange_ok {s : String} {vt : ValueType} {inRange : Bool} {value value' : Suval}
    {errno errno' : Errno}
    (h : (Suval.storeInRange s vt inRange value).run errno = .ok value' errno') :
    inRange = true ∧ value' = value := by
  change (if (decide (errno = .erange) || !inRange) = true then _ else _ : Parse Suval).run errno = _
    at h
  split_ifs at h with hbad
  · cases h
  · cases h
    cases inRange with
    | true => exact ⟨rfl, rfl⟩
    | false => simp at hbad

theorem assignFromString_fits {s : String} {vt : ValueType} {value : Suval} {errno errno' : Errno}
    (hvalid : vt ≠ .invalid) (h : (Suval.assignFromString s vt).run errno = .ok value errno') :
    value.Fits vt := by
  unfold Suval.assignFromString at h
  cases hsigned : valueSigned vt with
  | true =>
    rw [hsigned, if_pos rfl] at h
    obtain ⟨_, _, _, hstore⟩ := bind_ok h
    obtain ⟨hrange, rfl⟩ := storeInRange_ok hstore
    exact fits_signed hsigned hrange
  | false =>
    rw [hsigned, if_neg Bool.false_ne_true] at h
    obtain ⟨uval, _, _, hstore⟩ := bind_ok h
    obtain ⟨hrange, rfl⟩ := storeInRange_ok hstore
    exact fits_unsigned hvalid hsigned hrange

theorem ofLimit_fits {limit : ValueType → ℤ} {vt : ValueType}
    (hmin : numericMin vt ≤ limit vt) (hmax : limit vt ≤ numericMax vt) :
    (Suval.ofLimit limit vt).Fits vt := by
  unfold Suval.ofLimit
  cases hsigned : valueSigned vt with
  | true =>
    obtain ⟨low, high⟩ := numericRange_signed hsigned
    rw [if_pos rfl]
    refine ⟨hsigned, ?_⟩
    rw [Int64.toInt_ofInt_of_le (by omega) (by omega)]
    exact ⟨hmin, hmax⟩
  | false =>
    obtain ⟨_, high⟩ := numericMax_unsigned vt
    rw [numericMin_unsigned hsigned] at hmin
    rw [if_neg Bool.false_ne_true]
    refine ⟨hsigned, ?_⟩
    rw [toNat_ofInt hmin (by omega)]
    exact hmax

theorem threshold_fits {j : Json D} {key : String} {limit : ValueType → Suval} {vt : ValueType}
    {value : Suval} {errno errno' : Errno} (hvalid : vt ≠ .invalid) (hlimit : (limit vt).Fits vt)
    (h : (threshold j key limit vt).run errno = .ok value errno') : value.Fits vt := by
  unfold threshold at h
  cases hfind : j.find key with
  | none =>
    rw [hfind] at h
    cases h
    exact hlimit
  | some given =>
    rw [hfind] at h
    obtain ⟨s, _, _, hassign⟩ := bind_ok h
    exact assignFromString_fits hvalid hassign

theorem checkEnum_ok {E : Type} [DecidableEq E] {invalid e : E} {errno errno' : Errno}
    (h : (lift (checkEnum invalid e)).run errno = .ok () errno') : e ≠ invalid := by
  intro he
  have checked := lift_ok h
  rw [checkEnum, if_pos he] at checked
  cases checked

/-- What `from_json` checks of a source. -/
theorem sourceFromJson_ok [Doubles D] {j : Json D} {source : SourceRegister D} {errno errno' : Errno}
    (h : (sourceFromJson j).run errno = .ok source errno') :
    source.endianess ≠ .invalid ∧ source.regType ≠ .invalid ∧ source.valueType ≠ .invalid ∧
      source.minReadValue.Fits source.valueType ∧ source.maxReadValue.Fits source.valueType := by
  unfold sourceFromJson at h
  obtain ⟨address, _, _, h⟩ := bind_ok h
  obtain ⟨jendianess, _, _, h⟩ := bind_ok h
  obtain ⟨_, _, hendianess, h⟩ := bind_ok h
  obtain ⟨jregType, _, _, h⟩ := bind_ok h
  obtain ⟨_, _, hregType, h⟩ := bind_ok h
  obtain ⟨jvalueType, _, _, h⟩ := bind_ok h
  obtain ⟨_, _, hvalueType, h⟩ := bind_ok h
  obtain ⟨scaleFactor, _, _, h⟩ := bind_ok h
  obtain ⟨minReadValue, _, hmin, h⟩ := bind_ok h
  obtain ⟨maxReadValue, _, hmax, h⟩ := bind_ok h
  obtain ⟨randomMeanDev, _, _, h⟩ := bind_ok h
  cases h
  have hvalid := checkEnum_ok hvalueType
  have ordered := numericMin_le_max (Json.getEnum .invalid valueTypeTable jvalueType)
  exact ⟨checkEnum_ok hendianess, checkEnum_ok hregType, hvalid,
    threshold_fits hvalid (ofLimit_fits (Int.le_refl _) ordered) hmin,
    threshold_fits hvalid (ofLimit_fits ordered (Int.le_refl _)) hmax⟩

end ModbusCrawler.MeasConfig
