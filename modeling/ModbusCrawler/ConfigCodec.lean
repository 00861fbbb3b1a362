import ModbusCrawler.MeasConfig

set_option autoImplicit false

/-!
# Writing the configuration back: the `to_json`s of `crawler/meas_config.cpp`

What they write, and what the `from_json`s make of it.
-/
namespace ModbusCrawler.ConfigCodec
open ModbusTypes MeasConfig

variable {D : Type}

/-- The `to_json` of an enumeration; `INVALID` stands for `null` in every table. -/
def enumToJson {E : Type} [DecidableEq E] (table : List (String × E)) (e : E) : Json D :=
  match table.find? (fun entry => entry.2 = e) with
  | some entry => .string entry.1
  | none => .null

def serverToJson (s : ModbusServer) : Json D :=
  .object [("modbus_id", .integer s.modbusId),
    ("name", .string s.name),
    ("serial_device", .string s.serialDevice),
    ("sampling_period", .integer s.samplingPeriod),
    ("line_config", .string s.lineConfig),
    ("answering_time_ms", .integer s.answeringTime)]

def sourceToJson (s : SourceRegister D) : Except Exception (Json D) := do
  let minReadValue ← s.minReadValue.asSigned
  let maxReadValue ← s.maxReadValue.asSigned
  pure (.object [("address", .integer s.address),
    ("endianess", enumToJson wordEndianessTable s.endianess),
    ("reg_type", enumToJson regtypeTable s.regType),
    ("value_type", enumToJson valueTypeTable s.valueType),
    ("scale_factor", .floating s.scaleFactor),
    ("min_read_value", .integer minReadValue.toInt),
    ("max_read_value", .integer maxReadValue.toInt),
    ("random_mean_dev", .string s.randomMeanDev)])

def measureToJson (m : Measure D) : Except Exception (Json D) := do
  let source ← sourceToJson m.source
  pure (.object [("name", .string m.name),
    ("enabled", .boolean m.enabled),
    ("sampling_period", .integer m.samplingPeriod),
    ("accumulating", .boolean m.accumulating),
    ("report_raw_samples", .boolean m.reportRawSamples),
    ("source", source)])

def descriptorToJson (d : Descriptor D) : Except Exception (Json D) := do
  let measures ← d.measures.mapM measureToJson
  pure (.object [("server", serverToJson d.server), ("measures", .array measures)])

/-- `to_json` succeeds and `from_json` of the result is the same descriptor. -/
def RoundTrips [Doubles D] (d : Descriptor D) (errno : Errno) : Prop :=
  ∃ j, descriptorToJson d = .ok j ∧ ∃ errno', (descriptorFromJson j).run errno = .ok d errno'

section Ranges
variable [Doubles D]

def IntRange (n : ℤ) : Prop := (Int32.ofInt n).toInt = n

def CountRange (n : ℤ) : Prop := (Int64.ofInt n).toInt = n

theorem getInt_range {j : Json D} {n : ℤ} (h : j.getInt = .ok n) : IntRange n := by
  cases j with
  | integer m | floating d =>
    cases h
    unfold IntRange
    rw [Int32.ofInt_toInt]
  | boolean b =>
    cases h
    cases b <;> rfl
  | _ => cases h

theorem getCount_range {j : Json D} {n : ℤ} (h : j.getCount = .ok n) : CountRange n := by
  cases j with
  | integer m | floating d =>
    cases h
    unfold CountRange
    rw [Int64.ofInt_toInt]
  | _ => cases h

theorem getOr_range {j : Json D} {key : String} {default n : ℤ}
    (h : j.getOr key Json.getCount default = .ok n) (hdefault : CountRange default) :
    CountRange n := by
  unfold Json.getOr at h
  cases hfind : j.find key with
  | some value =>
    rw [hfind] at h
    exact getCount_range h
  | none =>
    rw [hfind] at h
    cases h
    exact hdefault

end Ranges

section Server
variable [Doubles D]

/-- What `from_json` promises of a server. -/
def ServerRange (s : ModbusServer) : Prop :=
  IntRange s.modbusId ∧ CountRange s.samplingPeriod ∧ CountRange s.answeringTime

theorem serverFromJson_range {j : Json D} {s : ModbusServer} (h : serverFromJson j = .ok s) :
    ServerRange s := by
  unfold serverFromJson at h
  obtain ⟨enabled, _, h⟩ := bind_eq_ok.mp h
  obtain ⟨samplingPeriod, hperiod, h⟩ := bind_eq_ok.mp h
  obtain ⟨serialDevice, _, h⟩ := bind_eq_ok.mp h
  obtain ⟨jmodbusId, _, h⟩ := bind_eq_ok.mp h
  obtain ⟨modbusId, hid, h⟩ := bind_eq_ok.mp h
  obtain ⟨jname, _, h⟩ := bind_eq_ok.mp h
  obtain ⟨name, _, h⟩ := bind_eq_ok.mp h
  obtain ⟨lineConfig, _, h⟩ := bind_eq_ok.mp h
  obtain ⟨answeringTime, htime, h⟩ := bind_eq_ok.mp h
  cases h
  exact ⟨getInt_range hid, getOr_range hperiod rfl, getOr_range htime rfl⟩

/-- `to_json` drops `enabled`, and `from_json` then takes the default. -/
theorem serverFromJson_toJson {s : ModbusServer} (h : ServerRange s) :
    serverFromJson (serverToJson s : Json D) = .ok { s with enabled := true } := by
  obtain ⟨hid, hperiod, htime⟩ := h
  have written : serverFromJson (serverToJson s : Json D) =
      .ok ⟨(Int32.ofInt s.modbusId).toInt, s.name, s.serialDevice, true, s.lineConfig,
        (Int64.ofInt s.answeringTime).toInt, (Int64.ofInt s.samplingPeriod).toInt⟩ := rfl
  rw [written, hid, hperiod, htime]

end Server

/-- A threshold comes back as a number, which `get<std::string>` rejects. -/
theorem threshold_number (j : Json D) (key : String) (limit : ValueType → Suval) (vt : ValueType)
    (n : ℤ) (h : j.find key = some (.integer n)) (errno errno' : Errno) (value : Suval) :
    (threshold j key limit vt).run errno ≠ .ok value errno' := by
  intro hok
  unfold threshold at hok
  rw [h] at hok
  cases hok

theorem sourceFromJson_toJson [Doubles D] {s s' : SourceRegister D} {j : Json D} {errno errno' : Errno}
    (hwrite : sourceToJson s = .ok j) : (sourceFromJson j).run errno ≠ .ok s' errno' := by
  obtain ⟨minReadValue, _, hwrite⟩ := bind_eq_ok.mp hwrite
  obtain ⟨maxReadValue, _, hwrite⟩ := bind_eq_ok.mp hwrite
  intro hread
  unfold sourceFromJson at hread
  obtain ⟨address, _, _, hread⟩ := bind_ok hread
  obtain ⟨jendianess, _, _, hread⟩ := bind_ok hread
  obtain ⟨_, _, _, hread⟩ := bind_ok hread
  obtain ⟨jregType, _, _, hread⟩ := bind_ok hread
  obtain ⟨_, _, _, hread⟩ := bind_ok hread
  obtain ⟨jvalueType, _, _, hread⟩ := bind_ok hread
  obtain ⟨_, _, _, hread⟩ := bind_ok hread
  obtain ⟨scaleFactor, _, _, hread⟩ := bind_ok hread
  obtain ⟨minRead, _, hmin, _⟩ := bind_ok hread
  cases hwrite
  exact threshold_number _ _ _ _ _ rfl _ _ _ hmin

theorem measureFromJson_toJson [Doubles D] {m m' : Measure D} {j : Json D} {errno errno' : Errno}
    (hwrite : measureToJson m = .ok j) : (measureFromJson j).run errno ≠ .ok m' errno' := by
  obtain ⟨source, hsource, hwrite⟩ := bind_eq_ok.mp hwrite
  intro hread
  unfold measureFromJson at hread
  obtain ⟨name, _, _, hread⟩ := bind_ok hread
  obtain ⟨samplingPeriod, _, _, hread⟩ := bind_ok hread
  obtain ⟨enabled, _, _, hread⟩ := bind_ok hread
  obtain ⟨accumulating, _, _, hread⟩ := bind_ok hread
  obtain ⟨reportRawSamples, _, _, hread⟩ := bind_ok hread
  obtain ⟨jsource, _, hat, hread⟩ := bind_ok hread
  obtain ⟨source', _, hread, _⟩ := bind_ok hread
  cases hwrite
  have same := lift_ok hat
  cases same
  exact sourceFromJson_toJson hsource hread

theorem descriptorFromJson_ok [Doubles D] {j : Json D} {d : Descriptor D} {errno errno' : Errno}
    (h : (descriptorFromJson j).run errno = .ok d errno') :
    (∃ jserver, j.at_ "server" = .ok jserver ∧ serverFromJson jserver = .ok d.server) ∧
      ∃ jmeasures elements errno1, j.at_ "measures" = .ok jmeasures ∧
        jmeasures.getArray = .ok elements ∧
        (elements.mapM measureFromJson).run errno1 = .ok d.measures errno' := by
  unfold descriptorFromJson at h
  obtain ⟨server, _, hserver, h⟩ := bind_ok h
  obtain ⟨elements, errno1, helements, h⟩ := bind_ok h
  obtain ⟨measures, _, hmeasures, h⟩ := bind_ok h
  cases h
  obtain ⟨jmeasures, hjmeasures, harray⟩ := bind_eq_ok.mp (lift_ok helements)
  exact ⟨bind_eq_ok.mp (lift_ok hserver), jmeasures, elements, errno1, hjmeasures, harray, hmeasures⟩

theorem measures_nil_of_roundTrip [Doubles D] {measures measures' : List (Measure D)}
    {elements : List (Json D)} {errno errno' : Errno}
    (hwrite : measures.mapM measureToJson = .ok elements)
    (hread : (elements.mapM measureFromJson).run errno = .ok measures' errno') : measures = [] := by
  cases measures with
  | nil => rfl
  | cons m rest =>
    rw [List.mapM_cons] at hwrite
    obtain ⟨jm, hm, hwrite⟩ := bind_eq_ok.mp hwrite
    obtain ⟨jrest, _, hwrite⟩ := bind_eq_ok.mp hwrite
    cases hwrite
    rw [List.mapM_cons] at hread
    obtain ⟨m', _, hm', _⟩ := bind_ok hread
    exact absurd hm' (measureFromJson_toJson hm)

/-- No measure survives the round trip, and neither does a disabled server. -/
theorem roundTrips_of_range [Doubles D] {d : Descriptor D} (hserver : ServerRange d.server)
    (errno : Errno) : RoundTrips d errno ↔ d.server.enabled = true ∧ d.measures = [] := by
  constructor
  · rintro ⟨j, hwrite, errno', hread⟩
    obtain ⟨elements, hmeasures, hwrite⟩ := bind_eq_ok.mp hwrite
    cases hwrite
    obtain ⟨⟨jserver, hjserver, hread'⟩, jmeasures, elements', errno1, hjmeasures, harray, hmap⟩ :=
      descriptorFromJson_ok hread
    cases hjserver
    cases hjmeasures
    cases harray
    rw [serverFromJson_toJson hserver] at hread'
    exact ⟨(congrArg ModbusServer.enabled (Except.ok.inj hread')).symm,
      measures_nil_of_roundTrip hmeasures hmap⟩
  · rintro ⟨henabled, hmeasures⟩
    obtain ⟨server, measures⟩ := d
    dsimp only at hserver henabled hmeasures
    subst hmeasures
    have same : { server with enabled := true } = server := by
      rw [← henabled]
    have hread := serverFromJson_toJson (D := D) hserver
    rw [same] at hread
    refine ⟨.object [("server", serverToJson server), ("measures", .array [])], rfl, errno, ?_⟩
    have hat : (Json.object [("server", serverToJson server), ("measures", .array [])]
        : Json D).at_ "server" = .ok (serverToJson server) := rfl
    unfold descriptorFromJson
    rw [hat]
    change EStateM.run (lift (serverFromJson (serverToJson server : Json D)) >>= _) errno = _
    rw [hread]
    rfl

theorem descriptor_range [Doubles D] {j : Json D} {d : Descriptor D} {errno errno' : Errno}
    (h : (descriptorFromJson j).run errno = .ok d errno') : ServerRange d.server := by
  obtain ⟨⟨jserver, _, hserver⟩, _⟩ := descriptorFromJson_ok h
  exact serverFromJson_range hserver

/-- Exactly the descriptors without measures whose server is enabled survive. -/
theorem descriptor_roundTrips_iff [Doubles D] {j : Json D} {d : Descriptor D}
    {errno errno' : Errno} (h : (descriptorFromJson j).run errno = .ok d errno')
    (again : Errno) : RoundTrips d again ↔ d.server.enabled = true ∧ d.measures = [] :=
  roundTrips_of_range (descriptor_range h) again

def pumpServer : Json Float := .object [("modbus_id", .integer 1), ("name", .string "pump")]

def bareConfig : Json Float := .object [("server", pumpServer), ("measures", .array [])]

def bareDescriptor : Descriptor Float := ⟨{ modbusId := 1, name := "pump" }, []⟩

theorem bareDescriptor_roundTrips :
    (descriptorFromJson bareConfig).run .other = .ok bareDescriptor .other ∧
      RoundTrips bareDescriptor .other := by
  have read : (descriptorFromJson bareConfig).run .other = .ok bareDescriptor .other := rfl
  exact ⟨read, (descriptor_roundTrips_iff read .other).mpr ⟨rfl, rfl⟩⟩

/-- One unsigned register with every optional field left out. -/
def unsignedConfig : Json Float :=
  .object [("server", pumpServer),
    ("measures", .array [.object [("name", .string "level"),
      ("source", .object [("address", .integer 10), ("endianess", .string "little"),
        ("reg_type", .string "holding"), ("value_type", .string "UINT16")])]])]

theorem unsigned_roundTrip_fails : ∃ d : Descriptor Float,
    (descriptorFromJson unsignedConfig).run .other = .ok d .other ∧ ¬ RoundTrips d .other := by
  refine ⟨_, rfl, fun h => ?_⟩
  have range : ServerRange { modbusId := 1, name := "pump" } := ⟨rfl, rfl, rfl⟩
  exact List.cons_ne_nil _ _ ((roundTrips_of_range range .other).mp h).2

end ModbusCrawler.ConfigCodec
