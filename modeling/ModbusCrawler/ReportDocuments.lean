import ModbusCrawler.MeasConfig
import ModbusCrawler.MeasReporter

set_option autoImplicit false

/-!
# The documents of the reports

`close_period` builds a JSON document of what it reports. A reader that looks the
members up by their names gets the whole report back.
-/
namespace ModbusCrawler.ReportDocuments
open ModbusTypes MeasConfig MeasReporter

variable {D : Type} [Doubles D]

/-- The `to_json` of a pair: not the array that the library makes of one. -/
def sampleToJson (p : ℤ × D) : Json D := .object [("t", .integer p.1), ("v", .floating p.2)]

def descriptorToJson (desc : MeasReporter.Descriptor) : Json D :=
  .object [("period", .integer desc.period),
    ("accumulating", .boolean desc.accumulating),
    ("report_raw_samples", .boolean desc.reportRawSamples)]

def statisticsToJson (s : Stats D) : Json D :=
  .object [("min", .floating s.min), ("max", .floating s.max), ("mean", .floating s.mean),
    ("stdev", .floating s.stdev)]

/-- `jdata`; statistics and samples are members only if there are any, or they are asked for. -/
def dataToJson (data : DataReport D) : Json D :=
  .object ([("total_read_failures", .integer data.totalReadFailures),
      ("period_read_failures", .integer data.periodReadFailures),
      ("period_underflows", .integer data.periodUnderflows),
      ("total_underflows", .integer data.totalUnderflows),
      ("period_overflows", .integer data.periodOverflows),
      ("total_overflows", .integer data.totalOverflows),
      ("num_samples", .integer data.numSamples)] ++
    (match data.statistics with
      | some statistics => [("statistics", statisticsToJson statistics)]
      | none => []) ++
    (match data.samples with
      | some samples => [("samples", .array (samples.map sampleToJson))]
      | none => []))

def resultToJson (result : MeasureReport D) : Json D :=
  .object [("measure_name", .string result.measureName),
    ("descriptor", descriptorToJson result.descriptor),
    ("data", dataToJson result.data)]

def serverToJson (server : ServerReport D) : Json D :=
  .object [("name", .string server.name),
    ("id", .integer server.id),
    ("results", .array (server.results.map resultToJson))]

/-- `jreport`. -/
def reportToJson (report : PeriodReport D) : Json D :=
  .object [("when", .integer report.now),
    ("period_id", .integer report.periodId.toNat),
    ("servers", .array (report.servers.map serverToJson))]

/-! A reader of the documents. -/

section Members
variable {α : Type}

def integerAt (j : Json D) (key : String) : Option ℤ :=
  match j.find key with
  | some (.integer n) => some n
  | _ => none

def countAt (j : Json D) (key : String) : Option ℕ := (integerAt j key).map Int.toNat

def booleanAt (j : Json D) (key : String) : Option Bool :=
  match j.find key with
  | some (.boolean b) => some b
  | _ => none

def floatingAt (j : Json D) (key : String) : Option D :=
  match j.find key with
  | some (.floating d) => some d
  | _ => none

def stringAt (j : Json D) (key : String) : Option String :=
  match j.find key with
  | some (.string s) => some s
  | _ => none

def listOf (read : Json D → Option α) (j : Json D) : Option (List α) :=
  match j with
  | .array elements => elements.mapM read
  | _ => none

def valueAt (read : Json D → Option α) (j : Json D) (key : String) : Option α :=
  (j.find key).bind read

/-- A member that may be missing. -/
def optionalAt (read : Json D → Option α) (j : Json D) (key : String) : Option (Option α) :=
  match j.find key with
  | some value => (read value).map some
  | none => some none

end Members

def readSample (j : Json D) : Option (ℤ × D) := do
  pure (← integerAt j "t", ← floatingAt j "v")

def readDescriptor (j : Json D) : Option MeasReporter.Descriptor := do
  pure ⟨← integerAt j "period", ← booleanAt j "accumulating", ← booleanAt j "report_raw_samples"⟩

def readStatistics (j : Json D) : Option (Stats D) := do
  pure ⟨← floatingAt j "min", ← floatingAt j "max", ← floatingAt j "mean", ← floatingAt j "stdev"⟩

def readData (j : Json D) : Option (DataReport D) := do
  let totalReadFailures ← countAt j "total_read_failures"
  let periodReadFailures ← countAt j "period_read_failures"
  let periodUnderflows ← countAt j "period_underflows"
  let totalUnderflows ← countAt j "total_underflows"
  let periodOverflows ← countAt j "period_overflows"
  let totalOverflows ← countAt j "total_overflows"
  let numSamples ← countAt j "num_samples"
  let statistics ← optionalAt readStatistics j "statistics"
  let samples ← optionalAt (listOf readSample) j "samples"
  pure ⟨totalReadFailures, periodReadFailures, periodUnderflows, totalUnderflows, periodOverflows,
    totalOverflows, numSamples, statistics, samples⟩

def readResult (j : Json D) : Option (MeasureReport D) := do
  pure ⟨← stringAt j "measure_name", ← valueAt readDescriptor j "descriptor",
    ← valueAt readData j "data"⟩

def readServer (j : Json D) : Option (ServerReport D) := do
  pure ⟨← stringAt j "name", ← integerAt j "id", ← valueAt (listOf readResult) j "results"⟩

def readReport (j : Json D) : Option (PeriodReport D) := do
  let now ← integerAt j "when"
  let periodId ← countAt j "period_id"
  let servers ← valueAt (listOf readServer) j "servers"
  pure ⟨now, UInt32.ofNat periodId, servers⟩

section RoundTrips

omit [Doubles D] in
/-- A reader of single values reads a list of them. -/
theorem listOf_array {α : Type} {encode : α → Json D} {read : Json D → Option α}
    (h : ∀ a, read (encode a) = some a) (as : List α) :
    listOf read (.array (as.map encode)) = some as := by
  change (as.map encode).mapM read = some as
  induction as with
  | nil => rfl
  | cons a as ih => simp [List.mapM_cons, h, ih]

omit [Doubles D] in
theorem readSample_sampleToJson (p : ℤ × D) : readSample (sampleToJson p) = some p := rfl

omit [Doubles D] in
theorem readDescriptor_descriptorToJson (desc : MeasReporter.Descriptor) :
    readDescriptor (descriptorToJson desc : Json D) = some desc := rfl

theorem readStatistics_statisticsToJson (s : Stats D) :
    readStatistics (statisticsToJson s) = some s := rfl

theorem readData_dataToJson (data : DataReport D) : readData (dataToJson data) = some data := by
  have samplesBack := listOf_array (D := D) readSample_sampleToJson
  obtain ⟨_, _, _, _, _, _, _, statistics, samples⟩ := data
  cases statistics <;> cases samples <;>
    simp [readData, dataToJson, countAt, integerAt, optionalAt, Json.find, List.lookup_cons,
      samplesBack, readStatistics_statisticsToJson]

theorem readResult_resultToJson (result : MeasureReport D) :
    readResult (resultToJson result) = some result := by
  simp [readResult, resultToJson, stringAt, valueAt, Json.find, List.lookup_cons,
    readDescriptor_descriptorToJson, readData_dataToJson]

theorem readServer_serverToJson (server : ServerReport D) :
    readServer (serverToJson server) = some server := by
  simp [readServer, serverToJson, stringAt, integerAt, valueAt, Json.find, List.lookup_cons,
    listOf_array readResult_resultToJson]

/-- A report is read back from its document, whatever it holds. -/
theorem readReport_reportToJson (report : PeriodReport D) :
    readReport (reportToJson report) = some report := by
  simp [readReport, reportToJson, countAt, integerAt, valueAt, Json.find, List.lookup_cons,
    listOf_array readServer_serverToJson]

end RoundTrips

end ModbusCrawler.ReportDocuments
