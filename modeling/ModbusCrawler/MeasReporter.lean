import ModbusCrawler.Infra
import ModbusCrawler.ModbusTypes
import ModbusCrawler.NestedMap

set_option autoImplicit false

/-!
# The reporter: `crawler/meas_reporter.cpp`

A `std::map` is a `TreeMap`. What `close_period` dumps to the file it opens is a
`PeriodReport`.
-/
namespace ModbusCrawler.MeasReporter
open Std ModbusTypes NestedMap

inductive SampleType where
  | regular | readFailure | underflow | overflow
  deriving DecidableEq, Repr

structure ServerKey where
  serverName : String
  serverId : ℤ
  deriving DecidableEq, Repr

def ServerKey.toString (sk : ServerKey) : String :=
  sk.serverName ++ "@" ++ ToString.toString sk.serverId

/-- `std::tie(lhs.server_name, lhs.server_id)` decides. -/
def ServerKey.order : ServerKey → ServerKey → Ordering :=
  compareLex (compareOn ServerKey.serverName) (compareOn ServerKey.serverId)

structure Descriptor where
  period : ℤ
  accumulating : Bool
  reportRawSamples : Bool
  deriving DecidableEq, Repr

variable {D : Type} [Doubles D]

structure Stats (D : Type) [Doubles D] where
  min : D := Doubles.quietNaN
  max : D := Doubles.quietNaN
  mean : D := Doubles.quietNaN
  stdev : D := Doubles.quietNaN

abbrev Samples (D : Type) := List (ℤ × D)

structure Data (D : Type) [Doubles D] where
  samples : Samples D := []
  totalReadFailures : ℕ := 0
  periodReadFailures : ℕ := 0
  totalUnderflows : ℕ := 0
  periodUnderflows : ℕ := 0
  totalOverflows : ℕ := 0
  periodOverflows : ℕ := 0
  statistics : Stats D := {}

def Data.reset (data : Data D) : Data D :=
  { data with
    samples := []
    periodReadFailures := 0
    periodUnderflows := 0
    periodOverflows := 0
    statistics := {} }

structure Result (D : Type) [Doubles D] where
  descriptor : Descriptor
  data : Data D := {}

/-- What the first loop of `calculate_stats` collects. -/
structure Sums (D : Type) [Doubles D] where
  sum : D := Doubles.ofInt 0
  min : D := Doubles.max
  max : D := Doubles.lowest
  validSamples : UInt32 := 0

def Sums.add (s : Sums D) (el : ℤ × D) : Sums D :=
  if Doubles.isNaN el.2 then s else
    { sum := Doubles.add s.sum el.2
      min := if Doubles.less el.2 s.min then el.2 else s.min
      max := if Doubles.less s.max el.2 then el.2 else s.max
      validSamples := s.validSamples + 1 }

/-- The second loop. -/
def addSquare (mean accum : D) (el : ℤ × D) : D :=
  if Doubles.isNaN el.2 then accum else
    Doubles.add accum (Doubles.mul (Doubles.sub el.2 mean) (Doubles.sub el.2 mean))

def calculateStats (samples : Samples D) : Stats D :=
  let s := samples.foldl Sums.add {}
  if s.validSamples ≠ 0 then
    let mean := Doubles.div s.sum (Doubles.ofInt s.validSamples.toNat)
    let stdev := if s.validSamples > 1 then
        let accum := samples.foldl (addSquare mean) (Doubles.ofInt 0)
        Doubles.sqrt (Doubles.div accum (Doubles.ofInt (s.validSamples - 1).toNat))
      else Doubles.ofInt 0
    { min := s.min, max := s.max, mean := mean, stdev := stdev }
  else {}

/-- `std::pow(10, digits)` is exact for the digits in use. -/
def fixedDigits (number : D) (digits : ℕ) : D :=
  let factor := Doubles.ofInt (10 ^ digits)
  Doubles.div (Doubles.round (Doubles.mul number factor)) factor

/-- `jdata` of one measure. -/
structure DataReport (D : Type) [Doubles D] where
  totalReadFailures : ℕ
  periodReadFailures : ℕ
  periodUnderflows : ℕ
  totalUnderflows : ℕ
  periodOverflows : ℕ
  totalOverflows : ℕ
  numSamples : ℕ
  statistics : Option (Stats D)
  samples : Option (Samples D)

def DataReport.period (data : DataReport D) : SampleType → ℕ
  | .regular => data.numSamples
  | .readFailure => data.periodReadFailures
  | .underflow => data.periodUnderflows
  | .overflow => data.periodOverflows

/-- The counts over the whole run; there is none for regular samples. -/
def DataReport.total (data : DataReport D) : SampleType → Option ℕ
  | .regular => none
  | .readFailure => some data.totalReadFailures
  | .underflow => some data.totalUnderflows
  | .overflow => some data.totalOverflows

structure MeasureReport (D : Type) [Doubles D] where
  measureName : String
  descriptor : Descriptor
  data : DataReport D

structure ServerReport (D : Type) [Doubles D] where
  name : String
  id : ℤ
  results : List (MeasureReport D)

structure PeriodReport (D : Type) [Doubles D] where
  now : ℤ
  periodId : UInt32
  servers : List (ServerReport D)

structure Reporter (D : Type) [Doubles D] where
  results : Map ServerKey String (Result D) ServerKey.order compare := ∅
  periodId : UInt32 := 0
  outFolder : String

def configureMeasurement (sk : ServerKey) (measName : String) (descriptor : Descriptor) :
    EStateM Exception (Reporter D) Unit := do
  let r ← get
  let resultsForServer := r.results.getD sk ∅
  let added := !resultsForServer.contains measName
  set { r with
    results := r.results.insert sk
      (resultsForServer.insertIfNew measName { descriptor := descriptor }) }
  if !added then
    throw (.invalidArgument ("configure_measurement: duplicate measure: " ++ measName ++
      " for server " ++ sk.toString))

/-- The `switch` of `add_measurement`. -/
def Data.add (data : Data D) (now : ℤ) (value : D) : SampleType → Data D
  | .regular => { data with samples := data.samples ++ [(now, value)] }
  | .readFailure =>
    { data with
      periodReadFailures := data.periodReadFailures + 1
      totalReadFailures := data.totalReadFailures + 1 }
  | .underflow =>
    { data with
      periodUnderflows := data.periodUnderflows + 1
      totalUnderflows := data.totalUnderflows + 1 }
  | .overflow =>
    { data with
      periodOverflows := data.periodOverflows + 1
      totalOverflows := data.totalOverflows + 1 }

def addMeasurement (sk : ServerKey) (measName : String) (now : ℤ) (value : D)
    (sampleType : SampleType) : EStateM Exception (Reporter D) Unit := do
  let r ← get
  match r.results[sk]? with
  | none => throw (.runtimeError ("add_measurement: unknown server " ++ sk.toString))
  | some resultsForServer =>
    match resultsForServer[measName]? with
    | none =>
      throw (.runtimeError ("add_measurement: duplicate measure: " ++ measName ++
        " for server " ++ sk.toString))
    | some _ =>
      set { r with
        results := r.results.modify sk (fun resultsForServer =>
          resultsForServer.modify measName (fun result =>
            { result with data := result.data.add now value sampleType })) }

def Data.report (data : Data D) (reportRawSamples : Bool) : DataReport D where
  totalReadFailures := data.totalReadFailures
  periodReadFailures := data.periodReadFailures
  periodUnderflows := data.periodUnderflows
  totalUnderflows := data.totalUnderflows
  periodOverflows := data.periodOverflows
  totalOverflows := data.totalOverflows
  numSamples := data.samples.length
  statistics := if data.samples ≠ [] then
      let statistics := calculateStats data.samples
      some {
        min := fixedDigits statistics.min 3
        max := fixedDigits statistics.max 3
        mean := fixedDigits statistics.mean 3
        stdev := fixedDigits statistics.stdev 3 }
    else none
  samples := if reportRawSamples then some data.samples else none

def Result.report (measName : String) (result : Result D) : MeasureReport D where
  measureName := measName
  descriptor := result.descriptor
  data := result.data.report result.descriptor.reportRawSamples

def Result.reset (result : Result D) : Result D := { result with data := result.data.reset }

/-- The file it writes, and the reporter with everything reset for the next period. -/
def closePeriod (r : Reporter D) (now : ℤ) : (String × PeriodReport D) × Reporter D :=
  let periodId := r.periodId + 1
  let servers := r.results.toList.map (fun (sk, resultsForServer) =>
    { name := sk.serverName
      id := sk.serverId
      results := resultsForServer.toList.map (fun (measName, result) => result.report measName) })
  ((r.outFolder ++ "/" ++ Infra.toCompactString now ++ ".json",
      { now := now, periodId := periodId, servers := servers }),
    { r with
      results := r.results.map (fun _ results => results.map (fun _ result => result.reset))
      periodId := periodId })

instance : TransCmp ServerKey.order := inferInstanceAs (TransCmp (compareLex _ _))

instance : LawfulEqCmp ServerKey.order where
  eq_of_compare := by
    rintro ⟨name, id⟩ ⟨name', id'⟩ h
    obtain ⟨hname, hid⟩ := compareLex_eq_eq.mp h
    have name_eq : name = name' := LawfulEqCmp.eq_of_compare hname
    have id_eq : id = id' := LawfulEqCmp.eq_of_compare hid
    rw [name_eq, id_eq]

abbrev Key := ServerKey × String

def Reporter.find (r : Reporter D) (key : Key) : Option (Result D) := lookup r.results key

theorem configureMeasurement_eq (r : Reporter D) (key : Key) (descriptor : Descriptor) :
    (configureMeasurement key.1 key.2 descriptor).run r =
      let r' := { r with
        results := r.results.insert key.1
          ((r.results.getD key.1 ∅).insertIfNew key.2 { descriptor := descriptor }) }
      if (r.find key).isSome then
        .error (.invalidArgument ("configure_measurement: duplicate measure: " ++ key.2 ++
          " for server " ++ key.1.toString)) r'
      else .ok () r' := by
  have present : (r.results.getD key.1 ∅).contains key.2 = (r.find key).isSome := by
    rw [TreeMap.contains_eq_isSome_getElem?, getD_getElem?]
    rfl
  change (if !!(r.results.getD key.1 ∅).contains key.2 then _ else _ :
    EStateM Exception (Reporter D) Unit).run _ = _
  rw [present]
  cases (r.find key).isSome with
  | false => rfl
  | true => rfl

/-- What `configure_measurement` does: it throws exactly when the key is there. -/
theorem configureMeasurement_run (r : Reporter D) (key : Key) (descriptor : Descriptor) :
    ∃ r' : Reporter D, r'.periodId = r.periodId ∧ r'.outFolder = r.outFolder ∧
      ((r.find key = none ∧ (configureMeasurement key.1 key.2 descriptor).run r = .ok () r' ∧
        ∀ other, r'.find other =
          if key = other then some { descriptor := descriptor } else r.find other) ∨
      ((r.find key).isSome ∧
        (configureMeasurement key.1 key.2 descriptor).run r =
          .error (.invalidArgument ("configure_measurement: duplicate measure: " ++ key.2 ++
            " for server " ++ key.1.toString)) r' ∧
        ∀ other, r'.find other = r.find other)) := by
  have after (other : Key) := lookup_insertIfNew r.results key { descriptor := descriptor } other
  have run := configureMeasurement_eq r key descriptor
  refine ⟨{ r with
    results := r.results.insert key.1
      ((r.results.getD key.1 ∅).insertIfNew key.2 { descriptor := descriptor }) }, rfl, rfl, ?_⟩
  cases hfind : r.find key with
  | none =>
    rw [hfind] at run
    refine .inl ⟨rfl, run, fun other => ?_⟩
    change lookup _ other = _
    have absent : lookup r.results key = none := hfind
    rw [after]
    simp only [absent, and_true]
    rfl
  | some result =>
    rw [hfind] at run
    refine .inr ⟨rfl, run, fun other => ?_⟩
    have there : ¬ (key = other ∧ lookup r.results key = none) := by
      rintro ⟨_, absent⟩
      rw [Reporter.find, absent] at hfind
      cases hfind
    change lookup _ other = _
    rw [after, if_neg there]
    rfl

theorem addMeasurement_eq (r : Reporter D) (key : Key) (now : ℤ) (value : D)
    (sampleType : SampleType) :
    (addMeasurement key.1 key.2 now value sampleType).run r =
      match r.results[key.1]? with
      | none => .error (.runtimeError ("add_measurement: unknown server " ++ key.1.toString)) r
      | some resultsForServer =>
        match resultsForServer[key.2]? with
        | none => .error (.runtimeError ("add_measurement: duplicate measure: " ++ key.2 ++
            " for server " ++ key.1.toString)) r
        | some _ => .ok () { r with
            results := r.results.modify key.1 (fun resultsForServer =>
              resultsForServer.modify key.2 (fun result =>
                { result with data := result.data.add now value sampleType })) } := by
  unfold addMeasurement
  rw [EStateM.run_bind]
  change EStateM.run (match r.results[key.1]? with | none => _ | some _ => _) r = _
  cases r.results[key.1]? with
  | none => rfl
  | some resultsForServer =>
    dsimp only
    cases resultsForServer[key.2]? with
    | none => rfl
    | some result => rfl

/-- What `add_measurement` does: it throws exactly when the key is not there. -/
theorem addMeasurement_run (r : Reporter D) (key : Key) (now : ℤ) (value : D)
    (sampleType : SampleType) :
    (∃ r' : Reporter D, r'.periodId = r.periodId ∧ r'.outFolder = r.outFolder ∧ (r.find key).isSome ∧
      (addMeasurement key.1 key.2 now value sampleType).run r = .ok () r' ∧
      ∀ other, r'.find other = if key = other then (r.find other).map (fun result =>
        { result with data := result.data.add now value sampleType }) else r.find other) ∨
    (∃ e, r.find key = none ∧ (addMeasurement key.1 key.2 now value sampleType).run r =
      .error e r) := by
  have run := addMeasurement_eq r key now value sampleType
  cases hserver : r.results[key.1]? with
  | none =>
    have absent : r.find key = none := by simp [Reporter.find, lookup, hserver]
    rw [hserver] at run
    exact .inr ⟨_, absent, run⟩
  | some resultsForServer =>
    have find : r.find key = resultsForServer[key.2]? := by simp [Reporter.find, lookup, hserver]
    rw [hserver] at run
    dsimp only at run
    cases hmeas : resultsForServer[key.2]? with
    | none =>
      rw [hmeas] at run
      exact .inr ⟨_, find.trans hmeas, run⟩
    | some result =>
      rw [hmeas] at run
      refine .inl ⟨_, ?_, ?_, ?_, run, fun other => lookup_modify r.results key _ other⟩
      · rfl
      · rfl
      · rw [find, hmeas]
        rfl

theorem closePeriod_find (r : Reporter D) (now : ℤ) (key : Key) :
    (closePeriod r now).2.find key = (r.find key).map Result.reset :=
  lookup_map r.results Result.reset key

def PeriodReport.entries (report : PeriodReport D) : List (Key × MeasureReport D) :=
  report.servers.flatMap (fun server =>
    server.results.map (fun result => ((⟨server.name, server.id⟩, result.measureName), result)))

theorem closePeriod_entries (r : Reporter D) (now : ℤ) :
    (closePeriod r now).1.2.entries =
      (entries r.results).map (fun entry => (entry.1, entry.2.report entry.1.2)) := by
  unfold closePeriod PeriodReport.entries entries
  simp only [List.flatMap_map, List.map_map, List.map_flatMap]
  rfl

theorem mem_closePeriod_entries (r : Reporter D) (now : ℤ) (key : Key) (report : MeasureReport D) :
    (key, report) ∈ (closePeriod r now).1.2.entries ↔
      ∃ result, r.find key = some result ∧ report = result.report key.2 := by
  rw [closePeriod_entries, List.mem_map]
  constructor
  · rintro ⟨⟨key', result⟩, hmem, heq⟩
    injection heq with hkey hreport
    subst hkey
    exact ⟨result, (mem_entries _ _ _).mp hmem, hreport.symm⟩
  · rintro ⟨result, hfind, rfl⟩
    exact ⟨(key, result), (mem_entries _ _ _).mpr hfind, rfl⟩

/-- A report lists exactly the keys that the reporter has. -/
theorem closePeriod_lists_iff (r : Reporter D) (now : ℤ) (key : Key) :
    (∃ entry, (key, entry) ∈ (closePeriod r now).1.2.entries) ↔ (r.find key).isSome := by
  rw [Option.isSome_iff_exists]
  constructor
  · rintro ⟨entry, hmem⟩
    obtain ⟨result, hresult, _⟩ := (mem_closePeriod_entries r now key entry).mp hmem
    exact ⟨result, hresult⟩
  · rintro ⟨result, hresult⟩
    exact ⟨_, (mem_closePeriod_entries r now key _).mpr ⟨result, hresult, rfl⟩⟩

end ModbusCrawler.MeasReporter
