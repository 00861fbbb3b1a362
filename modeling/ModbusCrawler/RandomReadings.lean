import ModbusCrawler.ReportedReadings
import ModbusCrawler.StartUp

set_option autoImplicit false

/-!
# What a random server reports

Its measures take their values from a distribution for each address, whose
parameters the first measure of the address sets.
-/
namespace ModbusCrawler.RandomReadings
open Std FailStop ModbusTypes ModbusSlave MeasReporter MeasExecutor PeriodicScheduler
open CrawlerMain EventLoop
open Classification ReporterHistory TaskAccounting ReportPeriods CrawlerRuns WholeRuns ServerTraffic
open ServerReports ReportedReadings
open StartUp (contains_insert_false)

variable {D R : Type} [Doubles D]

/-- The parameters of an address, from the first measure that reads it. -/
def FirstParams (stod : String → Except Exception D) (measures : List (MeasConfig.Measure D))
    (address : ℤ) (params : D × D) : Prop :=
  ∃ before meas after, measures = before ++ meas :: after ∧ meas.source.address = address ∧
    (∀ m ∈ before, m.source.address ≠ address) ∧
    RandomSlave.randomParams stod meas.source.randomMeanDev = .ok params

/-- The integer that the task compares and scales. -/
def taskValue (vt : ValueType) (val : Int64) : ℤ :=
  if valueSigned vt then val.toInt else val.toUInt64.toNat

/-- The outcomes of the numbers that can be drawn. -/
inductive Drawn (draw : D → D → R → D × R) (source : MeasConfig.SourceRegister D)
    (params : D × D) : SampleType × D → Prop
  | draw (engine : R) : Drawn draw source params (outcome
      (taskValue source.valueType
        (Int64.ofInt (Doubles.toInt (draw params.1 params.2 engine).1)))
      (thresholdValue source.minReadValue) (thresholdValue source.maxReadValue) source.scaleFactor)

section Params
variable {stod : String → Except Exception D} {measures : List (MeasConfig.Measure D)}
  {start params : TreeMap ℤ (D × D) compare} {address : ℤ}

omit [Doubles D] in
theorem FirstParams.cons {meas : MeasConfig.Measure D} {p : D × D}
    (h : FirstParams stod measures address p) (hne : meas.source.address ≠ address) :
    FirstParams stod (meas :: measures) address p := by
  obtain ⟨before, own, after, rfl, howned, hothers, hparams⟩ := h
  refine ⟨meas :: before, own, after, rfl, howned, ?_, hparams⟩
  exact List.forall_mem_cons.mpr ⟨hne, hothers⟩

omit [Doubles D] in
/-- What an address has is kept. -/
theorem randomParams_kept (h : randomParams stod measures start = .ok params) {p : D × D}
    (hp : start[address]? = some p) : params[address]? = some p := by
  induction measures generalizing start with
  | nil =>
    cases h
    exact hp
  | cons meas measures ih =>
    unfold randomParams at h
    split_ifs at h with hknown
    · exact ih h hp
    · obtain ⟨param, _, hrest⟩ := bind_eq_ok.mp h
      refine ih hrest ?_
      have other : meas.source.address ≠ address := by
        rintro rfl
        rw [TreeMap.contains_eq_isSome_getElem?, hp] at hknown
        exact hknown rfl
      rw [TreeMap.getElem?_insert, if_neg (by simpa using other)]
      exact hp

omit [Doubles D] in
theorem randomParams_first (h : randomParams stod measures start = .ok params)
    (hnew : start.contains address = false) {meas : MeasConfig.Measure D} (hmeas : meas ∈ measures)
    (haddress : meas.source.address = address) :
    ∃ p, params[address]? = some p ∧ FirstParams stod measures address p := by
  induction measures generalizing start with
  | nil => cases hmeas
  | cons first measures ih =>
    unfold randomParams at h
    split_ifs at h with hknown
    · have hne : first.source.address ≠ address := by
        rintro rfl
        rw [hnew] at hknown
        cases hknown
      have later : meas ∈ measures := by
        rcases List.mem_cons.mp hmeas with rfl | hlater
        · exact absurd haddress hne
        · exact hlater
      obtain ⟨p, hp, hfirst⟩ := ih h hnew later
      exact ⟨p, hp, hfirst.cons hne⟩
    · obtain ⟨param, hparam, hrest⟩ := bind_eq_ok.mp h
      by_cases hown : first.source.address = address
      · refine ⟨param, randomParams_kept hrest ?_, [], first, measures, rfl, hown, by simp, hparam⟩
        rw [hown, TreeMap.getElem?_insert_self]
      · have later : meas ∈ measures := by
          rcases List.mem_cons.mp hmeas with rfl | hlater
          · exact absurd haddress hown
          · exact hlater
        obtain ⟨p, hp, hfirst⟩ := ih hrest (contains_insert_false.mpr ⟨hown, hnew⟩) later
        exact ⟨p, hp, hfirst.cons hown⟩

end Params

section Reads
variable {draw : D → D → R → D × R} {params : TreeMap ℤ (D × D) compare} {p : D × D}
  {source : MeasConfig.SourceRegister D}

/-- Both kinds of registers are drawn from the same distribution. -/
theorem readRegister_random (hp : params[source.address]? = some p) (id : ℤ) (name : String)
    (engine : R) : (readRegister (RandomSlave.concept draw params id name) source).run engine =
      .ok (Int64.ofInt (Doubles.toInt (draw p.1 p.2 engine).1)) (draw p.1 p.2 engine).2 := by
  have read (regsize : ℤ) (endianess : WordEndianess) :
      (RandomSlave.readInputRegisters draw params source.address regsize endianess).run engine =
        .ok (Int64.ofInt (Doubles.toInt (draw p.1 p.2 engine).1)) (draw p.1 p.2 engine).2 := by
    unfold RandomSlave.readInputRegisters
    rw [hp]
    rfl
  unfold readRegister
  split_ifs
  · exact read 0 .little
  · exact read (regSize source.valueType) source.endianess

theorem drawn_measure (hmin : source.minReadValue.Fits source.valueType)
    (hmax : source.maxReadValue.Fits source.valueType) (hp : params[source.address]? = some p)
    (id : ℤ) (name : String) (sources : Sources R) : Drawn draw source p
      (MeasExecutor.measure (randomSource (RandomSlave.concept draw params id name)) source
        sources).1 := by
  unfold MeasExecutor.measure
  rw [readRegister_randomSource, onEngine_run, readRegister_random hp]
  dsimp only
  rw [classify_outcome hmin hmax]
  exact .draw sources.engine

theorem Drawn.kind {outcome : SampleType × D} (h : Drawn draw source p outcome) :
    outcome.1 ≠ .readFailure := by
  cases h with
  | draw engine =>
    unfold Classification.outcome
    split_ifs <;> exact fun h => by cases h

theorem makeSlave_random {env : Environment D R} {slaves : List ℤ} {server : MeasConfig.ModbusServer}
    {measures : List (MeasConfig.Measure D)} {slave : SlaveConcept (Sources R)}
    (h : makeSlave env slaves server measures = .ok slave) (hrandom : server.serialDevice = "") :
    ∃ params, randomParams env.stod measures ∅ = .ok params ∧
      slave = randomSource (RandomSlave.concept env.draw params server.modbusId server.name) := by
  rw [makeSlave, if_pos hrandom] at h
  obtain ⟨params, hparams, hslave⟩ := bind_eq_ok.mp h
  unfold emplaceSlave at hslave
  split_ifs at hslave
  exact ⟨params, hparams, (Except.ok.inj hslave).symm⟩

end Reads

section Run
variable {fileabs : Bool} {env : Environment D R} {o : Options}
  {configmap : MeasConfig.ConfigurationMap D} {boot : Boot R D}

/-- A set-up that completes has made a slave for every server. -/
theorem served (hsetUp : (setUp fileabs env o configmap).run
      { reporter := { outFolder := o.outFolder } } = .ok () boot)
    {desc : MeasConfig.Descriptor D} (hdesc : desc ∈ descriptors configmap) :
    ∃ slave slaves, makeSlave env slaves desc.server desc.measures = .ok slave := by
  obtain ⟨_, _, hall⟩ := setUp_ok hsetUp
  rw [← hall] at hdesc
  obtain ⟨⟨slave, other⟩, hmem, rfl⟩ := List.mem_map.mp hdesc
  exact ⟨slave, (constructed_serves hmem).2⟩

/-- In every run, whatever is counted or listed for a measure of a random server is the outcome
    of a draw with the parameters of the first measure at its address, and no read of it fails. -/
theorem reports_drawn
    (hsetUp : (setUp fileabs env o configmap).run { reporter := { outFolder := o.outFolder } } =
      .ok () boot) {sources : Sources R} {start : ℤ}
    {l : Loop (Fin boot.scheduler.length) (System (Sources R) D)}
    (hreach : Reachable (handlers boot.scheduler)
      (posted boot.scheduler { sources := sources, reporter := boot.reporter } start) l)
    {desc : MeasConfig.Descriptor D} (hdesc : desc ∈ descriptors configmap)
    {meas : MeasConfig.Measure D} (hmeas : meas ∈ desc.measures)
    {j : MeasConfig.Json D} {errno errno' : MeasConfig.Errno}
    (haccepted : (MeasConfig.sourceFromJson j).run errno = .ok meas.source errno')
    (hrandom : desc.server.serialDevice = "") :
    let key : Key := (⟨desc.server.name, desc.server.modbusId⟩, meas.name)
    ∃ params, FirstParams env.stod desc.measures meas.source.address params ∧
      (∀ result, l.system.reporter.find key = some result →
        Backed (Drawn env.draw meas.source params) (recordCount result.data) result.data.samples) ∧
      ∀ file ∈ l.system.reports, periodCount key .readFailure file.2 = 0 ∧
        Backed (Drawn env.draw meas.source params) (fun kind => periodCount key kind file.2)
          (listedSamples key file.2) := by
  intro key
  obtain ⟨_, _, _, hmin, hmax⟩ := MeasConfig.sourceFromJson_ok haccepted
  obtain ⟨slave, slaves, hslave⟩ := served hsetUp hdesc
  obtain ⟨params, hparams, _⟩ := makeSlave_random hslave hrandom
  obtain ⟨p, hp, hfirst⟩ :=
    randomParams_first hparams TreeMap.contains_emptyc hmeas rfl
  have grounded : Grounded env configmap key (fun _ => True)
      (fun _ => Drawn env.draw meas.source p) := by
    constructor
    intro slave other asked sources hserves _
    refine ⟨trivial, fun _ older => older, fun hkey => ?_⟩
    obtain ⟨rfl, rfl⟩ := serves_unique hsetUp hdesc hmeas hserves hkey
    obtain ⟨_, _, slaves, hslave⟩ := hserves
    obtain ⟨params', hparams', rfl⟩ := makeSlave_random hslave hrandom
    rw [hparams] at hparams'
    cases hparams'
    exact drawn_measure hmin hmax hp _ _ sources
  obtain ⟨pending, reported⟩ := grounded.reachable hsetUp hreach trivial
  refine ⟨p, hfirst, pending, fun file hfile => ⟨?_, reported file hfile⟩⟩
  by_contra hfailed
  obtain ⟨value, hvalue⟩ := (reported file hfile).counts .readFailure (Nat.pos_of_ne_zero hfailed)
  exact hvalue.kind rfl

end Run

def levelMeasure : MeasConfig.Measure Float where
  name := "level"
  samplingPeriod := 5
  source :=
    { address := 0
      endianess := .little
      regType := .holding
      valueType := .int16
      minReadValue := .signed (-100)
      maxReadValue := .signed 100
      scaleFactor := Doubles.ofInt 1
      randomMeanDev := "20:1" }

def levelSource : MeasConfig.Json Float := .object [("address", .integer 0),
  ("endianess", .string "little"), ("reg_type", .string "holding"), ("value_type", .string "INT16"),
  ("min_read_value", .string "-100"), ("max_read_value", .string "100"),
  ("random_mean_dev", .string "20:1")]

def levelSlave : SlaveConcept (Sources Unit) :=
  let params : TreeMap ℤ (Float × Float) compare :=
    (∅ : TreeMap ℤ (Float × Float) compare).insert 0 (Doubles.ofInt 20, Doubles.ofInt 20)
  randomSource (RandomSlave.concept meanEnvironment.draw params 1 "tank")

def levelTasks : Scheduler (System (Sources Unit) Float) :=
  [Job.report 300, Job.measure levelSlave levelMeasure].map Job.scheduled

def levelKey : Key := (⟨"tank", 1⟩, "level")

theorem level_setUp : ∃ reporter, (setUp false meanEnvironment {} randomConfig).run
      { reporter := { outFolder := "/tmp" } } =
        .ok () { reporter := reporter, scheduler := levelTasks } ∧
    (reporter.find levelKey).isSome := ⟨_, rfl, rfl⟩

/-- The report generator waits, the measure draws a first number. -/
theorem level_run {reporter : Reporter Float}
    (hconfigured : (reporter.find levelKey).isSome) (sources : Sources Unit) :
    ∃ l result, Reachable (handlers levelTasks)
        (posted levelTasks { sources := sources, reporter := reporter } (fromTimeT 1709210096)) l ∧
      l.system.reporter.find levelKey = some result ∧
      ∃ kind, 0 < recordCount result.data kind := by
  let system0 : System (Sources Unit) Float := { sources := sources, reporter := reporter }
  obtain ⟨system1, htask, _, _, hfind⟩ :=
    measTask_run levelSlave levelMeasure 1709210096 system0 hconfigured
  obtain ⟨before, hbefore⟩ := Option.isSome_iff_exists.mp hconfigured
  have first : ((Job.report 300).scheduled.start (fromTimeT 1709210096) (fromTimeT 1709210096)).run
      system0 = .ok (fromTimeT 1709210100) system0 :=
    start_aligns rfl (by decide +kernel) _ _
  have second : ((Job.measure levelSlave levelMeasure).scheduled.start (fromTimeT 1709210096)
      (fromTimeT 1709210096)).run system0 = .ok (fromTimeT 1709210101) system1 :=
    start_executes rfl htask (fromTimeT 1709210096)
  have run1 := Relation.ReflTransGen.refl.tail (Step.start (h := handlers levelTasks)
    (l := posted levelTasks system0 (fromTimeT 1709210096)) rfl (Int.le_refl _) (Int.le_refl _) first)
  have run2 := run1.tail (Step.start rfl (Int.le_refl _) (Int.le_refl _) second)
  let outcome := (MeasExecutor.measure levelSlave levelMeasure.source sources).1
  have recorded : system1.reporter.find levelKey = some { before with
      data := before.data.add 1709210096 outcome.2 outcome.1 } := by
    rw [hfind, if_pos (show taskKey levelSlave levelMeasure = levelKey from rfl)]
    change Option.map _ (reporter.find levelKey) = _
    rw [hbefore]
    rfl
  refine ⟨_, _, run2, recorded, outcome.1, ?_⟩
  rw [recordCount_add, if_pos rfl]
  exact Nat.succ_pos _

theorem reports_drawn_level : ∃ (boot : Boot Unit Float)
    (l : Loop (Fin boot.scheduler.length) (System (Sources Unit) Float)) (result : Result Float)
    (params : Float × Float), l.system.reporter.find levelKey = some result ∧
      (∃ kind, 0 < recordCount result.data kind) ∧
      FirstParams meanEnvironment.stod [levelMeasure] 0 params ∧
      Backed (Drawn meanEnvironment.draw levelMeasure.source params) (recordCount result.data)
        result.data.samples := by
  obtain ⟨reporter, hsetUp, hconfigured⟩ := level_setUp
  obtain ⟨l, result, hreach, hresult, hcounted⟩ :=
    level_run hconfigured { connection := fun _ => [], engine := () }
  have described : ({ server := { modbusId := 1, name := "tank" }, measures := [levelMeasure] } :
      MeasConfig.Descriptor Float) ∈ descriptors randomConfig := List.mem_singleton_self _
  have accepted : (MeasConfig.sourceFromJson levelSource).run .other =
      .ok levelMeasure.source .other := by rfl
  obtain ⟨params, hparams, hpending, _⟩ :=
    reports_drawn hsetUp hreach described (List.mem_singleton_self _) accepted rfl
  exact ⟨{ reporter := reporter, scheduler := levelTasks }, l, result, params, hresult, hcounted,
    hparams, hpending result hresult⟩

end ModbusCrawler.RandomReadings
