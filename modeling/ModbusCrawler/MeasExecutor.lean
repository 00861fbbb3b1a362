import ModbusCrawler.MeasConfig
import ModbusCrawler.MeasReporter
import ModbusCrawler.ModbusSlave
import ModbusCrawler.PeriodicScheduler

set_option autoImplicit false

/-!
# The executor: `crawler/meas_executor.h` and `meas_executor.cpp`

Its tasks run over a `System`: the sources they read, the reporter, and the
reports made so far. Log lines are left out.
-/
namespace ModbusCrawler.MeasExecutor
open Std FailStop ModbusTypes ModbusSlave MeasConfig MeasReporter PeriodicScheduler

variable {σ D R : Type} [Doubles D]

/-- `reports` is what `close_period` made, with the paths it was meant for: a file that cannot be
    opened, or that a later one truncates, is still among them. -/
structure System (σ D : Type) [Doubles D] where
  sources : σ
  reporter : Reporter D
  reports : List (String × PeriodReport D) := []

def readRegister (slave : SlaveConcept σ) (source : SourceRegister D) :
    EStateM Exception σ Int64 :=
  if source.regType = .holding then
    slave.readHoldingRegisters source.address (regSize source.valueType) source.endianess
  else slave.readInputRegisters source.address (regSize source.valueType) source.endianess

/-- What the task does with the value it read, up to `add_measurement`. -/
def classify (source : SourceRegister D) (regValue : Int64) : Except Exception (SampleType × D) :=
  if valueSigned source.valueType then do
    let minThreshold ← source.minReadValue.asSigned
    let maxThreshold ← source.maxReadValue.asSigned
    if regValue < minThreshold then pure (.underflow, Doubles.quietNaN)
    else if regValue > maxThreshold then pure (.overflow, Doubles.quietNaN)
    else pure (.regular, Doubles.mul (Doubles.ofInt regValue.toInt) source.scaleFactor)
  else do
    let minThreshold ← source.minReadValue.asUnsigned
    let maxThreshold ← source.maxReadValue.asUnsigned
    let unsignedValue := regValue.toUInt64
    if unsignedValue < minThreshold then pure (.underflow, Doubles.quietNaN)
    else if unsignedValue > maxThreshold then pure (.overflow, Doubles.quietNaN)
    else pure (.regular, Doubles.mul (Doubles.ofInt unsignedValue.toNat) source.scaleFactor)

/-- The `try` block with its handler: any exception is a read failure. -/
def measure (slave : SlaveConcept σ) (source : SourceRegister D) (sources : σ) :
    (SampleType × D) × σ :=
  match (readRegister slave source).run sources with
  | .error _ sources => ((.readFailure, Doubles.quietNaN), sources)
  | .ok regValue sources =>
    match classify source regValue with
    | .ok outcome => (outcome, sources)
    | .error _ => ((.readFailure, Doubles.quietNaN), sources)

def onReporter (action : EStateM Exception (Reporter D) Unit) :
    EStateM Exception (System σ D) Unit := fun system =>
  match action.run system.reporter with
  | .ok _ reporter => .ok () { system with reporter := reporter }
  | .error e reporter => .error e { system with reporter := reporter }

/-- The lambda of `add_schedule`. -/
def measTask (slave : SlaveConcept σ) (meas : Measure D) (nowsecs : ℤ) :
    EStateM Exception (System σ D) Unit := fun system =>
  let (outcome, sources) := measure slave meas.source system.sources
  (onReporter (addMeasurement ⟨slave.name, slave.id⟩ meas.name nowsecs outcome.2 outcome.1)).run
    { system with sources := sources }

def addSchedule (slave : SlaveConcept σ) :
    List (Measure D) → Scheduler (System σ D) → Scheduler (System σ D)
  | [], scheduler => scheduler
  | meas :: measures, scheduler =>
    addSchedule slave measures
      (addTask scheduler ("Server_" ++ toString slave.id ++ "/" ++ meas.name) meas.samplingPeriod
        (measTask slave meas) .executeAtStart)

/-- What the slaves read from: the connections, by server id, and the random engines. A
    connection is what one slave has asked through its own context, with the replies; servers
    may share the line behind it. -/
structure Sources (R : Type) where
  connection : ℤ → Log Request Reply
  engine : R

structure Environment (D R : Type) where
  bus : Bus
  stod : String → Except Exception D
  draw : D → D → R → D × R

def onConnection {α : Type} (id : ℤ) (action : Line α) : EStateM Exception (Sources R) α :=
  fun sources =>
    let keep (log : Log Request Reply) : Sources R :=
      { sources with connection := fun other => if other = id then log else sources.connection other }
    match action.run (sources.connection id) with
    | .ok a log => .ok a (keep log)
    | .error e log => .error e (keep log)

def onEngine {α : Type} (action : EStateM Exception R α) : EStateM Exception (Sources R) α :=
  fun sources =>
    match action.run sources.engine with
    | .ok a engine => .ok a { sources with engine := engine }
    | .error e engine => .error e { sources with engine := engine }

def rtuSource (slave : SlaveConcept (Log Request Reply)) : SlaveConcept (Sources R) where
  id := slave.id
  name := slave.name
  readInputRegisters address regsize endianess :=
    onConnection slave.id (slave.readInputRegisters address regsize endianess)
  readHoldingRegisters address regsize endianess :=
    onConnection slave.id (slave.readHoldingRegisters address regsize endianess)

def randomSource (slave : SlaveConcept R) : SlaveConcept (Sources R) where
  id := slave.id
  name := slave.name
  readInputRegisters address regsize endianess :=
    onEngine (slave.readInputRegisters address regsize endianess)
  readHoldingRegisters address regsize endianess :=
    onEngine (slave.readHoldingRegisters address regsize endianess)

/-- The parameters of the random registers: the first measure of an address decides. -/
def randomParams (stod : String → Except Exception D) :
    List (Measure D) → TreeMap ℤ (D × D) compare → Except Exception (TreeMap ℤ (D × D) compare)
  | [], params => .ok params
  | m :: measures, params =>
    if params.contains m.source.address then randomParams stod measures params
    else do
      let param ← RandomSlave.randomParams stod m.source.randomMeanDev
      randomParams stod measures (params.insert m.source.address param)

/-- `slaves_.try_emplace` with its test: the slave is constructed for a new id only. -/
def emplaceSlave {α : Type} (slaves : List ℤ) (id : ℤ) (construct : Except Exception α) :
    Except Exception α :=
  if slaves.contains id then
    .error (.runtimeError ("Failed creating modbus slave for modbus id " ++ toString id))
  else construct

/-- The slave of one server, next to those of the ids in `slaves_`. -/
def makeSlave (env : Environment D R) (slaves : List ℤ) (server : ModbusServer)
    (measures : List (Measure D)) : Except Exception (SlaveConcept (Sources R)) :=
  if server.serialDevice = "" then do
    let params ← randomParams env.stod measures ∅
    emplaceSlave slaves server.modbusId
      (pure (randomSource (RandomSlave.concept env.draw params server.modbusId server.name)))
  else do
    let line ← RTUSlave.serialLine server.serialDevice server.lineConfig
    emplaceSlave slaves server.modbusId (do
      let device ← RTUSlave.connect env.bus server.modbusId line server.answeringTime
      pure (rtuSource (RTUSlave.concept device server.modbusId server.name)))

/-- The loop of the constructor over the configuration map. The tasks handed to the
    scheduler are its state, so they are known when it throws. -/
def executor (env : Environment D R) : List (Descriptor D) → (slaves : List ℤ) →
    EStateM Exception (Scheduler (System (Sources R) D)) Unit
  | [], _ => pure ()
  | el :: rest, slaves =>
    match makeSlave env slaves el.server el.measures with
    | .error e => throw e
    | .ok slave => do
      modify (addSchedule slave el.measures)
      executor env rest (el.server.modbusId :: slaves)

theorem onReporter_run (action : EStateM Exception (Reporter D) Unit) (system : System σ D) :
    (onReporter action).run system =
      match action.run system.reporter with
      | .ok _ reporter => .ok () { system with reporter := reporter }
      | .error e reporter => .error e { system with reporter := reporter } := rfl

theorem makeSlave_key {env : Environment D R} {slaves : List ℤ} {server : ModbusServer}
    {measures : List (Measure D)} {slave : SlaveConcept (Sources R)}
    (h : makeSlave env slaves server measures = .ok slave) :
    slave.name = server.name ∧ slave.id = server.modbusId ∧
      slaves.contains server.modbusId = false := by
  have emplaced {construct : Except Exception (SlaveConcept (Sources R))}
      (h : emplaceSlave slaves server.modbusId construct = .ok slave) :
      slaves.contains server.modbusId = false ∧ construct = .ok slave := by
    unfold emplaceSlave at h
    split_ifs at h with hc
    exact ⟨by simpa using hc, h⟩
  unfold makeSlave at h
  split_ifs at h
  · cases hparams : randomParams env.stod measures ∅ with
    | error e => rw [hparams] at h; cases h
    | ok params =>
      rw [hparams] at h
      obtain ⟨hnew, hslave⟩ := emplaced h
      cases hslave
      exact ⟨rfl, rfl, hnew⟩
  · cases hline : RTUSlave.serialLine server.serialDevice server.lineConfig with
    | error e => rw [hline] at h; cases h
    | ok line =>
      rw [hline] at h
      obtain ⟨hnew, hslave⟩ := emplaced h
      cases hdevice : RTUSlave.connect env.bus server.modbusId line server.answeringTime with
      | error e => rw [hdevice] at hslave; cases hslave
      | ok device =>
        rw [hdevice] at hslave
        cases hslave
        exact ⟨rfl, rfl, hnew⟩

def taskKey (slave : SlaveConcept σ) (meas : Measure D) : Key :=
  (⟨slave.name, slave.id⟩, meas.name)

def Recorded (slave : SlaveConcept σ) (meas : Measure D) (nowsecs : ℤ)
    (system : System σ D) (result : SampleType × D) : Prop :=
  ∃ system', (measTask slave meas nowsecs).run system = .ok () system' ∧
    ∀ key, system'.reporter.find key =
      if taskKey slave meas = key then (system.reporter.find key).map (fun measured =>
        { measured with data := measured.data.add nowsecs result.2 result.1 })
      else system.reporter.find key

/-- Everything a task can do. -/
theorem measTask_cases (slave : SlaveConcept σ) (meas : Measure D) (nowsecs : ℤ)
    (system : System σ D) :
    (∃ system', (measTask slave meas nowsecs).run system = .ok () system' ∧
      system'.reports = system.reports ∧
      system'.reporter.periodId = system.reporter.periodId ∧
      let result := (measure slave meas.source system.sources).1
      ∀ key, system'.reporter.find key =
        if taskKey slave meas = key then (system.reporter.find key).map (fun measured =>
          { measured with data := measured.data.add nowsecs result.2 result.1 })
        else system.reporter.find key) ∨
    (system.reporter.find (taskKey slave meas) = none ∧
      ∃ e system', (measTask slave meas nowsecs).run system = .error e system') := by
  have run : (measTask slave meas nowsecs).run system =
      let (result, sources) := measure slave meas.source system.sources
      (onReporter (addMeasurement (taskKey slave meas).1 (taskKey slave meas).2 nowsecs result.2
        result.1)).run { system with sources := sources } := rfl
  rw [run]
  generalize measure slave meas.source system.sources = measured
  obtain ⟨result, sources⟩ := measured
  dsimp only
  rw [onReporter_run]
  dsimp only
  obtain ⟨reporter, hid, _, _, hadd, hfind⟩ | ⟨e, hnone, hadd⟩ :=
    addMeasurement_run system.reporter (taskKey slave meas) nowsecs result.2 result.1
  · rw [hadd]
    exact .inl ⟨_, rfl, rfl, hid, hfind⟩
  · rw [hadd]
    exact .inr ⟨hnone, e, _, rfl⟩

theorem measTask_run (slave : SlaveConcept σ) (meas : Measure D) (nowsecs : ℤ)
    (system : System σ D) (hconfigured : (system.reporter.find (taskKey slave meas)).isSome) :
    ∃ system', (measTask slave meas nowsecs).run system = .ok () system' ∧
      system'.reports = system.reports ∧
      system'.reporter.periodId = system.reporter.periodId ∧
      let result := (measure slave meas.source system.sources).1
      ∀ key, system'.reporter.find key =
        if taskKey slave meas = key then (system.reporter.find key).map (fun measured =>
          { measured with data := measured.data.add nowsecs result.2 result.1 })
        else system.reporter.find key := by
  rcases measTask_cases slave meas nowsecs system with hok | ⟨hnone, _⟩
  · exact hok
  · rw [hnone] at hconfigured
    cases hconfigured

theorem measTask_recorded (slave : SlaveConcept σ) (meas : Measure D) (nowsecs : ℤ)
    (system : System σ D) (hconfigured : (system.reporter.find (taskKey slave meas)).isSome) :
    Recorded slave meas nowsecs system (measure slave meas.source system.sources).1 := by
  obtain ⟨system', hrun, _, _, hfind⟩ := measTask_run slave meas nowsecs system hconfigured
  exact ⟨system', hrun, hfind⟩

theorem onConnection_ok {α : Type} {id : ℤ} {action : Line α} {sources : Sources R} {a : α}
    {log : Log Request Reply} (h : action.run (sources.connection id) = .ok a log) :
    (onConnection id action).run sources = .ok a { sources with
      connection := fun other => if other = id then log else sources.connection other } := by
  unfold onConnection
  change (match action.run (sources.connection id) with | .ok _ _ => _ | .error _ _ => _) = _
  rw [h]

theorem onConnection_error {α : Type} {id : ℤ} {action : Line α} {sources : Sources R} {e : Exception}
    {log : Log Request Reply} (h : action.run (sources.connection id) = .error e log) :
    (onConnection id action).run sources = .error e { sources with
      connection := fun other => if other = id then log else sources.connection other } := by
  unfold onConnection
  change (match action.run (sources.connection id) with | .ok _ _ => _ | .error _ _ => _) = _
  rw [h]

omit [Doubles D] in
theorem readRegister_rtuSource (slave : SlaveConcept (Log Request Reply))
    (source : SourceRegister D) :
    readRegister (rtuSource slave : SlaveConcept (Sources R)) source =
      onConnection slave.id (readRegister slave source) := by
  unfold readRegister
  split_ifs <;> rfl

theorem measure_rtuSource (slave : SlaveConcept (Log Request Reply)) (source : SourceRegister D)
    (sources : Sources R) : (measure (rtuSource slave) source sources).1 =
      (measure slave source (sources.connection slave.id)).1 := by
  unfold measure
  rw [readRegister_rtuSource]
  cases hrun : (readRegister slave source).run (sources.connection slave.id) with
  | error e log =>
    rw [onConnection_error hrun]
  | ok regValue log =>
    rw [onConnection_ok hrun]
    dsimp only
    cases classify source regValue <;> rfl

theorem addSchedule_eq (slave : SlaveConcept σ) (measures : List (Measure D))
    (scheduler : Scheduler (System σ D)) :
    addSchedule slave measures scheduler = scheduler ++ measures.map (fun meas =>
      ⟨"Server_" ++ toString slave.id ++ "/" ++ meas.name, meas.samplingPeriod,
        measTask slave meas, .executeAtStart⟩) := by
  induction measures generalizing scheduler with
  | nil => simp [addSchedule]
  | cons meas measures ih =>
    rw [addSchedule, ih, addTask, List.append_assoc]
    rfl

end ModbusCrawler.MeasExecutor
