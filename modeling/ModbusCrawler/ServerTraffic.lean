import ModbusCrawler.Classification
import ModbusCrawler.ConfigCodec
import ModbusCrawler.CrawlerRuns

set_option autoImplicit false

/-!
# What a run asks its servers

A measure of a server on a serial line is one read request on the connection of
that server, whatever becomes of the answer; nothing else is ever sent there.
-/
namespace ModbusCrawler.ServerTraffic
open FailStop ModbusTypes ModbusSlave MeasReporter MeasExecutor CrawlerMain EventLoop
open Classification TaskAccounting ReportPeriods CrawlerRuns

variable {σ D R : Type}

/-- What an executed work asks on the connection of a server. -/
def requests (id : ℤ) : Work D → List Request
  | .measure server meas =>
    if server.serialDevice ≠ "" ∧ server.modbusId = id ∧
        regsizeSupported (regSize meas.source.valueType) then [readRequest meas.source] else []
  | _ => []

def sent (log : Log Request Reply) : List Request := log.map Prod.fst

theorem onEngine_run {α : Type} (action : EStateM Exception R α) (sources : Sources R) :
    (onEngine action).run sources =
      match action.run sources.engine with
      | .ok a engine => .ok a { sources with engine := engine }
      | .error e engine => .error e { sources with engine := engine } := rfl

theorem readRegister_randomSource (slave : SlaveConcept R) (source : MeasConfig.SourceRegister D) :
    readRegister (randomSource slave : SlaveConcept (Sources R)) source =
      onEngine (readRegister slave source) := by
  unfold readRegister
  split_ifs <;> rfl

variable [Doubles D]

/-- What the task makes of a reply to its request. -/
def judge (source : MeasConfig.SourceRegister D) (reply : Reply) : SampleType × D :=
  if reply.apiRv.toInt = regSize source.valueType then
    match toVal source.endianess reply.regs (regSize source.valueType) with
    | some val =>
      match classify source val with
      | .ok outcome => outcome
      | .error _ => (.readFailure, Doubles.quietNaN)
    | none => (.readFailure, Doubles.quietNaN)
  else (.readFailure, Doubles.quietNaN)

/-- A read either asks once and judges the reply, or it asks nothing. -/
theorem measure_concept (device : Device) (id : ℤ) (name : String)
    (source : MeasConfig.SourceRegister D) (log : Log Request Reply) :
    MeasExecutor.measure (RTUSlave.concept device id name) source log =
      if regsizeSupported (regSize source.valueType) then
        let reply := device log (readRequest source)
        (judge source reply, log ++ [(readRequest source, reply)])
      else ((.readFailure, Doubles.quietNaN), log) := by
  have read : ∃ callName, (readRegister (RTUSlave.concept device id name) source).run log =
      (RTUSlave.readTyped device (fun _ _ => readRequest source) callName source.address
        (regSize source.valueType) source.endianess).run log := by
    unfold readRegister readRequest
    split_ifs
    · exact ⟨_, rfl⟩
    · exact ⟨_, rfl⟩
  obtain ⟨callName, read⟩ := read
  unfold MeasExecutor.measure
  rw [read]
  cases hsize : regsizeSupported (regSize source.valueType) with
  | false =>
    have stops : (RTUSlave.readTyped device (fun _ _ => readRequest source) callName source.address
        (regSize source.valueType) source.endianess).run log =
        .error (.invalidArgument ("Invalid regsize: " ++ toString (regSize source.valueType : ℤ)))
          log := by
      unfold RTUSlave.readTyped
      rw [hsize]
      rfl
    rw [stops]
    rfl
  | true =>
    rw [readTyped_run _ _ _ _ _ _ _ hsize, if_pos rfl]
    unfold judge
    dsimp only
    by_cases hanswered : (device log (readRequest source)).apiRv.toInt = regSize source.valueType
    · rw [if_pos hanswered, if_pos hanswered]
      cases toVal source.endianess (device log (readRequest source)).regs
          (regSize source.valueType) with
      | none => rfl
      | some val =>
        dsimp only
        cases classify source val <;> rfl
    · rw [if_neg hanswered, if_neg hanswered]

/-- A source on a connection reads and writes that one only. -/
theorem measure_rtuSource_connection (slave : SlaveConcept (Log Request Reply))
    (source : MeasConfig.SourceRegister D) (sources : Sources R) (id : ℤ) :
    (MeasExecutor.measure (rtuSource slave) source sources).2.connection id =
      if id = slave.id then (MeasExecutor.measure slave source (sources.connection slave.id)).2
      else sources.connection id := by
  unfold MeasExecutor.measure
  rw [readRegister_rtuSource]
  cases hrun : (readRegister slave source).run (sources.connection slave.id) with
  | error e log => rw [onConnection_error hrun]
  | ok regValue log =>
    rw [onConnection_ok hrun]
    dsimp only
    cases classify source regValue <;> rfl

/-- A random slave has no connection. -/
theorem measure_randomSource_connection (slave : SlaveConcept R) (source : MeasConfig.SourceRegister D)
    (sources : Sources R) :
    (MeasExecutor.measure (randomSource slave) source sources).2.connection = sources.connection := by
  unfold MeasExecutor.measure
  rw [readRegister_randomSource, onEngine_run]
  cases (readRegister slave source).run sources.engine with
  | error e engine => rfl
  | ok regValue engine =>
    dsimp only
    cases classify source regValue <;> rfl

/-- The two kinds of slave that the executor constructs. -/
theorem makeSlave_cases {env : Environment D R} {slaves : List ℤ} {server : MeasConfig.ModbusServer}
    {measures : List (MeasConfig.Measure D)} {slave : SlaveConcept (Sources R)}
    (h : makeSlave env slaves server measures = .ok slave) :
    (server.serialDevice = "" ∧ ∃ params, slave =
      randomSource (RandomSlave.concept env.draw params server.modbusId server.name)) ∨
    (server.serialDevice ≠ "" ∧ ∃ device, slave =
      rtuSource (RTUSlave.concept device server.modbusId server.name)) := by
  have emplaced {construct : Except Exception (SlaveConcept (Sources R))}
      (h : emplaceSlave slaves server.modbusId construct = .ok slave) : construct = .ok slave := by
    unfold emplaceSlave at h
    split_ifs at h
    exact h
  unfold makeSlave at h
  split_ifs at h with hdevice
  · refine .inl ⟨hdevice, ?_⟩
    obtain ⟨params, _, hslave⟩ := bind_eq_ok.mp h
    exact ⟨params, (Except.ok.inj (emplaced hslave)).symm⟩
  · refine .inr ⟨hdevice, ?_⟩
    obtain ⟨line, _, hslave⟩ := bind_eq_ok.mp h
    obtain ⟨device, _, hslave⟩ := bind_eq_ok.mp (emplaced hslave)
    exact ⟨device, (Except.ok.inj hslave).symm⟩

theorem measTask_sources {slave : SlaveConcept σ} {meas : MeasConfig.Measure D} {now : ℤ}
    {system system' : System σ D} (h : (measTask slave meas now).run system = .ok () system') :
    system'.sources = (MeasExecutor.measure slave meas.source system.sources).2 := by
  unfold measTask at h
  change (onReporter _).run _ = _ at h
  rw [onReporter_run] at h
  split at h
  · cases h
    rfl
  · cases h

/-- Everything that a measure does to a connection: its requests are added, with their replies,
    and a reply decides what is recorded. -/
theorem measure_heard {env : Environment D R} {slaves : List ℤ} {server : MeasConfig.ModbusServer}
    {measures : List (MeasConfig.Measure D)} {slave : SlaveConcept (Sources R)}
    (hslave : makeSlave env slaves server measures = .ok slave) (meas : MeasConfig.Measure D)
    (sources : Sources R) (id : ℤ) :
    ∃ heard, (MeasExecutor.measure slave meas.source sources).2.connection id =
        sources.connection id ++ heard ∧
      sent heard = requests id (.measure server meas) ∧
      ∀ exchange ∈ heard, (MeasExecutor.measure slave meas.source sources).1 =
        judge meas.source exchange.2 := by
  rcases makeSlave_cases hslave with ⟨hrandom, params, rfl⟩ | ⟨hserial, device, rfl⟩
  · refine ⟨[], ?_, ?_, by simp⟩
    · rw [measure_randomSource_connection, List.append_nil]
    · rw [requests, if_neg (fun h => h.1 hrandom)]
      rfl
  · have own : (RTUSlave.concept device server.modbusId server.name).id = server.modbusId := rfl
    rw [measure_rtuSource_connection, measure_rtuSource, measure_concept, own]
    by_cases hid : id = server.modbusId
    · subst hid
      rw [if_pos rfl]
      cases hsize : regsizeSupported (regSize meas.source.valueType) with
      | false =>
        refine ⟨[], ?_, ?_, by simp⟩
        · exact (List.append_nil _).symm
        · rw [requests, hsize, if_neg (fun h => by cases h.2.2)]
          rfl
      | true =>
        refine ⟨[_], rfl, ?_, ?_⟩
        · rw [requests, if_pos ⟨hserial, rfl, hsize⟩]
          rfl
        · intro exchange hexchange
          rw [List.mem_singleton.mp hexchange]
          rfl
    · refine ⟨[], ?_, ?_, by simp⟩
      · rw [if_neg hid, List.append_nil]
      · rw [requests, if_neg (fun h => hid h.2.1.symm)]
        rfl

/-- A tick puts the requests of its work on the connection of their server. -/
theorem perform_sent {env : Environment D R} {tick : Tick (Sources R) D} {work : Work D × ℤ}
    (hperforms : Performs env tick work) {system system' : System (Sources R) D}
    (hrun : (perform tick).run system = .ok () system') (id : ℤ) :
    sent (system'.sources.connection id) =
      sent (system.sources.connection id) ++ requests id work.1 := by
  obtain ⟨job, now⟩ := tick
  obtain ⟨work, stamp⟩ := work
  obtain ⟨himplements, _⟩ := hperforms
  cases himplements with
  | report interval =>
    cases hrun
    exact (List.append_nil _).symm
  | rotate interval =>
    cases hrun
    exact (List.append_nil _).symm
  | measure hslave meas =>
    obtain ⟨heard, hconnection, hsent, _⟩ := measure_heard hslave meas system.sources id
    rw [measTask_sources hrun, hconnection, sent, List.map_append, ← hsent]
    rfl

theorem ticks_sent {env : Environment D R} {ticks : List (Tick (Sources R) D)}
    {works : List (Work D × ℤ)} (hperforms : List.Forall₂ (Performs env) ticks works)
    {system system' : System (Sources R) D}
    (hrun : (forM ticks perform).run system = .ok () system') (id : ℤ) :
    sent (system'.sources.connection id) =
      sent (system.sources.connection id) ++ works.flatMap (fun work => requests id work.1) := by
  induction hperforms generalizing system with
  | nil =>
    cases hrun
    exact (List.append_nil _).symm
  | @cons tick work ticks works head tail ih =>
    rw [List.forM_cons] at hrun
    obtain ⟨_, system1, hfirst, hrest⟩ := MeasConfig.bind_ok hrun
    rw [ih hrest, perform_sent head hfirst, List.flatMap_cons, List.append_assoc]

/-- In every run, what is sent on the connection of a server is exactly one read for each
    executed measure of the server, in the order of the executions. -/
theorem connection_traffic {fileabs : Bool} {env : Environment D R} {o : Options}
    {configmap : MeasConfig.ConfigurationMap D} {boot : Boot R D}
    (hsetUp : (setUp fileabs env o configmap).run { reporter := { outFolder := o.outFolder } } =
      .ok () boot) {sources : Sources R} {start : ℤ}
    {l : Loop (Fin boot.scheduler.length) (System (Sources R) D)}
    (hreach : Reachable (handlers boot.scheduler)
      (posted boot.scheduler { sources := sources, reporter := boot.reporter } start) l) (id : ℤ) :
    sent (l.system.sources.connection id) = sent (sources.connection id) ++
      (timeline (plan fileabs o configmap) l.history).flatMap (fun work => requests id work.1) := by
  obtain ⟨jobs, _, _, ticks, hperforms, _, hrun⟩ := run_ticks hsetUp hreach
  exact ticks_sent hperforms hrun id

theorem connection_traffic_slow : ∃ (boot : Boot Unit Float)
    (l : Loop (Fin boot.scheduler.length) (System (Sources Unit) Float)) (path : String)
    (report : PeriodReport Float), l.system.reports = [(path, report)] ∧
      sent (l.system.sources.connection 1) = (timeline (plan false {} slowConfig) l.history).flatMap
        (fun work => requests 1 work.1) := by
  obtain ⟨reporter, result, hsetUp, hinflow, houtflow, hraw⟩ := slow_setUp
  obtain ⟨l, path, report, hreach, hreports, _⟩ :=
    slow_run hinflow houtflow hraw { connection := fun _ => [], engine := () }
  exact ⟨{ reporter := reporter, scheduler := slowTasks }, l, path, report, hreports,
    connection_traffic hsetUp hreach 1⟩

end ModbusCrawler.ServerTraffic
