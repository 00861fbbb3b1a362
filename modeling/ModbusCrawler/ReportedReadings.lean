import ModbusCrawler.ServerReports

set_option autoImplicit false

/-!
# Where the reported readings come from

Whatever is counted or listed for a measure on a serial line was made of a reply that
the connected device gave to the server's slave, during the run.
-/
namespace ModbusCrawler.ReportedReadings
open FailStop ModbusTypes ModbusSlave MeasReporter MeasExecutor CrawlerMain EventLoop
open Classification ReporterHistory TaskAccounting ReportPeriods CrawlerRuns WholeRuns ServerTraffic
open ServerReports

variable {D R : Type}

/-- The device that a server on a serial line is connected to. -/
def Connected (bus : Bus) (server : MeasConfig.ModbusServer) (device : Device) : Prop :=
  server.serialDevice ≠ "" ∧
    ∃ line, RTUSlave.serialLine server.serialDevice server.lineConfig = .ok line ∧
      RTUSlave.connect bus server.modbusId line server.answeringTime = .ok device

def Answered (device : Device) (source : MeasConfig.SourceRegister D) (log : Log Request Reply) :
    Prop :=
  (device log (readRequest source)).apiRv.toInt = regSize source.valueType

/-- A read that succeeds stores as many words as it was asked for. -/
def Stores (device : Device) (source : MeasConfig.SourceRegister D) : Prop :=
  ∀ log, Answered device source log →
    (device log (readRequest source)).regs.length = regSize source.valueType

variable [Doubles D]

/-- What the words of the registers count as. -/
def shown (source : MeasConfig.SourceRegister D) (words : List UInt16) : SampleType × D :=
  outcome (seen source.valueType (encoded source.valueType source.endianess words))
    (thresholdValue source.minReadValue) (thresholdValue source.maxReadValue) source.scaleFactor

/-- The outcomes of the replies that a device gave on a connection, after what was there before. -/
inductive Observed (device : Device) (source : MeasConfig.SourceRegister D)
    (old log : Log Request Reply) : SampleType × D → Prop
  | read {heard after : Log Request Reply} {words : List UInt16} :
      log = old ++ heard ++
        (readRequest source, device (old ++ heard) (readRequest source)) :: after →
      Reads device (old ++ heard) source words → Observed device source old log (shown source words)
  | refused {heard after : Log Request Reply} :
      log = old ++ heard ++
        (readRequest source, device (old ++ heard) (readRequest source)) :: after →
      ¬ Answered device source (old ++ heard) →
      Observed device source old log (.readFailure, Doubles.quietNaN)

/-- Everything that is counted or listed is one of some outcomes. -/
structure Backed (possible : SampleType × D → Prop) (counts : SampleType → ℕ)
    (samples : Samples D) : Prop where
  counts : ∀ kind, 0 < counts kind → ∃ value, possible (kind, value)
  samples : ∀ sample ∈ samples, possible (.regular, sample.2)

section Backing
variable {possible more : SampleType × D → Prop} {counts : SampleType → ℕ} {samples : Samples D}

omit [Doubles D] in
theorem Backed.mono (h : Backed possible counts samples)
    (himp : ∀ outcome, possible outcome → more outcome) : Backed more counts samples := by
  refine ⟨fun kind hkind => ?_, fun sample hsample => himp _ (h.samples sample hsample)⟩
  obtain ⟨value, hvalue⟩ := h.counts kind hkind
  exact ⟨value, himp _ hvalue⟩

omit [Doubles D] in
theorem backed_nothing : Backed possible (fun _ => 0) [] :=
  ⟨fun _ h => absurd h (Nat.lt_irrefl 0), fun _ h => absurd h List.not_mem_nil⟩

theorem Backed.add {data : Data D} (h : Backed possible (recordCount data) data.samples)
    {outcome : SampleType × D} (houtcome : possible outcome) (now : ℤ) :
    Backed possible (recordCount (data.add now outcome.2 outcome.1))
      (data.add now outcome.2 outcome.1).samples := by
  obtain ⟨sampleType, value⟩ := outcome
  constructor
  · intro kind hkind
    rw [recordCount_add] at hkind
    by_cases hsame : kind = sampleType
    · rw [hsame]
      exact ⟨value, houtcome⟩
    · rw [if_neg hsame, Nat.add_zero] at hkind
      exact h.counts kind hkind
  · intro sample hsample
    cases sampleType with
    | regular =>
      rcases List.mem_append.mp hsample with hold | hnew
      · exact h.samples sample hold
      · rw [List.mem_singleton.mp hnew]
        exact houtcome
    | _ => exact h.samples sample hsample

theorem Backed.reset (data : Data D) :
    Backed possible (recordCount data.reset) data.reset.samples := by
  refine ⟨fun kind hkind => ?_, fun _ h => absurd h List.not_mem_nil⟩
  cases kind <;> cases hkind

/-- A report says what was pending, and its samples only if they are asked for. -/
theorem Backed.report {r : Reporter D} {key : Key} (now : ℤ)
    (h : ∀ result, r.find key = some result →
      Backed possible (recordCount result.data) result.data.samples) :
    Backed possible (fun kind => periodCount key kind (closePeriod r now).1.2)
      (listedSamples key (closePeriod r now).1.2) := by
  unfold periodCount listedSamples
  cases hfind : r.find key with
  | none =>
    rw [find_no_entry hfind]
    exact backed_nothing
  | some result =>
    rw [find_entry hfind]
    obtain ⟨counts, samples⟩ := h result hfind
    constructor
    · intro kind hkind
      refine counts kind ?_
      cases kind <;> exact hkind
    · intro sample hsample
      change sample ∈ (if result.descriptor.reportRawSamples then some result.data.samples
        else none).getD [] at hsample
      split_ifs at hsample
      · exact samples sample hsample
      · cases hsample

end Backing

/-- Everything that was reported for a key or waits to be is one of some outcomes. -/
structure Traced (possible : SampleType × D → Prop) (key : Key)
    (system : System (Sources R) D) : Prop where
  pending : ∀ result, system.reporter.find key = some result →
    Backed possible (recordCount result.data) result.data.samples
  reported : ∀ file ∈ system.reports,
    Backed possible (fun kind => periodCount key kind file.2) (listedSamples key file.2)

section Steps
variable {device : Device} {source : MeasConfig.SourceRegister D} {old log : Log Request Reply}
  {system system' : System (Sources R) D} {possible more : SampleType × D → Prop} {key : Key}

theorem Observed.grow {outcome : SampleType × D} (h : Observed device source old log outcome)
    (later : Log Request Reply) : Observed device source old (log ++ later) outcome := by
  cases h with
  | read hline hreads =>
    rw [hline, List.append_assoc, List.cons_append]
    exact .read rfl hreads
  | refused hline hrefused =>
    rw [hline, List.append_assoc, List.cons_append]
    exact .refused rfl hrefused

theorem Traced.mono (h : Traced possible key system)
    (himp : ∀ outcome, possible outcome → more outcome) : Traced more key system :=
  ⟨fun result hresult => (h.pending result hresult).mono himp,
    fun file hfile => (h.reported file hfile).mono himp⟩

theorem Traced.report (h : Traced possible key system) (interval now : ℤ)
    (hrun : (perform (.report interval, now)).run system = .ok () system') :
    Traced possible key system' := by
  cases hrun
  constructor
  · intro result hresult
    change (closePeriod system.reporter now).2.find key = some result at hresult
    rw [closePeriod_find] at hresult
    obtain ⟨before, _, rfl⟩ := Option.map_eq_some_iff.mp hresult
    exact Backed.reset before.data
  · intro file hfile
    rcases List.mem_append.mp hfile with hold | hnew
    · exact h.reported file hold
    · rw [List.mem_singleton.mp hnew]
      exact Backed.report now h.pending

/-- A measure adds the outcome of its own read to its own key. -/
theorem Traced.measure (h : Traced possible key system) {slave : SlaveConcept (Sources R)}
    {meas : MeasConfig.Measure D} {now : ℤ}
    (hrun : (perform (.measure slave meas, now)).run system = .ok () system')
    (hpossible : taskKey slave meas = key →
      possible (MeasExecutor.measure slave meas.source system.sources).1) :
    Traced possible key system' := by
  change (measTask slave meas now).run system = _ at hrun
  rcases measTask_cases slave meas now system with ⟨system1, hok, hreports, _, hfind⟩ |
    ⟨_, e, _, herror⟩
  · rw [hok] at hrun
    cases hrun
    refine ⟨fun result hresult => ?_, fun file hfile => h.reported file (hreports ▸ hfile)⟩
    rw [hfind key] at hresult
    split_ifs at hresult with hkey
    · obtain ⟨before, hbefore, rfl⟩ := Option.map_eq_some_iff.mp hresult
      exact (h.pending before hbefore).add (hpossible hkey) now
    · exact h.pending result hresult
  · rw [herror] at hrun
    cases hrun

/-- The slave of a connected server asks that device. -/
theorem makeSlave_connected {env : Environment D R} {slaves : List ℤ}
    {server : MeasConfig.ModbusServer} {measures : List (MeasConfig.Measure D)}
    {slave : SlaveConcept (Sources R)} (h : makeSlave env slaves server measures = .ok slave)
    (hconnected : Connected env.bus server device) :
    slave = rtuSource (RTUSlave.concept device server.modbusId server.name) := by
  obtain ⟨hserial, line, hline, hconnect⟩ := hconnected
  rw [makeSlave, if_neg hserial, hline] at h
  change emplaceSlave slaves server.modbusId _ = _ at h
  unfold emplaceSlave at h
  split_ifs at h
  rw [hconnect] at h
  exact (Except.ok.inj h).symm

end Steps

section Line
variable {source : MeasConfig.SourceRegister D} {device : Device} {old heard : Log Request Reply}

theorem judge_reads (hvalid : source.valueType ≠ .invalid)
    (hmin : source.minReadValue.Fits source.valueType)
    (hmax : source.maxReadValue.Fits source.valueType) {log : Log Request Reply}
    {words : List UInt16} (hread : Reads device log source words) :
    judge source (device log (readRequest source)) = shown source words := by
  have measured := measure_eq hvalid hmin hmax hread 0 ""
  rw [measure_concept, if_pos (regSize_accepted hvalid)] at measured
  exact measured

theorem judge_refused {log : Log Request Reply} (h : ¬ Answered device source log) :
    judge source (device log (readRequest source)) = (.readFailure, Doubles.quietNaN) := by
  unfold judge
  exact if_neg h

/-- The next reply of a device is what the measure of it is made of. -/
theorem observed_next (hvalid : source.valueType ≠ .invalid)
    (hmin : source.minReadValue.Fits source.valueType)
    (hmax : source.maxReadValue.Fits source.valueType) (hstores : Stores device source) :
    let reply := device (old ++ heard) (readRequest source)
    Observed device source old (old ++ heard ++ [(readRequest source, reply)])
      (judge source reply) := by
  intro reply
  by_cases hanswered : Answered device source (old ++ heard)
  · have reads : Reads device (old ++ heard) source reply.regs :=
      ⟨hanswered, rfl, hstores _ hanswered⟩
    rw [judge_reads hvalid hmin hmax reads]
    exact .read rfl reads
  · rw [judge_refused hanswered]
    exact .refused rfl hanswered

end Line

/-! Runs: every slave belongs to a server of the configuration. -/

section Run
variable {fileabs : Bool} {env : Environment D R} {o : Options}
  {configmap : MeasConfig.ConfigurationMap D} {boot : Boot R D}

/-- A slave that the executor made for a server, and a measure of it. -/
def Serves (env : Environment D R) (configmap : MeasConfig.ConfigurationMap D)
    (slave : SlaveConcept (Sources R)) (desc : MeasConfig.Descriptor D)
    (meas : MeasConfig.Measure D) : Prop :=
  desc ∈ descriptors configmap ∧ meas ∈ desc.measures ∧
    ∃ slaves, makeSlave env slaves desc.server desc.measures = .ok slave

theorem constructed_serves {descs : List (MeasConfig.Descriptor D)} {slaves : List ℤ}
    {slave : SlaveConcept (Sources R)} {desc : MeasConfig.Descriptor D}
    (h : (slave, desc) ∈ constructed env descs slaves) :
    desc ∈ descs ∧ ∃ slaves, makeSlave env slaves desc.server desc.measures = .ok slave := by
  induction descs generalizing slaves with
  | nil => cases h
  | cons el rest ih =>
    unfold constructed at h
    cases hslave : makeSlave env slaves el.server el.measures with
    | error e =>
      rw [hslave] at h
      cases h
    | ok made =>
      rw [hslave] at h
      rcases List.mem_cons.mp h with hfirst | hrest
      · cases hfirst
        exact ⟨List.mem_cons_self .., slaves, hslave⟩
      · obtain ⟨hmem, hmade⟩ := ih hrest
        exact ⟨List.mem_cons_of_mem _ hmem, hmade⟩

theorem job_serves {slave : SlaveConcept (Sources R)} {meas : MeasConfig.Measure D}
    (h : Job.measure slave meas ∈
      ownJobs fileabs o ++ measureJobs (constructed env (descriptors configmap) [])) :
    ∃ desc, Serves env configmap slave desc meas := by
  rcases List.mem_append.mp h with hown | hmeasures
  · rcases mem_ownJobs hown with hjob | hjob <;> cases hjob
  · obtain ⟨made, desc, hmade, other, hother, heq⟩ := mem_measureJobs.mp hmeasures
    cases heq
    obtain ⟨hdesc, hslave⟩ := constructed_serves hmade
    exact ⟨desc, hdesc, hother, hslave⟩

/-- What the tasks of a configuration keep: something about the sources, and which outcomes
    a key can have, its own outcomes among them. -/
structure Grounded (env : Environment D R) (configmap : MeasConfig.ConfigurationMap D) (key : Key)
    (holds : Sources R → Prop) (possible : Sources R → SampleType × D → Prop) : Prop where
  step : ∀ {slave desc meas sources}, Serves env configmap slave desc meas → holds sources →
    holds (MeasExecutor.measure slave meas.source sources).2 ∧
    (∀ outcome, possible sources outcome →
      possible (MeasExecutor.measure slave meas.source sources).2 outcome) ∧
    (taskKey slave meas = key →
      possible (MeasExecutor.measure slave meas.source sources).2
        (MeasExecutor.measure slave meas.source sources).1)

variable {key : Key} {holds : Sources R → Prop} {possible : Sources R → SampleType × D → Prop}

theorem Grounded.tick (h : Grounded env configmap key holds possible) {tick : Tick (Sources R) D}
    {system system' : System (Sources R) D}
    (hserves : ∀ slave meas, tick.1 = .measure slave meas →
      ∃ desc, Serves env configmap slave desc meas)
    (hrun : (perform tick).run system = .ok () system') (hholds : holds system.sources)
    (htraced : Traced (possible system.sources) key system) :
    holds system'.sources ∧ Traced (possible system'.sources) key system' := by
  obtain ⟨job, now⟩ := tick
  cases job with
  | report interval =>
    have traced := htraced.report interval now hrun
    cases hrun
    exact ⟨hholds, traced⟩
  | rotate interval =>
    cases hrun
    exact ⟨hholds, htraced⟩
  | measure slave meas =>
    obtain ⟨desc, serves⟩ := hserves slave meas rfl
    obtain ⟨kept, older, own⟩ := h.step serves hholds
    rw [measTask_sources hrun]
    exact ⟨kept, (htraced.mono older).measure hrun own⟩

theorem Grounded.ticks (h : Grounded env configmap key holds possible)
    {ticks : List (Tick (Sources R) D)} {system system' : System (Sources R) D}
    (hserves : ∀ tick ∈ ticks, ∀ slave meas, tick.1 = .measure slave meas →
      ∃ desc, Serves env configmap slave desc meas)
    (hrun : (forM ticks perform).run system = .ok () system') (hholds : holds system.sources)
    (htraced : Traced (possible system.sources) key system) :
    Traced (possible system'.sources) key system' := by
  induction ticks generalizing system with
  | nil =>
    cases hrun
    exact htraced
  | cons tick ticks ih =>
    rw [List.forM_cons] at hrun
    obtain ⟨_, system1, hfirst, hrest⟩ := MeasConfig.bind_ok hrun
    obtain ⟨hholds1, htraced1⟩ :=
      h.tick (hserves tick (List.mem_cons_self ..)) hfirst hholds htraced
    exact ih (fun later hlater => hserves later (List.mem_cons_of_mem _ hlater)) hrest hholds1
      htraced1

/-- Nothing is there to be traced before the first task runs. -/
theorem traced_initial (hsetUp : (setUp fileabs env o configmap).run
      { reporter := { outFolder := o.outFolder } } = .ok () boot) (sources : Sources R)
    (outcomes : SampleType × D → Prop) :
    Traced outcomes key { sources := sources, reporter := boot.reporter } := by
  obtain ⟨calls, initial⟩ := setUp_delivered hsetUp sources
  refine ⟨fun result hresult => ?_, fun _ h => absurd h List.not_mem_nil⟩
  rw [initial.accounts.results key] at hresult
  obtain ⟨descriptor, _, rfl⟩ := Option.map_eq_some_iff.mp hresult
  have quiet : ∀ call ∈ calls, call.outcomeOf key = none :=
    List.filterMap_eq_nil_iff.mp (outcomesOf_initial initial key)
  dsimp only
  rw [expectedData_silent quiet]
  exact Backed.reset {}

/-- What the tasks keep holds in every state of a run. -/
theorem Grounded.reachable (h : Grounded env configmap key holds possible)
    (hsetUp : (setUp fileabs env o configmap).run
      { reporter := { outFolder := o.outFolder } } = .ok () boot)
    {sources : Sources R} {start : ℤ}
    {l : Loop (Fin boot.scheduler.length) (System (Sources R) D)}
    (hreach : Reachable (handlers boot.scheduler)
      (posted boot.scheduler { sources := sources, reporter := boot.reporter } start) l)
    (hholds : holds sources) : Traced (possible l.system.sources) key l.system := by
  obtain ⟨_, hscheduler, hall⟩ := setUp_ok hsetUp
  have measures := constructed_implements env (descriptors configmap) []
  rw [hall] at measures
  have implement := List.rel_append (ownJobs_implement env fileabs o) measures
  obtain ⟨events, hhistory, hrun⟩ := Reachable.serial hreach
  obtain ⟨ticks, _, hjobs, hticks⟩ := replay_ticks hscheduler implement events hrun
  refine h.ticks (fun tick htick slave meas hjob => ?_) hticks hholds
    (traced_initial hsetUp sources _)
  have mem := hjobs tick htick
  rw [hjob] at mem
  exact job_serves mem

/-- Only the measure of the same server and name has its key. -/
theorem serves_unique (hsetUp : (setUp fileabs env o configmap).run
      { reporter := { outFolder := o.outFolder } } = .ok () boot)
    {desc other : MeasConfig.Descriptor D} {meas asked : MeasConfig.Measure D}
    {slave : SlaveConcept (Sources R)} (hdesc : desc ∈ descriptors configmap)
    (hmeas : meas ∈ desc.measures) (hserves : Serves env configmap slave other asked)
    (hkey : taskKey slave asked = (⟨desc.server.name, desc.server.modbusId⟩, meas.name)) :
    other = desc ∧ asked = meas := by
  obtain ⟨_, _, _, distinct, _⟩ := setUp_jobs hsetUp
  obtain ⟨hother, hasked, slaves, hslave⟩ := hserves
  obtain ⟨hname, hid, _⟩ := makeSlave_key hslave
  unfold measureKeys at distinct
  obtain ⟨within, apart⟩ := List.nodup_flatMap.mp distinct
  rw [taskKey, hname, hid] at hkey
  have symmetric : Std.Symm (Function.onFun List.Disjoint (fun desc : MeasConfig.Descriptor D =>
      desc.measures.map (fun meas =>
        ((⟨desc.server.name, desc.server.modbusId⟩, meas.name) : Key)))) :=
    ⟨fun _ _ disjoint => disjoint.symm⟩
  have same : other = desc := by
    by_contra hne
    have disjoint := apart.forall hother hdesc hne
    exact disjoint (List.mem_map_of_mem hasked) (hkey ▸ List.mem_map_of_mem hmeas)
  subst same
  exact ⟨rfl, List.inj_on_of_nodup_map (within other hother) hasked hmeas hkey⟩

theorem line_grounded (hsetUp : (setUp fileabs env o configmap).run
      { reporter := { outFolder := o.outFolder } } = .ok () boot)
    {desc : MeasConfig.Descriptor D} (hdesc : desc ∈ descriptors configmap)
    {meas : MeasConfig.Measure D} (hmeas : meas ∈ desc.measures)
    {j : MeasConfig.Json D} {errno errno' : MeasConfig.Errno}
    (haccepted : (MeasConfig.sourceFromJson j).run errno = .ok meas.source errno')
    {device : Device} (hconnected : Connected env.bus desc.server device)
    (hstores : Stores device meas.source) (old : Log Request Reply) :
    Grounded env configmap (⟨desc.server.name, desc.server.modbusId⟩, meas.name)
      (fun sources => ∃ heard, sources.connection desc.server.modbusId = old ++ heard)
      (fun sources => Observed device meas.source old (sources.connection desc.server.modbusId)) := by
  obtain ⟨_, _, hvalid, hmin, hmax⟩ := MeasConfig.sourceFromJson_ok haccepted
  constructor
  intro slave other asked sources hserves hholds
  obtain ⟨heard, hline⟩ := hholds
  have hserves' := hserves
  obtain ⟨_, _, slaves, hslave⟩ := hserves'
  obtain ⟨new, hnew, _, _⟩ := measure_heard hslave asked sources desc.server.modbusId
  refine ⟨⟨heard ++ new, ?_⟩, fun outcome older => ?_, fun hkey => ?_⟩
  · rw [hnew, hline, List.append_assoc]
  · rw [hnew]
    exact older.grow new
  · obtain ⟨rfl, rfl⟩ := serves_unique hsetUp hdesc hmeas hserves hkey
    obtain rfl := makeSlave_connected hslave hconnected
    have id_eq : (RTUSlave.concept device other.server.modbusId other.server.name).id =
        other.server.modbusId := rfl
    rw [measure_rtuSource_connection, measure_rtuSource, measure_concept, id_eq, if_pos rfl,
      if_pos (regSize_accepted hvalid), hline]
    exact observed_next hvalid hmin hmax hstores

end Run

/-- In every run, whatever is counted or listed for a measure on a serial line, in a report or
    still to be reported, is the outcome of a reply that its device gave to the server's slave. -/
theorem reports_observed {fileabs : Bool} {env : Environment D R} {o : Options}
    {configmap : MeasConfig.ConfigurationMap D} {boot : Boot R D}
    (hsetUp : (setUp fileabs env o configmap).run { reporter := { outFolder := o.outFolder } } =
      .ok () boot) {sources : Sources R} {start : ℤ}
    {l : Loop (Fin boot.scheduler.length) (System (Sources R) D)}
    (hreach : Reachable (handlers boot.scheduler)
      (posted boot.scheduler { sources := sources, reporter := boot.reporter } start) l)
    {desc : MeasConfig.Descriptor D} (hdesc : desc ∈ descriptors configmap)
    {meas : MeasConfig.Measure D} (hmeas : meas ∈ desc.measures)
    {j : MeasConfig.Json D} {errno errno' : MeasConfig.Errno}
    (haccepted : (MeasConfig.sourceFromJson j).run errno = .ok meas.source errno')
    {device : Device} (hconnected : Connected env.bus desc.server device)
    (hstores : Stores device meas.source) :
    let key : Key := (⟨desc.server.name, desc.server.modbusId⟩, meas.name)
    let observed := Observed device meas.source (sources.connection desc.server.modbusId)
      (l.system.sources.connection desc.server.modbusId)
    (∀ result, l.system.reporter.find key = some result →
      Backed observed (recordCount result.data) result.data.samples) ∧
    ∀ file ∈ l.system.reports,
      Backed observed (fun kind => periodCount key kind file.2) (listedSamples key file.2) := by
  intro key observed
  have grounded := line_grounded hsetUp hdesc hmeas haccepted hconnected hstores
    (sources.connection desc.server.modbusId)
  obtain ⟨pending, reported⟩ :=
    grounded.reachable hsetUp hreach ⟨[], (List.append_nil _).symm⟩
  exact ⟨pending, reported⟩

def slowSource : MeasConfig.Json Float := .object [("address", .integer 0),
  ("endianess", .string "little"), ("reg_type", .string "holding"), ("value_type", .string "INT16"),
  ("min_read_value", .string "-100"), ("max_read_value", .string "100")]

theorem reports_observed_slow : ∃ (boot : Boot Unit Float)
    (l : Loop (Fin boot.scheduler.length) (System (Sources Unit) Float)) (path : String)
    (report : PeriodReport Float), l.system.reports = [(path, report)] ∧
      Backed (Observed fiveDevice (slowMeasure "outflow").source [] (l.system.sources.connection 1))
        (fun kind => periodCount (slowKey "outflow") kind report)
        (listedSamples (slowKey "outflow") report) := by
  obtain ⟨reporter, result, hsetUp, hinflow, houtflow, hraw⟩ := slow_setUp
  obtain ⟨l, path, report, hreach, hreports, _⟩ :=
    slow_run hinflow houtflow hraw { connection := fun _ => [], engine := () }
  have described : slowServer ∈ descriptors slowConfig := List.mem_singleton_self _
  have measured : slowMeasure "outflow" ∈ slowServer.measures :=
    List.mem_cons_of_mem _ (List.mem_singleton_self _)
  have accepted : (MeasConfig.sourceFromJson slowSource).run .other =
      .ok (slowMeasure "outflow").source .other := by rfl
  have connected : Connected fiveEnvironment.bus slowServer.server fiveDevice :=
    ⟨by decide, ⟨"/dev/ttyS0", 9600, 8, 78, 1⟩, by decide +kernel, rfl⟩
  obtain ⟨_, hreported⟩ :=
    reports_observed hsetUp hreach described measured accepted connected (fun _ _ => rfl)
  exact ⟨{ reporter := reporter, scheduler := slowTasks }, l, path, report, hreports,
    hreported (path, report) (by rw [hreports]; exact List.mem_singleton_self _)⟩

end ModbusCrawler.ReportedReadings
