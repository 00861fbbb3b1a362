import ModbusCrawler.CrawlerMain
import ModbusCrawler.ReporterHistory

set_option autoImplicit false

/-!
# One outcome for each execution

The scheduled jobs over the reporter that `main` has configured: executions and
closings in any order, against what the reports count.
-/
namespace ModbusCrawler.TaskAccounting
open ModbusTypes ModbusSlave MeasReporter ReporterHistory MeasExecutor PeriodicScheduler CrawlerMain

variable {σ D R : Type} [Doubles D]

def configs (descs : List (MeasConfig.Descriptor D)) : List (Key × Descriptor) :=
  descs.flatMap (fun desc => desc.measures.map (fun meas =>
    ((⟨desc.server.name, desc.server.modbusId⟩, meas.name),
      ⟨meas.samplingPeriod, meas.accumulating, meas.reportRawSamples⟩)))

def configure (config : Key × Descriptor) : EStateM Exception (Reporter D) Unit :=
  configureMeasurement config.1.1 config.1.2 config.2

def configureCall (config : Key × Descriptor) : Call D := .configure config.1 config.2

omit [Doubles D] in
theorem configs_keys (descs : List (MeasConfig.Descriptor D)) :
    (configs descs).map Prod.fst = measureKeys descs := by
  rw [configs, measureKeys, List.map_flatMap]
  simp only [List.map_map]
  rfl

theorem configureAll_eq (descs : List (MeasConfig.Descriptor D)) :
    configureAll descs = forM (configs descs) configure := by
  induction descs with
  | nil => rfl
  | cons desc rest ih =>
    have head : configureServer desc = forM (configs [desc]) configure := by
      rw [configs, List.flatMap_singleton, List.forM_map]
      rfl
    have all : configs (desc :: rest) = configs [desc] ++ configs rest := by simp [configs]
    unfold configureAll at ih ⊢
    rw [List.forM_cons, ih, all, List.forM_append, head]

theorem configure_accounts {r r' : Reporter D} {calls : List (Call D)}
    {list : List (Key × Descriptor)} (h : Accounts r calls [])
    (hrun : (forM list configure).run r = .ok () r') :
    Accounts r' (calls ++ list.map configureCall) [] ∧ (list.map Prod.fst).Nodup ∧
      ∀ key ∈ list.map Prod.fst, configuredWith key calls = none := by
  induction list generalizing r calls with
  | nil =>
    cases hrun
    refine ⟨?_, List.nodup_nil, fun key hkey => (by cases hkey)⟩
    rwa [List.map_nil, List.append_nil]
  | cons config rest ih =>
    rw [List.forM_cons] at hrun
    obtain ⟨_, r1, hfirst, hrest⟩ := MeasConfig.bind_ok hrun
    obtain ⟨r2, hid, _, ⟨hnew, hok, hfind⟩ | ⟨_, herror, _⟩⟩ :=
      configureMeasurement_run r config.1 config.2
    · have same : r1 = r2 := by
        rw [configure, hok] at hfirst
        cases hfirst
        rfl
      subst same
      obtain ⟨accounts, distinct, fresh⟩ := ih (h.configure hid hnew hfind) hrest
      have new : configuredWith config.1 calls = none := by
        rw [← Option.isNone_iff_eq_none, ← Option.not_isSome, h.configured, hnew]
        rfl
      refine ⟨?_, ?_, ?_⟩
      · rw [List.map_cons, List.append_cons]
        exact accounts
      · rw [List.map_cons, List.nodup_cons]
        refine ⟨fun hmem => ?_, distinct⟩
        have absent := fresh config.1 hmem
        rw [configuredWith_append, new] at absent
        simp [configuredWith] at absent
      · intro key hkey
        rcases List.mem_cons.mp hkey with rfl | hrest
        · exact new
        · have absent := fresh key hrest
          rw [configuredWith_append, Option.or_eq_none_iff] at absent
          exact absent.1
    · rw [configure, herror] at hfirst
      cases hfirst

theorem configure_completes {r : Reporter D} {list : List (Key × Descriptor)}
    (hdistinct : (list.map Prod.fst).Nodup) (hnew : ∀ key ∈ list.map Prod.fst, r.find key = none) :
    ∃ r', (forM list configure).run r = .ok () r' := by
  induction list generalizing r with
  | nil => exact ⟨r, rfl⟩
  | cons config rest ih =>
    rw [List.map_cons, List.nodup_cons] at hdistinct
    have absent : r.find config.1 = none := hnew config.1 (by simp)
    obtain ⟨r1, _, _, ⟨_, hok, hfind⟩ | ⟨hthere, _⟩⟩ := configureMeasurement_run r config.1 config.2
    · have fresh : ∀ key ∈ rest.map Prod.fst, r1.find key = none := by
        intro key hkey
        have other : config.1 ≠ key := fun same => hdistinct.1 (same ▸ hkey)
        rw [hfind, if_neg other]
        exact hnew key (List.mem_cons_of_mem _ hkey)
      obtain ⟨r', hrest⟩ := ih hdistinct.2 fresh
      refine ⟨r', ?_⟩
      rw [List.forM_cons, EStateM.run_bind, configure, hok]
      exact hrest
    · rw [absent] at hthere
      cases hthere

/-- The configure loop throws exactly when two measures have one key. -/
theorem configureAll_throws_iff (descs : List (MeasConfig.Descriptor D)) (outFolder : String) :
    (∃ e r, (configureAll descs).run { outFolder := outFolder } = .error e r) ↔
      ¬ (measureKeys descs).Nodup := by
  rw [configureAll_eq, ← configs_keys]
  constructor
  · rintro ⟨e, r, hthrows⟩ hdistinct
    obtain ⟨r', hrun⟩ := configure_completes hdistinct
      (fun key _ => (Accounts.initial (D := D) outFolder).results key)
    rw [hrun] at hthrows
    cases hthrows
  · intro hduplicate
    cases hrun : (forM (configs descs) configure).run ({ outFolder := outFolder } : Reporter D) with
    | ok _ r =>
      obtain ⟨_, distinct, _⟩ := configure_accounts (Accounts.initial outFolder) hrun
      exact absurd distinct hduplicate
    | error e r => exact ⟨e, r, rfl⟩

omit [Doubles D] in
theorem configured_iff (list : List (Key × Descriptor)) (key : Key) :
    (configuredWith key (list.map configureCall : List (Call D))).isSome ↔
      key ∈ list.map Prod.fst := by
  rw [configuredWith, List.findSome?_map, List.findSome?_isSome_iff, List.mem_map]
  constructor
  · rintro ⟨config, hmem, hconfig⟩
    refine ⟨config, hmem, ?_⟩
    by_contra hne
    change (if config.1 = key then some config.2 else none).isSome at hconfig
    rw [if_neg hne] at hconfig
    cases hconfig
  · rintro ⟨config, hmem, rfl⟩
    refine ⟨config, hmem, ?_⟩
    change (if config.1 = config.1 then some config.2 else none).isSome
    rw [if_pos rfl]
    rfl

abbrev Tick (σ D : Type) [Doubles D] := Job σ D × ℤ

def perform (tick : Tick σ D) : EStateM Exception (System σ D) Unit :=
  tick.1.scheduled.task tick.2

def executions (key : Key) (ticks : List (Tick σ D)) : ℕ :=
  ticks.foldl (fun n tick => match tick.1 with
    | .report _ => 0
    | job => if job.key = some key then n + 1 else n) 0

def recordCount (data : Data D) : SampleType → ℕ
  | .regular => data.samples.length
  | .readFailure => data.periodReadFailures
  | .underflow => data.periodUnderflows
  | .overflow => data.periodOverflows

/-- What one execution does, after the executions before it. -/
def Effect (keys : List Key) (before : List (Tick σ D)) (tick : Tick σ D)
    (system system' : System σ D) : Prop :=
  match tick.1 with
  | .measure slave meas =>
    system'.reports = system.reports ∧
    (∀ key, key ≠ taskKey slave meas → system'.reporter.find key = system.reporter.find key) ∧
    ∃ sampleType value result, system.reporter.find (taskKey slave meas) = some result ∧
      let data := result.data.add tick.2 value sampleType
      system'.reporter.find (taskKey slave meas) = some { result with data := data } ∧
      ∀ kind, recordCount data kind = recordCount result.data kind + if kind = sampleType then 1 else 0
  | .report _ =>
    ∃ path report, system'.reports = system.reports ++ [(path, report)] ∧
      (∀ key, (∃ entry, (key, entry) ∈ report.entries) ↔ key ∈ keys) ∧
      ∀ key entry, (key, entry) ∈ report.entries →
        entry.data.numSamples + entry.data.periodReadFailures + entry.data.periodUnderflows +
          entry.data.periodOverflows = executions key before
  | .rotate _ => system' = system

def measured (key : Key) (calls : List (Call D)) : ℕ :=
  outcomes key .regular calls + outcomes key .readFailure calls + outcomes key .underflow calls +
    outcomes key .overflow calls

/-- The reporter accounts for the executions, and the configured keys are the given ones. -/
structure Accounted (keys : List Key) (ticks : List (Tick σ D)) (system : System σ D)
    (calls : List (Call D)) (closed : List (PeriodReport D)) : Prop where
  accounts : Accounts system.reporter calls closed
  configured : ∀ key, (configuredWith key calls).isSome ↔ key ∈ keys
  executions : ∀ key, measured key (sinceClose calls) = executions key ticks

theorem executions_append (key : Key) (ticks : List (Tick σ D)) (tick : Tick σ D) :
    executions key (ticks ++ [tick]) = match tick.1 with
      | .report _ => 0
      | job => if job.key = some key then executions key ticks + 1 else executions key ticks := by
  rw [executions, List.foldl_append]
  rfl

theorem recordCount_add (data : Data D) (now : ℤ) (value : D) (sampleType kind : SampleType) :
    recordCount (data.add now value sampleType) kind =
      recordCount data kind + if kind = sampleType then 1 else 0 := by
  cases sampleType <;> cases kind <;> simp [recordCount, Data.add]

omit [Doubles D] in
theorem measured_append (key : Key) (calls : List (Call D)) (call : Call D) :
    measured key (calls ++ [call]) =
      measured key calls + if (call.outcomeOf key).isSome then 1 else 0 := by
  simp only [measured, outcomes_append]
  rcases hcall : call.outcomeOf key with _ | ⟨_ | _ | _ | _, sample⟩ <;>
    simp [outcomes, hcall] <;> omega

omit [Doubles D] in
theorem measured_silent {key : Key} {calls : List (Call D)}
    (h : ∀ call ∈ calls, call.outcomeOf key = none) : measured key (sinceClose calls) = 0 := by
  have silent : ∀ call ∈ sinceClose calls, call.outcomeOf key = none :=
    fun call hcall => h call (sinceClose_subset calls hcall)
  simp [measured, outcomes_silent silent]

/-- Everything one execution can do. -/
theorem Accounted.step {keys : List Key} {before : List (Tick σ D)} {system : System σ D}
    {calls : List (Call D)} {closed : List (PeriodReport D)}
    (h : Accounted keys before system calls closed) (tick : Tick σ D)
    (hkey : ∀ key, tick.1.key = some key → key ∈ keys) :
    ∃ system' calls' closed', (perform tick).run system = .ok () system' ∧
      Accounted keys (before ++ [tick]) system' calls' closed' ∧
      Effect keys before tick system system' := by
  obtain ⟨job, now⟩ := tick
  cases job with
  | rotate interval =>
    refine ⟨system, calls, closed, rfl, ⟨h.accounts, h.configured, fun key => ?_⟩, rfl⟩
    rw [executions_append, h.executions key]
    rfl
  | report interval =>
    refine ⟨_, calls ++ [.close now], closed ++ [(closePeriod system.reporter now).1.2], rfl,
      ⟨h.accounts.close now, fun key => ?_, fun key => ?_⟩, ?_⟩
    · rw [configuredWith_other calls rfl]
      exact h.configured key
    · rw [executions_append, sinceClose_append]
      rfl
    · refine ⟨_, (closePeriod system.reporter now).1.2, rfl, fun key => ?_, fun key entry hmem => ?_⟩
      · rw [← h.configured key, h.accounts.configured key]
        exact closePeriod_lists_iff system.reporter now key
      · obtain ⟨descriptor, _, rfl⟩ := h.accounts.entry hmem
        rw [← h.executions key, measured, ← regularSamples_length]
        rfl
  | measure slave meas =>
    have there : (system.reporter.find (taskKey slave meas)).isSome := by
      rw [← h.accounts.configured, h.configured]
      exact hkey _ rfl
    obtain ⟨system', hrun, hreports, hid, hfind⟩ := measTask_run slave meas now system there
    generalize (MeasExecutor.measure slave meas.source system.sources).1 = outcome at hfind
    obtain ⟨sampleType, value⟩ := outcome
    refine ⟨system', calls ++ [.add (taskKey slave meas) now value sampleType], closed, hrun,
      ⟨h.accounts.add hid there hfind, fun key => ?_, fun key => ?_⟩, hreports, ?_, ?_⟩
    · rw [configuredWith_other calls rfl]
      exact h.configured key
    · rw [executions_append, sinceClose_append]
      change measured key (sinceClose calls ++ [_]) = if some (taskKey slave meas) = some key then _ else _
      rw [measured_append, h.executions key]
      by_cases hkey : taskKey slave meas = key
      · simp [Call.outcomeOf, hkey]
      · simp [Call.outcomeOf, hkey]
    · intro key hother
      rw [hfind key, if_neg (Ne.symm hother)]
    · obtain ⟨result, hresult⟩ := Option.isSome_iff_exists.mp there
      refine ⟨sampleType, value, result, hresult, ?_, recordCount_add result.data now value sampleType⟩
      rw [hfind, if_pos rfl, hresult]
      rfl

theorem Accounted.run {keys : List Key} {before : List (Tick σ D)} {system : System σ D}
    {calls : List (Call D)} {closed : List (PeriodReport D)}
    (h : Accounted keys before system calls closed) (ticks : List (Tick σ D))
    (hkeys : ∀ tick ∈ ticks, ∀ key, tick.1.key = some key → key ∈ keys) :
    ∃ system' calls' closed', (forM ticks perform).run system = .ok () system' ∧
      Accounted keys (before ++ ticks) system' calls' closed' := by
  induction ticks generalizing before system calls closed with
  | nil =>
    refine ⟨system, calls, closed, rfl, ?_⟩
    rwa [List.append_nil]
  | cons tick rest ih =>
    obtain ⟨system1, calls1, closed1, hfirst, haccounted, _⟩ :=
      h.step tick (hkeys tick (List.mem_cons_self ..))
    obtain ⟨system', calls', closed', hrest, hall⟩ :=
      ih haccounted (fun t ht => hkeys t (List.mem_cons_of_mem _ ht))
    refine ⟨system', calls', closed', ?_, ?_⟩
    · rw [List.forM_cons, EStateM.run_bind, hfirst]
      exact hrest
    · rw [List.append_cons]
      exact hall

/-- The jobs of a set-up that completes write to the configured keys, each to its own. -/
theorem setUp_jobs {fileabs : Bool} {env : Environment D R} {o : Options}
    {configmap : MeasConfig.ConfigurationMap D} {boot : Boot R D}
    (h : (setUp fileabs env o configmap).run { reporter := { outFolder := o.outFolder } } =
      .ok () boot) :
    let keys := measureKeys (descriptors configmap)
    ∃ jobs : List (Job (Sources R) D), boot.scheduler = jobs.map Job.scheduled ∧
      jobs.filterMap Job.key = keys ∧ keys.Nodup ∧
      ∀ sources : Sources R, ∃ calls, Accounted keys []
        { sources := sources, reporter := boot.reporter } calls [] := by
  rcases setUp_run fileabs env o configmap { outFolder := o.outFolder } with
    ⟨e, reporter', _, hrun⟩ | ⟨reporter', hconfigure, ⟨hrun, hall⟩ | ⟨e, hrun, _⟩⟩
  · rw [hrun] at h
    cases h
  · rw [hrun] at h
    cases h
    rw [configureAll_eq] at hconfigure
    obtain ⟨accounts, distinct, _⟩ := configure_accounts (Accounts.initial o.outFolder) hconfigure
    rw [configs_keys] at distinct
    refine ⟨_, rfl, ?_, distinct, fun sources => ⟨_, accounts, fun key => ?_, fun key => ?_⟩⟩
    · have own : (ownJobs fileabs o : List (Job (Sources R) D)).filterMap Job.key = [] := by
        unfold ownJobs
        split_ifs <;> rfl
      have keys := constructed_keys env (descriptors configmap) []
      rw [hall] at keys
      have scheduled := congrArg (List.filterMap id) keys
      rw [List.filterMap_map, List.filterMap_map] at scheduled
      rw [List.filterMap_append, own, List.nil_append]
      simpa using scheduled
    · rw [List.nil_append, configured_iff, configs_keys]
    · refine measured_silent fun call hcall => ?_
      obtain ⟨config, _, rfl⟩ := List.mem_map.mp hcall
      rfl
  · rw [hrun] at h
    cases h

/-- Whatever the registers return, every execution of a measure's task adds one outcome to its
    own key, no two tasks share a key, and a report counts the executions before it. -/
theorem tasks_account {fileabs : Bool} {env : Environment D R} {o : Options}
    {configmap : MeasConfig.ConfigurationMap D} {boot : Boot R D}
    (hsetUp : (setUp fileabs env o configmap).run { reporter := { outFolder := o.outFolder } } =
      .ok () boot) :
    let keys := measureKeys (descriptors configmap)
    ∃ jobs : List (Job (Sources R) D), boot.scheduler = jobs.map Job.scheduled ∧
      jobs.filterMap Job.key = keys ∧ keys.Nodup ∧
      ∀ (sources : Sources R) (before : List (Tick (Sources R) D)) (tick : Tick (Sources R) D),
        (∀ t ∈ before ++ [tick], t.1 ∈ jobs) →
        ∃ system system', (forM before perform).run { sources := sources, reporter := boot.reporter } =
            .ok () system ∧
          (perform tick).run system = .ok () system' ∧ Effect keys before tick system system' := by
  obtain ⟨jobs, hscheduler, hkeys, distinct, initial⟩ := setUp_jobs hsetUp
  refine ⟨jobs, hscheduler, hkeys, distinct, fun sources before tick hjobs => ?_⟩
  have own : ∀ t ∈ before ++ [tick], ∀ key, t.1.key = some key →
      key ∈ measureKeys (descriptors configmap) := by
    intro t ht key hkey
    rw [← hkeys]
    exact List.mem_filterMap.mpr ⟨t.1, hjobs t ht, hkey⟩
  obtain ⟨calls, accounted⟩ := initial sources
  obtain ⟨system, calls', closed, hrun, haccounted⟩ :=
    accounted.run before (fun t ht => own t (List.mem_append_left _ ht))
  obtain ⟨system', _, _, hstep, _, heffect⟩ := haccounted.step tick (own tick (by simp))
  exact ⟨system, system', hrun, hstep, heffect⟩

def randomServer (modbusId : ℤ) (name : String) : MeasConfig.Descriptor Float where
  server := { modbusId := modbusId, name := name }
  measures := [
    { name := "level"
      samplingPeriod := 5
      source :=
        { address := 0
          endianess := .little
          regType := .holding
          valueType := .int16
          minReadValue := .signed (-100)
          maxReadValue := .signed 100
          scaleFactor := Doubles.ofInt 1
          randomMeanDev := "20:1" } }]

def randomConfig : MeasConfig.ConfigurationMap Float :=
  (∅ : MeasConfig.ConfigurationMap Float).insert 1 (randomServer 1 "tank")

def twoConfig : MeasConfig.ConfigurationMap Float := randomConfig.insert 2 (randomServer 2 "well")

def meanEnvironment : Environment Float Unit where
  bus :=
    { newRtu := fun _ => true
      connectFailure := fun _ _ => none
      device := fun _ _ _ _ _ => { apiRv := -1 } }
  stod _ := .ok (Doubles.ofInt 20)
  draw mean _ _ := (mean, ())

/-- Two servers have a measure of one name. The report tells their executions apart. -/
theorem tasks_account_random : ∃ (boot : Boot Unit Float)
    (report tank well : Job (Sources Unit) Float) (system system' : System (Sources Unit) Float)
    (path : String) (closed : PeriodReport Float),
    (setUp false meanEnvironment {} twoConfig).run { reporter := { outFolder := "/tmp" } } =
      .ok () boot ∧
    boot.scheduler = [report, tank, well].map Job.scheduled ∧
    (forM [(tank, 0), (well, 0), (tank, 5)] perform).run
      { sources := { connection := fun _ => [], engine := () }, reporter := boot.reporter } =
        .ok () system ∧
    (perform (report, 300)).run system = .ok () system' ∧
    system'.reports = system.reports ++ [(path, closed)] ∧
    (∃ entry, ((⟨"tank", 1⟩, "level"), entry) ∈ closed.entries ∧
      entry.data.numSamples + entry.data.periodReadFailures + entry.data.periodUnderflows +
        entry.data.periodOverflows = 2) ∧
    ∃ entry, ((⟨"well", 2⟩, "level"), entry) ∈ closed.entries ∧
      entry.data.numSamples + entry.data.periodReadFailures + entry.data.periodUnderflows +
        entry.data.periodOverflows = 1 := by
  have completes : ∃ boot, (setUp false meanEnvironment {} twoConfig).run
      { reporter := { outFolder := "/tmp" } } = .ok () boot ∧ boot.scheduler.map ScheduledTask.mode =
        [.executeAtMultiplesOfPeriod, .executeAtStart, .executeAtStart] := ⟨_, rfl, rfl⟩
  obtain ⟨boot, hboot, modes⟩ := completes
  obtain ⟨jobs, hscheduler, hkeys, _, heffect⟩ := tasks_account hboot
  rw [hscheduler, List.map_map] at modes
  obtain ⟨report, _, rfl, hreport, modes⟩ := List.map_eq_cons_iff.mp modes
  obtain ⟨tank, _, rfl, htank, modes⟩ := List.map_eq_cons_iff.mp modes
  obtain ⟨well, rfl, hwell⟩ := List.map_eq_singleton_iff.mp modes
  obtain ⟨interval, rfl⟩ := Job.aligned hreport
  obtain ⟨tankSlave, tankMeas, rfl⟩ := Job.atStart htank
  obtain ⟨wellSlave, wellMeas, rfl⟩ := Job.atStart hwell
  have keys : [taskKey tankSlave tankMeas, taskKey wellSlave wellMeas] =
      [(⟨"tank", 1⟩, "level"), (⟨"well", 2⟩, "level")] := hkeys
  obtain ⟨tankKey, rest⟩ := List.cons.inj keys
  have wellKey := (List.cons.inj rest).1
  obtain ⟨system, system', hrun, hstep, path, closed, hreports, hlisted, hcounted⟩ :=
    heffect { connection := fun _ => [], engine := () }
      [(.measure tankSlave tankMeas, 0), (.measure wellSlave wellMeas, 0),
        (.measure tankSlave tankMeas, 5)] (.report interval, 300) (by simp)
  obtain ⟨tankEntry, htankEntry⟩ := (hlisted (⟨"tank", 1⟩, "level")).mpr (List.mem_cons_self ..)
  obtain ⟨wellEntry, hwellEntry⟩ := (hlisted (⟨"well", 2⟩, "level")).mpr
    (List.mem_cons_of_mem _ (List.mem_cons_self ..))
  refine ⟨boot, _, _, _, system, system', path, closed, hboot, hscheduler, hrun, hstep, hreports,
    ⟨tankEntry, htankEntry, ?_⟩, ⟨wellEntry, hwellEntry, ?_⟩⟩
  · rw [hcounted _ tankEntry htankEntry]
    simp [executions, Job.key, tankKey, wellKey]
  · rw [hcounted _ wellEntry hwellEntry]
    simp [executions, Job.key, tankKey, wellKey]

end ModbusCrawler.TaskAccounting
