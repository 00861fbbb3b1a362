import ModbusCrawler.Classification
import ModbusCrawler.TaskAccounting
import ModbusCrawler.TimerWaiting

set_option autoImplicit false

/-!
# Which report a sample lands in

The runs of the scheduler with the jobs of `main`, for all durations of the reads:
the stamps of the samples in a report against its own instant and the earlier ones.
-/
namespace ModbusCrawler.ReportPeriods
open ModbusTypes ModbusSlave MeasReporter MeasExecutor PeriodicScheduler CrawlerMain EventLoop
open TaskAccounting TimerWaiting

variable {σ D R : Type} [Doubles D]

/-- `scheduler.run()`; no wait is ever aborted. -/
def handlers {S : Type} (tasks : Scheduler S) : Handlers (Fin tasks.length) Exception S where
  start i began finished := (tasks.get i).start began finished
  expire i expiry := (tasks.get i).execute false expiry

def posted {S : Type} (tasks : Scheduler S) (system : S) (start : ℤ) : Loop (Fin tasks.length) S where
  system := system
  clock := start
  posted := List.finRange tasks.length

section Timers
variable {S : Type} {tasks : Scheduler S}

def periods (tasks : Scheduler S) (i : Fin tasks.length) : ℤ :=
  (tasks.get i).interval * ticksPerSecond

/-- Every task can be armed one period later, still within the 64 bits of the clock. -/
def InRange (tasks : Scheduler S) (clock : ℤ) : Prop :=
  ∀ t ∈ tasks, clock + t.interval * ticksPerSecond < 2^63

theorem handlers_rearm (tasks : Scheduler S) : Rearms (handlers tasks) ticks (periods tasks) :=
  fun _ _ _ _ _ hrun => (execute_ok hrun).2

theorem late_ticks {latest period : ℤ} (h : latest + period < 2^63) : Late ticks latest period :=
  fun _ hpassed => ticks_ge (Int.lt_of_le_of_lt (Int.add_le_add_right hpassed period) h)

theorem InRange.late {clock : ℤ} (h : InRange tasks clock) (i : Fin tasks.length) :
    Late ticks clock (periods tasks i) := late_ticks (h _ (List.get_mem tasks i))

theorem periods_pos (hpositive : ∀ t ∈ tasks, 0 < t.interval) (i : Fin tasks.length) :
    0 < periods tasks i :=
  Int.mul_pos (hpositive _ (List.get_mem tasks i)) (by decide)

theorem handlers_forward (hpositive : ∀ t ∈ tasks, 0 < t.interval) {clock : ℤ}
    (hclock : InRange tasks clock) : Forward (handlers tasks) clock :=
  (handlers_rearm tasks).forward (fun i => Int.le_of_lt (periods_pos hpositive i)) hclock.late

end Timers

section Runs
variable {tasks : Scheduler (System σ D)}

/-- The stamp of the first execution of a key's task, on the clock of its start handler. -/
def FirstExecution (tasks : Scheduler (System σ D)) (history : List (Event (Fin tasks.length)))
    (key : Key) (t : ℤ) : Prop :=
  ∃ i began finished slave meas, .started i began finished ∈ history ∧
    tasks.get i = (Job.measure slave meas).scheduled ∧ taskKey slave meas = key ∧
    t = toSeconds began

/-- The samples of a report lie between the report before it and itself; in the first one a
    first execution may be later. -/
def InPeriod (tasks : Scheduler (System σ D)) (history : List (Event (Fin tasks.length)))
    (before : List (String × PeriodReport D)) (report : PeriodReport D) : Prop :=
  ∀ key entry, (key, entry) ∈ report.entries → ∀ samples, entry.data.samples = some samples →
    ∀ t v, (t, v) ∈ samples →
      (∀ previous ∈ before, previous.2.now ≤ t) ∧
      (t ≤ report.now ∨ (before = [] ∧ report.now < t ∧ FirstExecution tasks history key t))

/-- Where the stamp of a sample that is not reported yet comes from. -/
def Stamped (l : Loop (Fin tasks.length) (System σ D)) (key : Key) (t : ℤ) : Prop :=
  (l.system.reports = [] ∧ FirstExecution tasks l.history key t) ∨
    ((∃ i expiry, .expired i expiry ∈ l.history ∧ t = toSeconds expiry) ∧
      ∀ file ∈ l.system.reports, file.2.now ≤ t)

structure Periods (l : Loop (Fin tasks.length) (System σ D)) : Prop where
  behind : Behind l
  reports : ∀ file ∈ l.system.reports, ∃ i expiry, .expired i expiry ∈ l.history ∧
    file.2.now = toSeconds expiry
  samples : ∀ key result, l.system.reporter.find key = some result →
    ∀ t v, (t, v) ∈ result.data.samples → Stamped l key t
  inPeriod : ∀ before file after, l.system.reports = before ++ file :: after →
    InPeriod tasks l.history before file.2

theorem FirstExecution.mono {history history' : List (Event (Fin tasks.length))} {key : Key} {t : ℤ}
    (h : FirstExecution tasks history key t) (hhistory : history ⊆ history') :
    FirstExecution tasks history' key t := by
  obtain ⟨i, began, finished, slave, meas, hmem, htask, hkey, ht⟩ := h
  exact ⟨i, began, finished, slave, meas, hhistory hmem, htask, hkey, ht⟩

theorem InPeriod.mono {history history' : List (Event (Fin tasks.length))}
    {before : List (String × PeriodReport D)} {report : PeriodReport D}
    (h : InPeriod tasks history before report) (hhistory : history ⊆ history') :
    InPeriod tasks history' before report := by
  intro key entry hentry samples hsamples t v hmem
  obtain ⟨low, high⟩ := h key entry hentry samples hsamples t v hmem
  refine ⟨low, high.imp_right fun hfirst => ?_⟩
  exact ⟨hfirst.1, hfirst.2.1, hfirst.2.2.mono hhistory⟩

theorem Periods.extend {l l' : Loop (Fin tasks.length) (System σ D)} (h : Periods l)
    (hbehind : Behind l') (hhistory : l.history ⊆ l'.history)
    (hreports : l'.system.reports = l.system.reports)
    (hsamples : ∀ key result', l'.system.reporter.find key = some result' →
      ∀ t v, (t, v) ∈ result'.data.samples →
        (∃ result, l.system.reporter.find key = some result ∧ (t, v) ∈ result.data.samples) ∨
        Stamped l' key t) : Periods l' := by
  refine ⟨hbehind, fun file hfile => ?_, fun key result' hresult t v hmem => ?_,
    fun before file after hsplit => ?_⟩
  · rw [hreports] at hfile
    obtain ⟨i, expiry, hmem, hnow⟩ := h.reports file hfile
    exact ⟨i, expiry, hhistory hmem, hnow⟩
  · rcases hsamples key result' hresult t v hmem with ⟨result, hold, hmem⟩ | hnew
    · rcases h.samples key result hold t v hmem with ⟨hnone, hfirst⟩ | ⟨⟨i, expiry, hpast, ht⟩, hlow⟩
      · exact .inl ⟨hreports.trans hnone, hfirst.mono hhistory⟩
      · refine .inr ⟨⟨i, expiry, hhistory hpast, ht⟩, ?_⟩
        rw [hreports]
        exact hlow
    · exact hnew
  · rw [hreports] at hsplit
    exact (h.inPeriod before file after hsplit).mono hhistory

theorem Periods.closing {l : Loop (Fin tasks.length) (System σ D)} (h : Periods l)
    {i : Fin tasks.length} {expiry : ℤ} (harmed : l.armed i = some expiry)
    {history : List (Event (Fin tasks.length))} (hhistory : l.history ⊆ history) :
    InPeriod tasks history l.system.reports
      (closePeriod l.system.reporter (toSeconds expiry)).1.2 := by
  intro key entry hentry samples hsamples t v hmem
  obtain ⟨result, hresult, rfl⟩ := (mem_closePeriod_entries _ _ key entry).mp hentry
  have listed : samples = result.data.samples := by
    change (if result.descriptor.reportRawSamples then some result.data.samples else none) = _
      at hsamples
    split_ifs at hsamples
    exact (Option.some.inj hsamples).symm
  subst listed
  rcases h.samples key result hresult t v hmem with ⟨hnone, hfirst⟩ | ⟨⟨j, past, hpast, rfl⟩, hlow⟩
  · refine ⟨fun previous hprevious => ?_, ?_⟩
    · rw [hnone] at hprevious
      cases hprevious
    · rcases Int.lt_or_le (toSeconds expiry) t with hlate | hin
      · exact .inr ⟨hnone, hlate, hfirst.mono hhistory⟩
      · exact .inl hin
  · exact ⟨hlow, .inl (toSeconds_mono ((h.behind j past hpast).2 i expiry harmed))⟩

theorem Periods.close {l l' : Loop (Fin tasks.length) (System σ D)} (h : Periods l)
    (hbehind : Behind l') {i : Fin tasks.length} {expiry : ℤ} (harmed : l.armed i = some expiry)
    (hhistory : l'.history = l.history ++ [.expired i expiry])
    (hreports : l'.system.reports =
      l.system.reports ++ [(closePeriod l.system.reporter (toSeconds expiry)).1])
    (hreporter : l'.system.reporter = (closePeriod l.system.reporter (toSeconds expiry)).2) :
    Periods l' := by
  have older : l.history ⊆ l'.history := by
    rw [hhistory]
    exact List.subset_append_left _ _
  refine ⟨hbehind, fun file hfile => ?_, fun key result' hresult t v hmem => ?_,
    fun before file after hsplit => ?_⟩
  · rw [hreports] at hfile
    rcases List.mem_append.mp hfile with hold | hnew
    · obtain ⟨j, past, hmem, hnow⟩ := h.reports file hold
      exact ⟨j, past, older hmem, hnow⟩
    · rw [List.mem_singleton.mp hnew]
      refine ⟨i, expiry, ?_, rfl⟩
      rw [hhistory]
      exact List.mem_append_right _ (List.mem_singleton_self _)
  · rw [hreporter, closePeriod_find] at hresult
    obtain ⟨result, _, rfl⟩ := Option.map_eq_some_iff.mp hresult
    cases hmem
  · rw [hreports] at hsplit
    rcases List.eq_nil_or_concat after with rfl | ⟨after', last, rfl⟩
    · obtain ⟨rfl, hfile⟩ := List.append_inj' hsplit rfl
      rw [← (List.cons.inj hfile).1]
      exact h.closing harmed older
    · rw [List.concat_eq_append, ← List.cons_append, ← List.append_assoc] at hsplit
      exact (h.inPeriod before file after' (List.append_inj' hsplit rfl).1).mono older

theorem measure_samples {slave : SlaveConcept σ} {meas : MeasConfig.Measure D} {now : ℤ}
    {system system' : System σ D} (h : (measTask slave meas now).run system = .ok () system') :
    system'.reports = system.reports ∧
      ∀ key result', system'.reporter.find key = some result' →
        ∀ t v, (t, v) ∈ result'.data.samples →
          (∃ result, system.reporter.find key = some result ∧ (t, v) ∈ result.data.samples) ∨
          (taskKey slave meas = key ∧ t = now) := by
  rcases measTask_cases slave meas now system with ⟨system1, hrun, hreports, _, hfind⟩ | ⟨_, e, _, hrun⟩
  · rw [hrun] at h
    cases h
    refine ⟨hreports, fun key result' hresult t v hmem => ?_⟩
    rw [hfind key] at hresult
    split_ifs at hresult with hkey
    · obtain ⟨result, hold, rfl⟩ := Option.map_eq_some_iff.mp hresult
      generalize (MeasExecutor.measure slave meas.source system.sources).1 = outcome at hmem
      obtain ⟨sampleType, value⟩ := outcome
      cases sampleType with
      | regular =>
        rcases List.mem_append.mp hmem with hbefore | hnew
        · exact .inl ⟨result, hold, hbefore⟩
        · cases List.mem_singleton.mp hnew
          exact .inr ⟨hkey, rfl⟩
      | readFailure => exact .inl ⟨result, hold, hmem⟩
      | underflow => exact .inl ⟨result, hold, hmem⟩
      | overflow => exact .inl ⟨result, hold, hmem⟩
    · exact .inl ⟨result', hresult, hmem⟩
  · rw [hrun] at h
    cases h

theorem Periods.reports_nil {l : Loop (Fin tasks.length) (System σ D)} (h : Periods l)
    (hposted : l.posted ≠ []) : l.system.reports = [] := by
  refine List.eq_nil_iff_forall_not_mem.mpr fun file hfile => ?_
  obtain ⟨i, expiry, hmem, _⟩ := h.reports file hfile
  exact hposted (h.behind i expiry hmem).1

theorem Periods.step (hjobs : ∀ t ∈ tasks, ∃ job : Job σ D, job.scheduled = t) {latest : ℤ}
    (hforward : Forward (handlers tasks) latest) {l l' : Loop (Fin tasks.length) (System σ D)}
    (hclock : l'.clock ≤ latest) (h : Periods l) (hstep : Step (handlers tasks) l l') :
    Periods l' := by
  have hbehind := h.behind.step hforward hclock hstep
  cases hstep with
  | @start i rest began finished expiry system hposted _ _ hrun =>
    have older := List.subset_append_left l.history [.started i began finished]
    obtain ⟨job, hjob⟩ := hjobs (tasks.get i) (List.get_mem tasks i)
    rcases start_ok hrun with ⟨hmode, htask⟩ | ⟨_, rfl⟩
    · rw [← hjob] at hmode htask
      cases job with
      | report interval => cases hmode
      | rotate interval => cases hmode
      | measure slave meas =>
        obtain ⟨hreports, hsamples⟩ := measure_samples htask
        refine h.extend hbehind older hreports fun key result' hresult t v hmem => ?_
        refine (hsamples key result' hresult t v hmem).imp_right fun hnew => .inl ⟨?_, ?_⟩
        · rw [hreports]
          exact h.reports_nil (by rw [hposted]; exact List.cons_ne_nil _ _)
        · exact ⟨i, began, finished, slave, meas, by simp, hjob.symm, hnew.1, hnew.2⟩
    · exact h.extend hbehind older rfl fun key result hresult t v hmem => .inl ⟨result, hresult, hmem⟩
  | @expire i expiry now finished next system hposted harmed _ _ _ _ hrun =>
    have older := List.subset_append_left l.history [.expired i expiry]
    obtain ⟨job, hjob⟩ := hjobs (tasks.get i) (List.get_mem tasks i)
    have htask := (execute_ok hrun).1
    rw [← hjob] at htask
    cases job with
    | report interval =>
      cases htask
      exact h.close hbehind harmed rfl rfl rfl
    | rotate interval =>
      cases htask
      exact h.extend hbehind older rfl fun key result hresult t v hmem => .inl ⟨result, hresult, hmem⟩
    | measure slave meas =>
      obtain ⟨hreports, hsamples⟩ := measure_samples htask
      refine h.extend hbehind older hreports fun key result' hresult t v hmem => ?_
      refine (hsamples key result' hresult t v hmem).imp_right fun hnew => .inr ⟨?_, ?_⟩
      · exact ⟨i, expiry, by simp, hnew.2⟩
      · intro file hfile
        rw [hreports] at hfile
        obtain ⟨j, past, hpast, hnow⟩ := h.reports file hfile
        rw [hnow, hnew.2]
        exact toSeconds_mono ((h.behind j past hpast).2 i expiry harmed)

theorem Periods.posted (system : System σ D) (start : ℤ) (hreports : system.reports = [])
    (hsamples : ∀ key result, system.reporter.find key = some result → result.data.samples = []) :
    Periods (posted tasks system start) := by
  refine ⟨fun i expiry hmem => (by cases hmem), fun file hfile => ?_,
    fun key result hresult t v hmem => ?_, fun before file after hsplit => ?_⟩
  · change file ∈ system.reports at hfile
    rw [hreports] at hfile
    cases hfile
  · rw [hsamples key result hresult] at hmem
    cases hmem
  · change system.reports = _ at hsplit
    rw [hreports] at hsplit
    simp at hsplit

theorem Periods.reachable (hjobs : ∀ t ∈ tasks, ∃ job : Job σ D, job.scheduled = t) {latest : ℤ}
    (hforward : Forward (handlers tasks) latest) {l l' : Loop (Fin tasks.length) (System σ D)}
    (hclock : l'.clock ≤ latest) (h : Periods l) (hreach : Reachable (handlers tasks) l l') :
    Periods l' := by
  induction hreach with
  | refl => exact h
  | tail _ hstep ih =>
    exact (ih (Int.le_trans hstep.clock_le hclock)).step hjobs hforward hclock hstep

end Runs

theorem boot_samples {keys : List Key} {system : System σ D} {calls : List (ReporterHistory.Call D)}
    (h : Accounted keys ([] : List (Tick σ D)) system calls []) (key : Key) (result : Result D)
    (hresult : system.reporter.find key = some result) : result.data.samples = [] := by
  rw [h.accounts.results key] at hresult
  obtain ⟨descriptor, _, rfl⟩ := Option.map_eq_some_iff.mp hresult
  have none : measured key (ReporterHistory.sinceClose calls) = 0 := h.executions key
  have length := ReporterHistory.regularSamples_length key (ReporterHistory.sinceClose calls)
  unfold measured at none
  change ReporterHistory.regularSamples key (ReporterHistory.sinceClose calls) = []
  exact List.eq_nil_of_length_eq_zero (by omega)

/-- In every run within the 64 bits of the clock, a sample lies in the period of its report,
    except that the first report may list first executions that started after it was due. -/
theorem samples_in_period {fileabs : Bool} {env : Environment D R} {o : Options}
    {configmap : MeasConfig.ConfigurationMap D} {boot : Boot R D}
    (hsetUp : (setUp fileabs env o configmap).run { reporter := { outFolder := o.outFolder } } =
      .ok () boot)
    (hpositive : ∀ t ∈ boot.scheduler, 0 < t.interval) {sources : Sources R} {start : ℤ}
    {l : Loop (Fin boot.scheduler.length) (System (Sources R) D)}
    (hreach : Reachable (handlers boot.scheduler)
      (posted boot.scheduler { sources := sources, reporter := boot.reporter } start) l)
    (hclock : InRange boot.scheduler l.clock) :
    ∀ before file after, l.system.reports = before ++ file :: after →
      InPeriod boot.scheduler l.history before file.2 := by
  obtain ⟨jobs, hscheduler, _, _, initial⟩ := setUp_jobs hsetUp
  obtain ⟨calls, accounted⟩ := initial sources
  have hjobs : ∀ t ∈ boot.scheduler, ∃ job : Job (Sources R) D, job.scheduled = t := by
    rw [hscheduler]
    intro t ht
    obtain ⟨job, _, hjob⟩ := List.mem_map.mp ht
    exact ⟨job, hjob⟩
  have first : Periods (posted boot.scheduler { sources := sources, reporter := boot.reporter }
      start) := Periods.posted _ start rfl (boot_samples accounted)
  exact (first.reachable hjobs (handlers_forward hpositive hclock) (Int.le_refl _) hreach).inPeriod

def slowMeasure (name : String) : MeasConfig.Measure Float where
  name := name
  samplingPeriod := 5
  reportRawSamples := true
  source :=
    { address := 0
      endianess := .little
      regType := .holding
      valueType := .int16
      minReadValue := .signed (-100)
      maxReadValue := .signed 100
      scaleFactor := Doubles.ofInt 1 }

def slowServer : MeasConfig.Descriptor Float where
  server := { modbusId := 1, name := "tank", serialDevice := "/dev/ttyS0" }
  measures := [slowMeasure "inflow", slowMeasure "outflow"]

def slowConfig : MeasConfig.ConfigurationMap Float :=
  (∅ : MeasConfig.ConfigurationMap Float).insert 1 slowServer

def fiveDevice : Device := fun _ _ => { apiRv := 1, regs := [5] }

def fiveEnvironment : Environment Float Unit where
  bus :=
    { newRtu := fun _ => true
      connectFailure := fun _ _ => none
      device := fun _ _ _ => fiveDevice }
  stod _ := .ok (Doubles.ofInt 0)
  draw mean _ _ := (mean, ())

def slowSlave : SlaveConcept (Sources Unit) := rtuSource (RTUSlave.concept fiveDevice 1 "tank")

def slowTasks : Scheduler (System (Sources Unit) Float) :=
  [Job.report 300, Job.measure slowSlave (slowMeasure "inflow"),
    Job.measure slowSlave (slowMeasure "outflow")].map Job.scheduled

theorem slow_slave :
    makeSlave fiveEnvironment [] slowServer.server slowServer.measures = .ok slowSlave := by
  have named : slowServer.server.serialDevice ≠ "" := by decide
  have line : RTUSlave.serialLine "/dev/ttyS0" "9600:8:N:1" =
      .ok ⟨"/dev/ttyS0", 9600, 8, 78, 1⟩ := by decide +kernel
  rw [makeSlave, if_neg named]
  change (RTUSlave.serialLine "/dev/ttyS0" "9600:8:N:1" >>= _) = _
  rw [line]
  rfl

def slowKey (name : String) : Key := (⟨"tank", 1⟩, name)

theorem slow_setUp : ∃ reporter result, (setUp false fiveEnvironment {} slowConfig).run
      { reporter := { outFolder := "/tmp" } } =
        .ok () { reporter := reporter, scheduler := slowTasks } ∧
    (reporter.find (slowKey "inflow")).isSome ∧ reporter.find (slowKey "outflow") = some result ∧
    result.descriptor.reportRawSamples = true := by
  have servers : constructed fiveEnvironment (descriptors slowConfig) [] = [(slowSlave, slowServer)] := by
    change constructed fiveEnvironment [slowServer] [] = _
    rw [constructed, slow_slave]
    rfl
  have configured : ∃ reporter result, (configureAll (descriptors slowConfig)).run
      { outFolder := "/tmp" } = .ok () reporter ∧ (reporter.find (slowKey "inflow")).isSome ∧
      reporter.find (slowKey "outflow") = some result ∧
      result.descriptor.reportRawSamples = true := ⟨_, _, rfl, rfl, rfl, rfl⟩
  obtain ⟨reporter, result, hconfigured, hinflow, houtflow, hraw⟩ := configured
  rcases setUp_run false fiveEnvironment {} slowConfig { outFolder := "/tmp" } with
    ⟨e, _, hthrows, _⟩ | ⟨reporter', hconfigured', ⟨hrun, _⟩ | ⟨e, _, hmissing⟩⟩
  · rw [hconfigured] at hthrows
    cases hthrows
  · rw [hconfigured] at hconfigured'
    cases hconfigured'
    rw [servers] at hrun
    exact ⟨reporter, result, hrun, hinflow, houtflow, hraw⟩
  · rw [servers] at hmissing
    exact absurd rfl hmissing

theorem slow_measure (name : String) (sources : Sources Unit) :
    (MeasExecutor.measure slowSlave (slowMeasure name).source sources).1 =
      (.regular, Doubles.mul (Doubles.ofInt 5) (Doubles.ofInt 1)) := by
  have reads : Classification.Reads fiveDevice (sources.connection 1) (slowMeasure name).source [5] :=
    ⟨rfl, rfl, rfl⟩
  have fits : (MeasConfig.Suval.signed (-100)).Fits .int16 ∧ (MeasConfig.Suval.signed 100).Fits .int16 :=
    ⟨⟨rfl, by decide⟩, ⟨rfl, by decide⟩⟩
  rw [slowSlave, measure_rtuSource]
  change (MeasExecutor.measure (RTUSlave.concept fiveDevice 1 "tank") _ (sources.connection 1)).1 = _
  rw [Classification.measure_eq (fun h => by cases h) fits.1 fits.2 reads]
  rfl

/-- The two reads, the second of which ends in the next minute. -/
theorem slow_samples {system0 : System (Sources Unit) Float} {result : Result Float}
    (hinflow : (system0.reporter.find (slowKey "inflow")).isSome)
    (houtflow : system0.reporter.find (slowKey "outflow") = some result) :
    ∃ system1 system2,
      (measTask slowSlave (slowMeasure "inflow") 1709210099).run system0 = .ok () system1 ∧
      (measTask slowSlave (slowMeasure "outflow") 1709210101).run system1 = .ok () system2 ∧
      system2.reports = system0.reports ∧
      system2.reporter.find (slowKey "outflow") = some { result with
        data := result.data.add 1709210101
          (Doubles.mul (Doubles.ofInt 5) (Doubles.ofInt 1)) .regular } := by
  obtain ⟨system1, htask1, hreports1, _, hfind1⟩ :=
    measTask_run slowSlave (slowMeasure "inflow") 1709210099 system0 hinflow
  have kept : system1.reporter.find (slowKey "outflow") = some result := by
    rw [hfind1, if_neg (by decide)]
    exact houtflow
  have there : (system1.reporter.find (taskKey slowSlave (slowMeasure "outflow"))).isSome := by
    change (system1.reporter.find (slowKey "outflow")).isSome
    rw [kept]
    rfl
  obtain ⟨system2, htask2, hreports2, _, hfind2⟩ :=
    measTask_run slowSlave (slowMeasure "outflow") 1709210101 system1 there
  refine ⟨system1, system2, htask1, htask2, hreports2.trans hreports1, ?_⟩
  rw [hfind2, slow_measure "outflow" system1.sources, kept]
  rfl

theorem slow_tasks {P : ScheduledTask (System (Sources Unit) Float) → Prop}
    (hreport : P (Job.report 300).scheduled)
    (hmeasure : ∀ name, P (Job.measure slowSlave (slowMeasure name)).scheduled) :
    ∀ t ∈ slowTasks, P t := by
  intro t ht
  simp only [slowTasks, List.map_cons, List.map_nil, List.mem_cons, List.not_mem_nil, or_false] at ht
  rcases ht with rfl | rfl | rfl
  · exact hreport
  · exact hmeasure "inflow"
  · exact hmeasure "outflow"

theorem slow_positive : ∀ t ∈ slowTasks, 0 < t.interval :=
  slow_tasks (by decide) (fun _ => show (0 : ℤ) < 5 by decide)

theorem slow_inRange : InRange slowTasks (fromTimeT 1709210101) := by
  rw [fromTimeT_eq (by decide) (by decide)]
  exact slow_tasks (by decide) (fun _ =>
    show 1709210101 * ticksPerSecond + 5 * ticksPerSecond < 2^63 by decide)

/-- The read of the first measure takes from 12:34:59 to 12:35:01. -/
theorem slow_run {reporter : Reporter Float} {result : Result Float}
    (hinflow : (reporter.find (slowKey "inflow")).isSome)
    (houtflow : reporter.find (slowKey "outflow") = some result)
    (hraw : result.descriptor.reportRawSamples = true) (sources : Sources Unit) :
    ∃ l path report, Reachable (handlers slowTasks)
        (posted slowTasks { sources := sources, reporter := reporter } (fromTimeT 1709210099)) l ∧
      l.system.reports = [(path, report)] ∧ InRange slowTasks l.clock ∧ report.now = 1709210100 ∧
      ∃ entry samples v, (slowKey "outflow", entry) ∈ report.entries ∧
        entry.data.samples = some samples ∧ (1709210101, v) ∈ samples := by
  let system0 : System (Sources Unit) Float := { sources := sources, reporter := reporter }
  obtain ⟨system1, system2, htask1, htask2, hreports, listed⟩ :=
    slow_samples (show (system0.reporter.find (slowKey "inflow")).isSome from hinflow) houtflow
  have first : ((Job.report 300).scheduled.start (fromTimeT 1709210099) (fromTimeT 1709210099)).run
      system0 = .ok (fromTimeT 1709210100) system0 :=
    start_aligns rfl (by decide +kernel) _ _
  have second : ((Job.measure slowSlave (slowMeasure "inflow")).scheduled.start
      (fromTimeT 1709210099) (fromTimeT 1709210101)).run system0 =
        .ok (fromTimeT 1709210106) system1 := start_executes rfl htask1 (fromTimeT 1709210101)
  have third : ((Job.measure slowSlave (slowMeasure "outflow")).scheduled.start
      (fromTimeT 1709210101) (fromTimeT 1709210101)).run system1 =
        .ok (fromTimeT 1709210106) system2 := start_executes rfl htask2 (fromTimeT 1709210101)
  have run1 := Relation.ReflTransGen.refl.tail (Step.start (h := handlers slowTasks)
    (l := posted slowTasks system0 (fromTimeT 1709210099)) rfl (Int.le_refl _) (Int.le_refl _) first)
  have run2 := run1.tail (Step.start rfl (Int.le_refl _)
    (show fromTimeT 1709210099 ≤ fromTimeT 1709210101 by decide) second)
  have run3 := run2.tail (Step.start rfl (Int.le_refl _) (Int.le_refl _) third)
  have closing : ((Job.report 300).scheduled.execute false (fromTimeT 1709210100)).run system2 =
      .ok (some (fromTimeT 1709210400)) { system2 with
        reporter := (closePeriod system2.reporter 1709210100).2
        reports := system2.reports ++ [(closePeriod system2.reporter 1709210100).1] } :=
    execute_run rfl
  let i : Fin slowTasks.length := ⟨0, by decide⟩
  have run4 := run3.tail (Step.expire (i := i) rfl rfl (Int.le_refl _)
    (show fromTimeT 1709210100 ≤ fromTimeT 1709210101 by decide) (fun j other harmed _ => by
      match j with
      | ⟨0, _⟩ => exact Int.le_of_eq (Option.some.inj harmed)
      | ⟨1, _⟩ =>
        have armed : fromTimeT 1709210106 = other := Option.some.inj harmed
        rw [← armed]
        decide
      | ⟨2, _⟩ =>
        have armed : fromTimeT 1709210106 = other := Option.some.inj harmed
        rw [← armed]
        decide)
    (Int.le_refl _) closing)
  refine ⟨_, (closePeriod system2.reporter 1709210100).1.1,
    (closePeriod system2.reporter 1709210100).1.2, run4, ?_, slow_inRange, rfl, _, _,
    Doubles.mul (Doubles.ofInt 5) (Doubles.ofInt 1),
    (mem_closePeriod_entries _ _ _ _).mpr ⟨_, listed, rfl⟩, if_pos hraw, ?_⟩
  · change system2.reports ++ _ = _
    rw [hreports]
    rfl
  · exact List.mem_append_right _ (List.mem_singleton_self _)

theorem samples_in_period_slow : ∃ (boot : Boot Unit Float)
    (l : Loop (Fin boot.scheduler.length) (System (Sources Unit) Float)) (path : String)
    (report : PeriodReport Float), l.system.reports = [(path, report)] ∧
      InPeriod boot.scheduler l.history [] report := by
  obtain ⟨reporter, result, hsetUp, hinflow, houtflow, hraw⟩ := slow_setUp
  obtain ⟨l, path, report, hreach, hreports, hclock, _⟩ :=
    slow_run hinflow houtflow hraw { connection := fun _ => [], engine := () }
  exact ⟨{ reporter := reporter, scheduler := slowTasks }, l, path, report, hreports,
    samples_in_period hsetUp slow_positive hreach hclock [] _ [] hreports⟩

/-- The report of 12:35:00 lists a sample of 12:35:01. -/
theorem samples_late_fail : ∃ (boot : Boot Unit Float) (sources : Sources Unit) (start : ℤ)
    (l : Loop (Fin boot.scheduler.length) (System (Sources Unit) Float)) (path : String)
    (report : PeriodReport Float),
    (setUp false fiveEnvironment {} slowConfig).run { reporter := { outFolder := "/tmp" } } =
      .ok () boot ∧
    (∀ t ∈ boot.scheduler, 0 < t.interval) ∧
    Reachable (handlers boot.scheduler)
      (posted boot.scheduler { sources := sources, reporter := boot.reporter } start) l ∧
    l.system.reports = [(path, report)] ∧
    ¬ ∀ key entry, (key, entry) ∈ report.entries → ∀ samples, entry.data.samples = some samples →
      ∀ t v, (t, v) ∈ samples → t ≤ report.now := by
  obtain ⟨reporter, result, hsetUp, hinflow, houtflow, hraw⟩ := slow_setUp
  obtain ⟨l, path, report, hreach, hreports, _, hnow, entry, samples, v, hentry, hsamples, hmem⟩ :=
    slow_run hinflow houtflow hraw { connection := fun _ => [], engine := () }
  refine ⟨_, _, _, l, path, report, hsetUp, slow_positive, hreach, hreports, fun hperiod => ?_⟩
  have inside := hperiod _ entry hentry samples hsamples _ v hmem
  rw [hnow] at inside
  omega

end ModbusCrawler.ReportPeriods
