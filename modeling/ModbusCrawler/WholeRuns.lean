import ModbusCrawler.CrawlerRuns
import ModbusCrawler.ReportNames
import ModbusCrawler.TimerWaiting

set_option autoImplicit false

/-!
# What every run of the crawler does

A run can always go on, no task is starved, every execution of a measure is
listed in exactly one report or still with the reporter, and there is one report
for each execution of the "ReportGenerator".
-/
namespace ModbusCrawler.WholeRuns
open ModbusTypes ModbusSlave MeasReporter MeasExecutor PeriodicScheduler CrawlerMain EventLoop
open ReporterHistory TaskAccounting ReportPeriods CrawlerRuns ReportNames TimerWaiting

variable {D R : Type} [Doubles D]

omit [Doubles D] in
def Work.key : Work D → Option Key
  | .measure server meas => some (⟨server.name, server.modbusId⟩, meas.name)
  | _ => none

/-- The instants at which a period is closed. -/
def reportStamps (works : List (Work D × ℤ)) : List ℤ :=
  works.filterMap (fun work => match work.1 with
    | .report => some work.2
    | _ => none)

def executionsOf (key : Key) (works : List (Work D × ℤ)) : ℕ :=
  works.countP (fun work => Work.key work.1 = some key)

/-- Everything that a report says of a key. -/
def listed (key : Key) (report : PeriodReport D) : ℕ :=
  periodCount key .regular report + periodCount key .readFailure report +
    periodCount key .underflow report + periodCount key .overflow report

/-- Everything that is collected and not yet reported. -/
def pending (data : Data D) : ℕ :=
  recordCount data .regular + recordCount data .readFailure + recordCount data .underflow +
    recordCount data .overflow

/-- The name, the instant and the number of a report. -/
def heading (file : String × PeriodReport D) : String × ℤ × UInt32 :=
  (file.1, file.2.now, file.2.periodId)

def headings (outFolder : String) (stamps : List ℤ) : List (String × ℤ × UInt32) :=
  stamps.mapIdx (fun k now => (reportName outFolder now, now, UInt32.ofNat (k + 1)))

theorem implements_key {env : Environment D R} {job : Job (Sources R) D} {work : Work D}
    (h : Implements env job work) : job.key = Work.key work := by
  cases h with
  | report interval => rfl
  | rotate interval => rfl
  | measure hslave meas =>
    obtain ⟨hname, hid, _⟩ := makeSlave_key hslave
    change some (taskKey _ meas) = _
    rw [taskKey, hname, hid]
    rfl

omit [Doubles D] in
theorem plan_keys (fileabs : Bool) (o : Options) (configmap : MeasConfig.ConfigurationMap D) :
    (plan fileabs o configmap).filterMap Work.key = measureKeys (descriptors configmap) := by
  have own : (ownWorks fileabs o : List (Work D)).filterMap Work.key = [] := by
    unfold ownWorks
    split_ifs <;> rfl
  rw [plan, List.filterMap_append, own, List.nil_append, measureWorks, measureKeys,
    List.filterMap_flatMap]
  refine List.flatMap_congr fun desc _ => ?_
  rw [List.filterMap_map, ← List.filterMap_eq_map]
  rfl

/-- A set-up that completes leaves the number and the folder of the reporter alone. -/
theorem configure_keeps {list : List (Key × Descriptor)} {r r' : Reporter D}
    (h : (forM list configure).run r = .ok () r') :
    r'.periodId = r.periodId ∧ r'.outFolder = r.outFolder := by
  induction list generalizing r with
  | nil =>
    cases h
    exact ⟨rfl, rfl⟩
  | cons config rest ih =>
    rw [List.forM_cons] at h
    obtain ⟨_, r1, hfirst, hrest⟩ := MeasConfig.bind_ok h
    obtain ⟨r2, hid, hfolder, ⟨_, hok, _⟩ | ⟨_, herror, _⟩⟩ :=
      configureMeasurement_run r config.1 config.2
    · rw [configure, hok] at hfirst
      cases hfirst
      exact ⟨(ih hrest).1.trans hid, (ih hrest).2.trans hfolder⟩
    · rw [configure, herror] at hfirst
      cases hfirst

theorem setUp_reporter {fileabs : Bool} {env : Environment D R} {o : Options}
    {configmap : MeasConfig.ConfigurationMap D} {boot : Boot R D}
    (h : (setUp fileabs env o configmap).run { reporter := { outFolder := o.outFolder } } =
      .ok () boot) : boot.reporter.periodId = 0 ∧ boot.reporter.outFolder = o.outFolder := by
  obtain ⟨hconfigure, _⟩ := setUp_ok h
  rw [configureAll_eq] at hconfigure
  exact configure_keeps hconfigure

/-- The call that a tick makes to the reporter. -/
def calling (tick : Tick (Sources R) D) (system : System (Sources R) D) : List (Call D) :=
  match tick.1 with
  | .report _ => [.close tick.2]
  | .rotate _ => []
  | .measure slave meas =>
    let result := (MeasExecutor.measure slave meas.source system.sources).1
    [.add (taskKey slave meas) tick.2 result.2 result.1]

/-- The reporter and its files after the works of a run. -/
structure Delivered (keys : List Key) (outFolder : String) (works : List (Work D × ℤ))
    (system : System (Sources R) D) (calls : List (Call D)) : Prop where
  accounts : Accounts system.reporter calls (system.reports.map Prod.snd)
  configured : ∀ key, (configuredWith key calls).isSome ↔ key ∈ keys
  executed : ∀ key, measured key calls = executionsOf key works
  folder : system.reporter.outFolder = outFolder
  periodId : system.reporter.periodId = UInt32.ofNat (reportStamps works).length
  files : system.reports.map heading = headings outFolder (reportStamps works)
  lists : ∀ file ∈ system.reports, ∀ key, (∃ entry, (key, entry) ∈ file.2.entries) ↔ key ∈ keys

section Step
variable {env : Environment D R} {keys : List Key} {outFolder : String}
  {works : List (Work D × ℤ)} {system system' : System (Sources R) D} {calls : List (Call D)}

theorem Delivered.find (h : Delivered keys outFolder works system calls) {key : Key}
    (hkey : key ∈ keys) : ∃ result, system.reporter.find key = some result := by
  rw [← h.configured, h.accounts.configured] at hkey
  exact Option.isSome_iff_exists.mp hkey

theorem Delivered.report (h : Delivered keys outFolder works system calls) (now : ℤ) :
    Delivered keys outFolder (works ++ [(.report, now)])
      { system with
        reporter := (closePeriod system.reporter now).2
        reports := system.reports ++ [(closePeriod system.reporter now).1] }
      (calls ++ [.close now]) := by
  have stamps : reportStamps (works ++ [(.report, now)]) = reportStamps works ++ [now] := by
    simp [reportStamps]
  refine ⟨?_, fun key => ?_, fun key => ?_, h.folder, ?_, ?_, fun file hfile key => ?_⟩
  · rw [List.map_append]
    exact h.accounts.close now
  · rw [configuredWith_other calls rfl]
    exact h.configured key
  · rw [measured_append, h.executed key]
    simp [Call.outcomeOf, executionsOf, Work.key]
  · change system.reporter.periodId + 1 = _
    rw [h.periodId, stamps, List.length_append, UInt32.ofNat_add]
    rfl
  · have number : (closePeriod system.reporter now).1.2.periodId =
        UInt32.ofNat ((reportStamps works).length + 1) := by
      change system.reporter.periodId + 1 = _
      rw [h.periodId, UInt32.ofNat_add]
      rfl
    have name : (closePeriod system.reporter now).1.1 = reportName outFolder now := by
      rw [← h.folder]
      rfl
    rw [List.map_append, h.files, stamps, headings, headings, List.mapIdx_concat, List.map_singleton,
      heading, number, name]
    rfl
  · rcases List.mem_append.mp hfile with hold | hnew
    · exact h.lists file hold key
    · rw [List.mem_singleton.mp hnew, ← h.configured key, h.accounts.configured key]
      exact closePeriod_lists_iff system.reporter now key

theorem Delivered.rotate (h : Delivered keys outFolder works system calls) (now : ℤ) :
    Delivered keys outFolder (works ++ [(.rotate, now)]) system calls := by
  have stamps : reportStamps (works ++ [(.rotate, now)]) = reportStamps works := by
    simp [reportStamps]
  refine ⟨h.accounts, h.configured, fun key => ?_, h.folder, ?_, ?_, h.lists⟩
  · rw [h.executed key]
    simp [executionsOf, Work.key]
  · rw [stamps, h.periodId]
  · rw [stamps, h.files]

theorem measTask_reports {slave : SlaveConcept (Sources R)} {meas : MeasConfig.Measure D} {now : ℤ}
    {system system' : System (Sources R) D}
    (h : (measTask slave meas now).run system = .ok () system') : system'.reports = system.reports := by
  rcases measTask_cases slave meas now system with ⟨system1, hok, hreports, _⟩ | ⟨_, e, _, herror⟩
  · rw [hok] at h
    cases h
    exact hreports
  · rw [herror] at h
    cases h

theorem measTask_folder {slave : SlaveConcept (Sources R)} {meas : MeasConfig.Measure D} {now : ℤ}
    (hrun : (measTask slave meas now).run system = .ok () system') :
    system'.reporter.outFolder = system.reporter.outFolder := by
  have run : (measTask slave meas now).run system =
      let (result, sources) := MeasExecutor.measure slave meas.source system.sources
      (onReporter (addMeasurement (taskKey slave meas).1 (taskKey slave meas).2 now result.2
        result.1)).run { system with sources := sources } := rfl
  rw [run] at hrun
  generalize MeasExecutor.measure slave meas.source system.sources = measured at hrun
  obtain ⟨result, sources⟩ := measured
  dsimp only at hrun
  rw [onReporter_run] at hrun
  dsimp only at hrun
  rcases addMeasurement_run system.reporter (taskKey slave meas) now result.2 result.1 with
    ⟨r, _, hfolder, _, hadd, _⟩ | ⟨e, _, hadd⟩
  · rw [hadd] at hrun
    cases hrun
    exact hfolder
  · rw [hadd] at hrun
    cases hrun

theorem Delivered.measure (h : Delivered keys outFolder works system calls)
    {slave : SlaveConcept (Sources R)} {server : MeasConfig.ModbusServer}
    {meas : MeasConfig.Measure D} {now : ℤ}
    (hkey : some (taskKey slave meas) = Work.key (.measure server meas))
    (hmem : taskKey slave meas ∈ keys)
    (hrun : (measTask slave meas now).run system = .ok () system') :
    Delivered keys outFolder (works ++ [(.measure server meas, now)]) system'
      (calls ++ calling (.measure slave meas, now) system) := by
  obtain ⟨found, hfound⟩ := h.find hmem
  have there : (system.reporter.find (taskKey slave meas)).isSome := by
    rw [hfound]
    rfl
  obtain ⟨system1, hok, hreports, hid, hfind⟩ := measTask_run slave meas now system there
  rw [hrun] at hok
  cases hok
  unfold calling
  dsimp only
  generalize (MeasExecutor.measure slave meas.source system.sources).1 = result at hfind ⊢
  have stamps : reportStamps (works ++ [(.measure server meas, now)]) = reportStamps works := by
    simp [reportStamps]
  refine ⟨?_, fun key => ?_, fun key => ?_, ?_, ?_, ?_, ?_⟩
  · rw [hreports]
    exact h.accounts.add hid there hfind
  · rw [configuredWith_other calls rfl]
    exact h.configured key
  · rw [measured_append, h.executed key, executionsOf, executionsOf, List.countP_append]
    simp only [Call.outcomeOf, List.countP_singleton, ← hkey, Option.some.injEq]
    by_cases hown : taskKey slave meas = key <;> simp [hown]
  · rw [measTask_folder hrun]
    exact h.folder
  · rw [hid, stamps, h.periodId]
  · rw [hreports, stamps, h.files]
  · rw [hreports]
    exact h.lists

/-- Everything one tick of a run does to the reporter and its files. -/
theorem Delivered.step (h : Delivered keys outFolder works system calls)
    {tick : Tick (Sources R) D} {work : Work D × ℤ} (hperforms : Performs env tick work)
    (hmem : ∀ key, tick.1.key = some key → key ∈ keys)
    (hrun : (perform tick).run system = .ok () system') :
    Delivered keys outFolder (works ++ [work]) system' (calls ++ calling tick system) := by
  obtain ⟨job, now⟩ := tick
  obtain ⟨work, stamp⟩ := work
  obtain ⟨himplements, rfl⟩ := hperforms
  have key := implements_key himplements
  cases himplements with
  | report interval =>
    cases hrun
    exact h.report now
  | rotate interval =>
    cases hrun
    change Delivered _ _ _ _ (calls ++ [])
    rw [List.append_nil]
    exact h.rotate now
  | measure hslave meas =>
    exact h.measure key (hmem _ rfl) hrun

theorem Delivered.run {ticks : List (Tick (Sources R) D)} {more : List (Work D × ℤ)}
    (hperforms : List.Forall₂ (Performs env) ticks more)
    (hmem : ∀ tick ∈ ticks, ∀ key, tick.1.key = some key → key ∈ keys)
    (h : Delivered keys outFolder works system calls)
    (hrun : (forM ticks perform).run system = .ok () system') :
    ∃ calls', Delivered keys outFolder (works ++ more) system' calls' := by
  induction hperforms generalizing works system calls with
  | nil =>
    cases hrun
    rw [List.append_nil]
    exact ⟨calls, h⟩
  | @cons tick work ticks more head tail ih =>
    rw [List.forM_cons] at hrun
    obtain ⟨_, system1, hfirst, hrest⟩ := MeasConfig.bind_ok hrun
    rw [List.append_cons]
    exact ih (fun t ht => hmem t (List.mem_cons_of_mem _ ht))
      (h.step head (hmem tick (List.mem_cons_self ..)) hfirst) hrest

end Step

section Run
variable {fileabs : Bool} {env : Environment D R} {o : Options}
  {configmap : MeasConfig.ConfigurationMap D} {boot : Boot R D}

theorem setUp_delivered
    (hsetUp : (setUp fileabs env o configmap).run { reporter := { outFolder := o.outFolder } } =
      .ok () boot) (sources : Sources R) :
    ∃ calls, Delivered (measureKeys (descriptors configmap)) o.outFolder []
      { sources := sources, reporter := boot.reporter } calls := by
  obtain ⟨_, _, _, _, initial⟩ := setUp_jobs hsetUp
  obtain ⟨calls, accounted⟩ := initial sources
  obtain ⟨hid, hfolder⟩ := setUp_reporter hsetUp
  refine ⟨calls, accounted.accounts, accounted.configured, fun key => ?_, hfolder, hid, rfl,
    fun file hfile => (by cases hfile)⟩
  have since : measured key (sinceClose calls) = 0 := accounted.executions key
  have sums := accounted.accounts.sums key
  unfold measured at since ⊢
  rw [sums, sums, sums, sums]
  simp only [List.map_nil, List.sum_nil, Nat.zero_add]
  exact since

/-- The jobs of a run measure configured keys only. -/
theorem implements_keys {jobs : List (Job (Sources R) D)}
    (himplements : List.Forall₂ (Implements env) jobs (plan fileabs o configmap))
    {job : Job (Sources R) D} (hjob : job ∈ jobs) {key : Key} (hkey : job.key = some key) :
    key ∈ measureKeys (descriptors configmap) := by
  rw [← plan_keys fileabs o configmap]
  obtain ⟨i, hi, rfl⟩ := List.getElem_of_mem hjob
  have hi' : i < (plan fileabs o configmap).length := hi.trans_eq himplements.length_eq
  have same := implements_key (himplements.get hi hi')
  exact List.mem_filterMap.mpr ⟨_, List.getElem_mem hi', same.symm.trans hkey⟩

theorem run_delivered
    (hsetUp : (setUp fileabs env o configmap).run { reporter := { outFolder := o.outFolder } } =
      .ok () boot) {sources : Sources R} {start : ℤ}
    {l : Loop (Fin boot.scheduler.length) (System (Sources R) D)}
    (hreach : Reachable (handlers boot.scheduler)
      (posted boot.scheduler { sources := sources, reporter := boot.reporter } start) l) :
    ∃ calls, Delivered (measureKeys (descriptors configmap)) o.outFolder
      (timeline (plan fileabs o configmap) l.history) l.system calls := by
  obtain ⟨jobs, _, himplements, ticks, hperforms, hjobs, hrun⟩ := run_ticks hsetUp hreach
  obtain ⟨calls, initial⟩ := setUp_delivered hsetUp sources
  have keys : ∀ tick ∈ ticks, ∀ key, tick.1.key = some key →
      key ∈ measureKeys (descriptors configmap) :=
    fun tick htick key hkey => implements_keys himplements (hjobs tick htick) hkey
  exact initial.run hperforms keys hrun

/-- Every execution of a measure is counted by exactly one report, or it waits for the next. -/
theorem executions_conserved
    (hsetUp : (setUp fileabs env o configmap).run { reporter := { outFolder := o.outFolder } } =
      .ok () boot) {sources : Sources R} {start : ℤ}
    {l : Loop (Fin boot.scheduler.length) (System (Sources R) D)}
    (hreach : Reachable (handlers boot.scheduler)
      (posted boot.scheduler { sources := sources, reporter := boot.reporter } start) l)
    {key : Key} (hkey : key ∈ measureKeys (descriptors configmap)) :
    ∃ result, l.system.reporter.find key = some result ∧
      executionsOf key (timeline (plan fileabs o configmap) l.history) =
        (l.system.reports.map (fun file => listed key file.2)).sum + pending result.data := by
  obtain ⟨calls, h⟩ := run_delivered hsetUp hreach
  obtain ⟨result, hresult⟩ := h.find hkey
  refine ⟨result, hresult, ?_⟩
  rw [h.accounts.results key] at hresult
  obtain ⟨descriptor, _, rfl⟩ := Option.map_eq_some_iff.mp hresult
  have waiting : pending (expectedData key calls) = measured key (sinceClose calls) := by
    rw [measured, ← regularSamples_length]
    rfl
  have sums (kind : SampleType) := h.accounts.sums key kind
  simp only [List.map_map, Function.comp_def] at sums
  rw [← h.executed key, waiting, measured, sums, sums, sums, sums, measured]
  simp only [listed, List.sum_map_add]
  omega

theorem executions_conserved_slow : ∃ (boot : Boot Unit Float)
    (l : Loop (Fin boot.scheduler.length) (System (Sources Unit) Float)) (path : String)
    (report : PeriodReport Float) (result : Result Float), l.system.reports = [(path, report)] ∧
      l.system.reporter.find (slowKey "outflow") = some result ∧
      executionsOf (slowKey "outflow") (timeline (plan false {} slowConfig) l.history) =
        listed (slowKey "outflow") report + pending result.data := by
  obtain ⟨reporter, result, hsetUp, hinflow, houtflow, hraw⟩ := slow_setUp
  obtain ⟨l, path, report, hreach, hreports, _⟩ :=
    slow_run hinflow houtflow hraw { connection := fun _ => [], engine := () }
  have configured : slowKey "outflow" ∈ measureKeys (descriptors slowConfig) :=
    List.mem_cons_of_mem _ (List.mem_singleton_self _)
  obtain ⟨result', hresult, hcount⟩ := executions_conserved hsetUp hreach configured
  rw [hreports] at hcount
  exact ⟨{ reporter := reporter, scheduler := slowTasks }, l, path, report, result', hreports,
    hresult, hcount⟩

/-- One report for each execution of the "ReportGenerator", numbered from 1 on, named after
    its instant, with an entry for exactly the configured keys. -/
theorem reports_in_order
    (hsetUp : (setUp fileabs env o configmap).run { reporter := { outFolder := o.outFolder } } =
      .ok () boot) {sources : Sources R} {start : ℤ}
    {l : Loop (Fin boot.scheduler.length) (System (Sources R) D)}
    (hreach : Reachable (handlers boot.scheduler)
      (posted boot.scheduler { sources := sources, reporter := boot.reporter } start) l) :
    l.system.reports.map heading =
      headings o.outFolder (reportStamps (timeline (plan fileabs o configmap) l.history)) ∧
    ∀ file ∈ l.system.reports, ∀ key, (∃ entry, (key, entry) ∈ file.2.entries) ↔
      key ∈ measureKeys (descriptors configmap) := by
  obtain ⟨calls, h⟩ := run_delivered hsetUp hreach
  exact ⟨h.files, h.lists⟩

theorem reports_in_order_slow : ∃ (boot : Boot Unit Float)
    (l : Loop (Fin boot.scheduler.length) (System (Sources Unit) Float)) (path : String)
    (report : PeriodReport Float), l.system.reports = [(path, report)] ∧
      [heading (path, report)] =
        headings "/tmp" (reportStamps (timeline (plan false {} slowConfig) l.history)) := by
  obtain ⟨reporter, result, hsetUp, hinflow, houtflow, hraw⟩ := slow_setUp
  obtain ⟨l, path, report, hreach, hreports, _⟩ :=
    slow_run hinflow houtflow hraw { connection := fun _ => [], engine := () }
  have files := (reports_in_order hsetUp hreach).1
  rw [hreports] at files
  exact ⟨{ reporter := reporter, scheduler := slowTasks }, l, path, report, hreports, files⟩

end Run

section Progress

variable {fileabs : Bool} {env : Environment D R} {o : Options}
  {configmap : MeasConfig.ConfigurationMap D} {boot : Boot R D}

theorem tasks_run
    (hsetUp : (setUp fileabs env o configmap).run { reporter := { outFolder := o.outFolder } } =
      .ok () boot) {sources : Sources R} {start : ℤ}
    {l : Loop (Fin boot.scheduler.length) (System (Sources R) D)}
    (hreach : Reachable (handlers boot.scheduler)
      (posted boot.scheduler { sources := sources, reporter := boot.reporter } start) l)
    (i : Fin boot.scheduler.length) (now : ℤ) :
    ∃ system', ((boot.scheduler.get i).task now).run l.system = .ok () system' := by
  obtain ⟨calls, delivered⟩ := run_delivered hsetUp hreach
  obtain ⟨jobs, hscheduler, himplements⟩ := setUp_implements hsetUp
  obtain ⟨job, work, _, hjob, htask, _⟩ := job_at hscheduler himplements i
  rw [htask]
  cases job with
  | report interval => exact ⟨_, rfl⟩
  | rotate interval => exact ⟨_, rfl⟩
  | measure slave meas =>
    obtain ⟨result, hresult⟩ := delivered.find (implements_keys himplements hjob rfl)
    have there : (l.system.reporter.find (taskKey slave meas)).isSome := by
      rw [hresult]
      rfl
    obtain ⟨system', hrun, _⟩ := measTask_run slave meas now l.system there
    exact ⟨system', hrun⟩

/-- Only the "ReportGenerator" is aligned. -/
theorem setUp_aligned
    (hsetUp : (setUp fileabs env o configmap).run { reporter := { outFolder := o.outFolder } } =
      .ok () boot) {t : ScheduledTask (System (Sources R) D)} (ht : t ∈ boot.scheduler)
    (hmode : t.mode = .executeAtMultiplesOfPeriod) :
    t = (Job.report o.reportingPeriod).scheduled := by
  obtain ⟨_, hscheduler, _⟩ := setUp_ok hsetUp
  rw [hscheduler] at ht
  obtain ⟨job, hjob, rfl⟩ := List.mem_map.mp ht
  rcases List.mem_append.mp hjob with hown | hmeasure
  · rcases mem_ownJobs hown with rfl | rfl
    · rfl
    · cases hmode
  · obtain ⟨slave, desc, _, meas, _, rfl⟩ := mem_measureJobs.mp hmeasure
    cases hmode

theorem run_live {sources : Sources R} {start : ℤ}
    {l : Loop (Fin boot.scheduler.length) (System (Sources R) D)}
    (hreach : Reachable (handlers boot.scheduler)
      (posted boot.scheduler { sources := sources, reporter := boot.reporter } start) l) : Live l := by
  refine Live.reachable (handlers_rearm boot.scheduler) (fun i => .inl ?_) hreach
  exact List.mem_finRange i

/-- The scheduler neither returns nor throws, unless the report period is zero: in every state
    that a run reaches each task is posted or armed, no handler can fail, and there is a next
    step. -/
theorem run_goes_on
    (hsetUp : (setUp fileabs env o configmap).run { reporter := { outFolder := o.outFolder } } =
      .ok () boot) (hbounded : o.Bounded) (hperiod : o.reportingPeriod ≠ 0) {sources : Sources R} {start : ℤ}
    {l : Loop (Fin boot.scheduler.length) (System (Sources R) D)}
    (hreach : Reachable (handlers boot.scheduler)
      (posted boot.scheduler { sources := sources, reporter := boot.reporter } start) l) :
    Live l ∧
    (∀ i began finished, ∃ expiry system,
      ((handlers boot.scheduler).start i began finished).run l.system = .ok expiry system) ∧
    (∀ i expiry, ∃ next system,
      ((handlers boot.scheduler).expire i expiry).run l.system = .ok (some next) system) ∧
    ∃ l', Step (handlers boot.scheduler) l l' := by
  have runs := tasks_run hsetUp hreach
  have live := run_live hreach
  have divides (i : Fin boot.scheduler.length)
      (hmode : (boot.scheduler.get i).mode = .executeAtMultiplesOfPeriod) :
      (boot.scheduler.get i).multiple ≠ 0 := by
    rw [setUp_aligned hsetUp (List.get_mem _ i) hmode, report_multiple hbounded]
    exact hperiod
  have starts (i : Fin boot.scheduler.length) (began finished : ℤ) : ∃ expiry system,
      ((handlers boot.scheduler).start i began finished).run l.system = .ok expiry system :=
    start_runs (divides i) (runs i) began finished
  have expires (i : Fin boot.scheduler.length) (expiry : ℤ) : ∃ next system,
      ((handlers boot.scheduler).expire i expiry).run l.system = .ok (some next) system := by
    obtain ⟨system', hrun⟩ := runs i (toSeconds expiry)
    exact ⟨_, system', execute_run hrun⟩
  refine ⟨live, starts, expires, exists_step (fun i began finished _ => starts i began finished)
    (fun i expiry _ => ?_) ?_⟩
  · obtain ⟨next, system, hrun⟩ := expires i expiry
    exact ⟨some next, system, hrun⟩
  · have nonempty : 0 < boot.scheduler.length := by
      obtain ⟨jobs, hscheduler, himplements⟩ := setUp_implements hsetUp
      rw [hscheduler, List.length_map, himplements.length_eq]
      exact Nat.succ_pos _
    rcases live ⟨0, nonempty⟩ with hmem | harmed
    · exact .inl (List.ne_nil_of_mem hmem)
    · exact .inr ⟨_, Option.isSome_iff_exists.mp harmed⟩

theorem run_goes_on_slow : ∃ (boot : Boot Unit Float)
    (l l' : Loop (Fin boot.scheduler.length) (System (Sources Unit) Float)) (path : String)
    (report : PeriodReport Float), l.system.reports = [(path, report)] ∧
      Step (handlers boot.scheduler) l l' := by
  obtain ⟨reporter, result, hsetUp, hinflow, houtflow, hraw⟩ := slow_setUp
  obtain ⟨l, path, report, hreach, hreports, _⟩ :=
    slow_run hinflow houtflow hraw { connection := fun _ => [], engine := () }
  obtain ⟨_, _, _, l', hstep⟩ :=
    run_goes_on hsetUp ⟨by decide, by decide⟩ (by decide) hreach
  exact ⟨{ reporter := reporter, scheduler := slowTasks }, l, l', path, report, hreports, hstep⟩

/-- No task is starved: it is armed for an instant, and every run within the 64 bits of the clock
    that goes on for more than a bounded number of executions executes it at that instant. -/
theorem never_starved
    (hpositive : ∀ t ∈ boot.scheduler, 0 < t.interval) {sources : Sources R} {start : ℤ}
    {l : Loop (Fin boot.scheduler.length) (System (Sources R) D)}
    (hreach : Reachable (handlers boot.scheduler)
      (posted boot.scheduler { sources := sources, reporter := boot.reporter } start) l)
    (hposted : l.posted = []) (i : Fin boot.scheduler.length) :
    ∃ expiry, l.armed i = some expiry ∧ ∀ l', Reachable (handlers boot.scheduler) l l' →
      InRange boot.scheduler l'.clock → ∃ events, l'.history = l.history ++ events ∧
        (ahead (periods boot.scheduler) l i expiry < events.length → .expired i expiry ∈ events) := by
  have live := run_live hreach i
  rw [hposted] at live
  obtain ⟨expiry, hexpiry⟩ := Option.isSome_iff_exists.mp (live.resolve_left List.not_mem_nil)
  have waits : Waits l i expiry := ⟨hposted, hexpiry⟩
  refine ⟨expiry, hexpiry, fun l' hreach' hclock => ?_⟩
  obtain ⟨events, hhistory, hevents⟩ := waits.run (handlers_rearm boot.scheduler)
    (periods_pos hpositive) hclock.late (Int.le_refl _) hreach'
  refine ⟨events, hhistory, fun hmore => ?_⟩
  rcases hevents with hcome | ⟨_, hcount⟩
  · exact hcome
  · omega

/-- No period is closed before every task has started. -/
theorem reports_posted
    (hsetUp : (setUp fileabs env o configmap).run { reporter := { outFolder := o.outFolder } } =
      .ok () boot)
    (hpositive : ∀ t ∈ boot.scheduler, 0 < t.interval) {sources : Sources R} {start : ℤ}
    {l : Loop (Fin boot.scheduler.length) (System (Sources R) D)}
    (hreach : Reachable (handlers boot.scheduler)
      (posted boot.scheduler { sources := sources, reporter := boot.reporter } start) l)
    (hclock : InRange boot.scheduler l.clock) (hreports : l.system.reports ≠ []) : l.posted = [] := by
  obtain ⟨jobs, hscheduler, _, _, initial⟩ := setUp_jobs hsetUp
  obtain ⟨calls, accounted⟩ := initial sources
  have hjobs : ∀ t ∈ boot.scheduler, ∃ job : Job (Sources R) D, job.scheduled = t := by
    rw [hscheduler]
    intro t ht
    obtain ⟨job, _, hjob⟩ := List.mem_map.mp ht
    exact ⟨job, hjob⟩
  have periods := (Periods.posted _ start rfl (boot_samples accounted)).reachable hjobs
    (handlers_forward hpositive hclock) (Int.le_refl _) hreach
  by_contra hposted
  exact hreports (periods.reports_nil hposted)

theorem never_starved_slow : ∃ (boot : Boot Unit Float)
    (l : Loop (Fin boot.scheduler.length) (System (Sources Unit) Float))
    (i : Fin boot.scheduler.length) (expiry : ℤ), l.armed i = some expiry ∧
      ∀ l', Reachable (handlers boot.scheduler) l l' → InRange boot.scheduler l'.clock →
        ∃ events, l'.history = l.history ++ events ∧
        (ahead (periods boot.scheduler) l i expiry < events.length → .expired i expiry ∈ events) := by
  obtain ⟨reporter, result, hsetUp, hinflow, houtflow, hraw⟩ := slow_setUp
  obtain ⟨l, path, report, hreach, hreports, hclock, _⟩ :=
    slow_run hinflow houtflow hraw { connection := fun _ => [], engine := () }
  have hposted : l.posted = [] := by
    refine reports_posted hsetUp slow_positive hreach hclock ?_
    rw [hreports]
    exact List.cons_ne_nil _ _
  let boot : Boot Unit Float := { reporter := reporter, scheduler := slowTasks }
  have second : 1 < slowTasks.length := by decide
  let i : Fin boot.scheduler.length := ⟨1, second⟩
  obtain ⟨expiry, hruns⟩ := never_starved slow_positive hreach hposted i
  exact ⟨boot, l, i, expiry, hruns⟩

end Progress

end ModbusCrawler.WholeRuns
