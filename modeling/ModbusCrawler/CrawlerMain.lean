import ModbusCrawler.MeasExecutor

set_option autoImplicit false

/-!
# The measure mode of `crawler/main.cpp`

The options are given as `getopt` delivers them. What is set up before the scheduler
runs is a `Boot`; it is a state, so it is known when the set-up throws.
-/
namespace ModbusCrawler.CrawlerMain
open Std CNumerals ModbusTypes ModbusSlave MeasReporter MeasExecutor PeriodicScheduler

inductive Mode where
  | unknown | measScheduler | singleRead | singleWrite | fileTransfer | flashUpdate
  deriving DecidableEq, Repr

structure Options where
  mode : Mode := .unknown
  slaveId : ℤ := -1
  serialDevice : String := "/dev/ttyCOM1"
  serialConfig : String := "9600:8:N:1"
  answeringTime : ℤ := 500
  logPath : String := ""
  logrotationPeriod : ℤ := 3600
  outFolder : String := "/tmp"
  reportingPeriod : ℤ := 300
  measconfigFile : String := ""
  deriving DecidableEq, Repr

/-- Why `main` does not get to the measure mode. -/
inductive Stop where
  | usage (res : ℤ) (msg : String)
  | exception (e : Exception)
  | otherMode (mode : Mode)
  deriving DecidableEq, Repr

def stoiOption (optarg : String) : Except Stop ℤ :=
  match stoi optarg with
  | .ok n => .ok n
  | .error .noConversion => .error (.exception (.invalidArgument "stoi"))
  | .error .outOfRange => .error (.exception (.outOfRange "stoi"))

def parseOption (o : Options) (ch : Char) (optarg : String) : Except Stop Options :=
  match ch with
  | 'R' => .ok { o with mode := .singleRead }
  | 'W' => .ok { o with mode := .singleWrite }
  | 'F' => .ok { o with mode := .fileTransfer }
  | 'U' => .ok { o with mode := .flashUpdate }
  | 'd' => .ok { o with serialDevice := optarg }
  | 'l' => .ok { o with logPath := optarg }
  | 'c' => .ok { o with serialConfig := optarg }
  | 's' => (stoiOption optarg).map (fun n => { o with slaveId := n })
  | 'a' => (stoiOption optarg).map (fun n => { o with answeringTime := n })
  | 'm' => .ok { o with mode := .measScheduler, measconfigFile := optarg }
  | 'r' => (stoiOption optarg).map (fun n => { o with reportingPeriod := n })
  | 't' => (stoiOption optarg).map (fun n => { o with logrotationPeriod := n })
  | 'o' => .ok { o with outFolder := optarg }
  | '?' => .error (.usage (-1) "")
  | _ => .error (.usage 0 "")

def parseOptions : Options → List (Char × String) → Except Stop Options
  | o, [] => .ok o
  | o, (ch, optarg) :: rest => do
    let o ← parseOption o ch optarg
    parseOptions o rest

def measureMode (args : List (Char × String)) : Except Stop Options := do
  let o ← parseOptions {} args
  if o.mode = .singleRead || o.mode = .singleWrite || o.mode = .fileTransfer ||
      o.mode = .flashUpdate then .error (.otherMode o.mode)
  else if o.measconfigFile = "" then
    .error (.usage (-1) "missing measures config file parameter")
  else .ok o

variable {σ D R : Type} [Doubles D]

def configureServer (desc : MeasConfig.Descriptor D) : EStateM Exception (Reporter D) Unit :=
  forM desc.measures (fun meas =>
    configureMeasurement ⟨desc.server.name, desc.server.modbusId⟩ meas.name
      ⟨meas.samplingPeriod, meas.accumulating, meas.reportRawSamples⟩)

def configureAll (descs : List (MeasConfig.Descriptor D)) : EStateM Exception (Reporter D) Unit :=
  forM descs configureServer

def reportTask (now : ℤ) : EStateM Exception (System σ D) Unit :=
  modify (fun system =>
    let (file, reporter) := closePeriod system.reporter now
    { system with reporter := reporter, reports := system.reports ++ [file] })

/-- The "LogRotator" renames the log file, which is not part of the system. -/
def rotateTask (_now : ℤ) : EStateM Exception (System σ D) Unit := pure ()

structure Boot (R D : Type) [Doubles D] where
  reporter : Reporter D
  scheduler : Scheduler (System (Sources R) D) := []

def bootReporter (action : EStateM Exception (Reporter D) Unit) :
    EStateM Exception (Boot R D) Unit := fun boot =>
  match action.run boot.reporter with
  | .ok _ reporter => .ok () { boot with reporter := reporter }
  | .error e reporter => .error e { boot with reporter := reporter }

def bootScheduler (action : EStateM Exception (Scheduler (System (Sources R) D)) Unit) :
    EStateM Exception (Boot R D) Unit := fun boot =>
  match action.run boot.scheduler with
  | .ok _ scheduler => .ok () { boot with scheduler := scheduler }
  | .error e scheduler => .error e { boot with scheduler := scheduler }

def descriptors (configmap : MeasConfig.ConfigurationMap D) : List (MeasConfig.Descriptor D) :=
  configmap.toList.map Prod.snd

/-- `#if LOGURU_WITH_FILEABS` -/
def addLogRotator (fileabs : Bool) (o : Options) (scheduler : Scheduler (System σ D)) :
    Scheduler (System σ D) :=
  if fileabs && o.logPath ≠ "" then
    addTask scheduler "LogRotator" o.logrotationPeriod rotateTask .skipFirstExecution
  else scheduler

/-- From the configuration map to `scheduler.run()`. -/
def setUp (fileabs : Bool) (env : Environment D R) (o : Options)
    (configmap : MeasConfig.ConfigurationMap D) : EStateM Exception (Boot R D) Unit := do
  bootReporter (configureAll (descriptors configmap))
  bootScheduler (modify (fun scheduler =>
    addTask scheduler "ReportGenerator" o.reportingPeriod reportTask .executeAtMultiplesOfPeriod))
  bootScheduler (modify (addLogRotator fileabs o))
  bootScheduler (executor env (descriptors configmap) [])

inductive Job (σ D : Type) [Doubles D] where
  | report (interval : ℤ)
  | rotate (interval : ℤ)
  | measure (slave : SlaveConcept σ) (meas : MeasConfig.Measure D)

def Job.scheduled : Job σ D → ScheduledTask (System σ D)
  | .report interval => ⟨"ReportGenerator", interval, reportTask, .executeAtMultiplesOfPeriod⟩
  | .rotate interval => ⟨"LogRotator", interval, rotateTask, .skipFirstExecution⟩
  | .measure slave meas => ⟨"Server_" ++ toString slave.id ++ "/" ++ meas.name,
      meas.samplingPeriod, measTask slave meas, .executeAtStart⟩

def Job.key : Job σ D → Option Key
  | .measure slave meas => some (taskKey slave meas)
  | _ => none

theorem Job.aligned {job : Job σ D} (h : job.scheduled.mode = .executeAtMultiplesOfPeriod) :
    ∃ interval, job = .report interval := by
  cases job with
  | report interval => exact ⟨interval, rfl⟩
  | rotate | measure => cases h

theorem Job.atStart {job : Job σ D} (h : job.scheduled.mode = .executeAtStart) :
    ∃ slave meas, job = .measure slave meas := by
  cases job with
  | measure slave meas => exact ⟨slave, meas, rfl⟩
  | report | rotate => cases h

def constructed (env : Environment D R) : List (MeasConfig.Descriptor D) → (slaves : List ℤ) →
    List (SlaveConcept (Sources R) × MeasConfig.Descriptor D)
  | [], _ => []
  | el :: rest, slaves =>
    match makeSlave env slaves el.server el.measures with
    | .error _ => []
    | .ok slave => (slave, el) :: constructed env rest (el.server.modbusId :: slaves)

def measureJobs (servers : List (SlaveConcept σ × MeasConfig.Descriptor D)) : List (Job σ D) :=
  servers.flatMap (fun server => server.2.measures.map (Job.measure server.1))

def ownJobs (fileabs : Bool) (o : Options) : List (Job σ D) :=
  .report o.reportingPeriod ::
    if fileabs && o.logPath ≠ "" then [.rotate o.logrotationPeriod] else []

theorem mem_measureJobs {servers : List (SlaveConcept σ × MeasConfig.Descriptor D)} {job : Job σ D} :
    job ∈ measureJobs servers ↔
      ∃ slave desc, (slave, desc) ∈ servers ∧ ∃ meas ∈ desc.measures, .measure slave meas = job := by
  simp [measureJobs]

theorem mem_ownJobs {fileabs : Bool} {o : Options} {job : Job σ D} (h : job ∈ ownJobs fileabs o) :
    job = .report o.reportingPeriod ∨ job = .rotate o.logrotationPeriod := by
  unfold ownJobs at h
  rcases List.mem_cons.mp h with hreport | hrotate
  · exact .inl hreport
  · split_ifs at hrotate
    · exact .inr (List.mem_singleton.mp hrotate)
    · cases hrotate

def measureKeys (descs : List (MeasConfig.Descriptor D)) : List Key :=
  descs.flatMap (fun desc => desc.measures.map (fun meas =>
    (⟨desc.server.name, desc.server.modbusId⟩, meas.name)))

theorem stoiOption_range {optarg : String} {n : ℤ} (h : stoiOption optarg = .ok n) :
    -2^31 ≤ n ∧ n ≤ 2^31 - 1 := by
  unfold stoiOption at h
  cases hn : stoi optarg with
  | error e =>
    rw [hn] at h
    cases e <;> cases h
  | ok value =>
    rw [hn] at h
    cases h
    exact stoi_range hn

def Options.Bounded (o : Options) : Prop := -2^31 ≤ o.reportingPeriod ∧ o.reportingPeriod ≤ 2^31 - 1

theorem parseOption_bounded {o o' : Options} {ch : Char} {optarg : String} (hbounded : o.Bounded)
    (h : parseOption o ch optarg = .ok o') : o'.Bounded := by
  unfold parseOption at h
  split at h
  all_goals first | cases h | skip
  all_goals first | exact hbounded | skip
  all_goals
    cases hn : stoiOption optarg with
    | error e => rw [hn] at h; cases h
    | ok n =>
      rw [hn] at h
      cases h
      first | exact hbounded | exact stoiOption_range hn

theorem parseOptions_bounded {args : List (Char × String)} {o o' : Options} (hbounded : o.Bounded)
    (h : parseOptions o args = .ok o') : o'.Bounded := by
  induction args generalizing o with
  | nil =>
    cases h
    exact hbounded
  | cons arg rest ih =>
    obtain ⟨ch, optarg⟩ := arg
    cases hfirst : parseOption o ch optarg with
    | error e =>
      rw [parseOptions, hfirst] at h
      cases h
    | ok o1 =>
      rw [parseOptions, hfirst] at h
      exact ih (parseOption_bounded hbounded hfirst) h

theorem measureMode_bounded {args : List (Char × String)} {o : Options}
    (h : measureMode args = .ok o) : o.Bounded := by
  cases hparse : parseOptions {} args with
  | error e =>
    rw [measureMode, hparse] at h
    cases h
  | ok o' =>
    rw [measureMode, hparse] at h
    change (if _ then _ else if _ then _ else _) = _ at h
    split_ifs at h
    cases h
    exact parseOptions_bounded ⟨by decide, by decide⟩ hparse

theorem report_multiple {o : Options} (h : o.Bounded) :
    (Job.report o.reportingPeriod : Job σ D).scheduled.multiple = o.reportingPeriod := by
  obtain ⟨low, high⟩ := h
  change (Int32.ofInt o.reportingPeriod).toInt = o.reportingPeriod
  exact Int32.toInt_ofInt_of_le low (by omega)

/-- The executor schedules the measures of the servers it constructs a slave for. -/
theorem executor_run (env : Environment D R) (descs : List (MeasConfig.Descriptor D))
    (slaves : List ℤ) (scheduler : Scheduler (System (Sources R) D)) :
    let scheduler' := scheduler ++ (measureJobs (constructed env descs slaves)).map Job.scheduled
    ((executor env descs slaves).run scheduler = .ok () scheduler' ∧
      (constructed env descs slaves).map Prod.snd = descs) ∨
    ∃ e, (executor env descs slaves).run scheduler = .error e scheduler' ∧
      (constructed env descs slaves).map Prod.snd ≠ descs := by
  induction descs generalizing slaves scheduler with
  | nil =>
    refine .inl ⟨?_, rfl⟩
    simp [executor, constructed, measureJobs]
  | cons el rest ih =>
    unfold executor constructed
    cases makeSlave env slaves el.server el.measures with
    | error e =>
      refine .inr ⟨e, ?_, by simp⟩
      simp [measureJobs]
    | ok slave =>
      have tasks : addSchedule slave el.measures scheduler ++
          (measureJobs (constructed env rest (el.server.modbusId :: slaves))).map Job.scheduled =
          scheduler ++ (measureJobs ((slave, el) ::
            constructed env rest (el.server.modbusId :: slaves))).map Job.scheduled := by
        rw [addSchedule_eq, measureJobs, measureJobs, List.flatMap_cons, List.map_append,
          List.append_assoc, List.map_map]
        rfl
      rcases ih (el.server.modbusId :: slaves) (addSchedule slave el.measures scheduler) with
        ⟨hrun, hall⟩ | ⟨e, hrun, hmissing⟩
      · refine .inl ⟨?_, ?_⟩
        · rw [← tasks]
          exact hrun
        · rw [List.map_cons, hall]
      · refine .inr ⟨e, ?_, ?_⟩
        · rw [← tasks]
          exact hrun
        · rw [List.map_cons]
          exact fun hall => hmissing (List.cons.inj hall).2

/-- Each task writes to the key that its measure was configured with. -/
theorem constructed_keys (env : Environment D R) (descs : List (MeasConfig.Descriptor D))
    (slaves : List ℤ) : (measureJobs (constructed env descs slaves)).map Job.key =
      (measureKeys ((constructed env descs slaves).map Prod.snd)).map some := by
  induction descs generalizing slaves with
  | nil => rfl
  | cons el rest ih =>
    unfold constructed
    cases hslave : makeSlave env slaves el.server el.measures with
    | error e => rfl
    | ok slave =>
      obtain ⟨hname, hid, _⟩ := makeSlave_key hslave
      rw [measureJobs, List.flatMap_cons, List.map_append, List.map_map, List.map_cons, measureKeys,
        List.flatMap_cons, List.map_append, List.map_map]
      refine congrArg₂ _ ?_ (ih _)
      refine List.map_congr_left fun meas _ => ?_
      change some (taskKey slave meas) = _
      rw [taskKey, hname, hid]
      rfl

theorem bootReporter_run (action : EStateM Exception (Reporter D) Unit) (boot : Boot R D) :
    (bootReporter action).run boot =
      match action.run boot.reporter with
      | .ok _ reporter => .ok () { boot with reporter := reporter }
      | .error e reporter => .error e { boot with reporter := reporter } := rfl

theorem bootScheduler_run (action : EStateM Exception (Scheduler (System (Sources R) D)) Unit)
    (boot : Boot R D) :
    (bootScheduler action).run boot =
      match action.run boot.scheduler with
      | .ok _ scheduler => .ok () { boot with scheduler := scheduler }
      | .error e scheduler => .error e { boot with scheduler := scheduler } := rfl

theorem bootScheduler_modify (f : Scheduler (System (Sources R) D) → Scheduler (System (Sources R) D))
    (boot : Boot R D) :
    (bootScheduler (modify f)).run boot = .ok () { boot with scheduler := f boot.scheduler } := rfl

theorem ownJobs_scheduled (fileabs : Bool) (o : Options) :
    addLogRotator fileabs o (addTask [] "ReportGenerator" o.reportingPeriod reportTask
      .executeAtMultiplesOfPeriod) =
      ((ownJobs fileabs o).map Job.scheduled : Scheduler (System σ D)) := by
  unfold addLogRotator ownJobs
  split_ifs <;> rfl

/-- Everything the set-up can do. -/
theorem setUp_run (fileabs : Bool) (env : Environment D R) (o : Options)
    (configmap : MeasConfig.ConfigurationMap D) (reporter : Reporter D) :
    (∃ e reporter', (configureAll (descriptors configmap)).run reporter = .error e reporter' ∧
      (setUp fileabs env o configmap).run { reporter := reporter } =
        .error e { reporter := reporter' }) ∨
    ∃ reporter', (configureAll (descriptors configmap)).run reporter = .ok () reporter' ∧
      let servers := constructed env (descriptors configmap) []
      let boot : Boot R D :=
        { reporter := reporter'
          scheduler := (ownJobs fileabs o ++ measureJobs servers).map Job.scheduled }
      ((setUp fileabs env o configmap).run { reporter := reporter } = .ok () boot ∧
        servers.map Prod.snd = descriptors configmap) ∨
      ∃ e, (setUp fileabs env o configmap).run { reporter := reporter } = .error e boot ∧
        servers.map Prod.snd ≠ descriptors configmap := by
  unfold setUp
  rw [EStateM.run_bind, bootReporter_run]
  dsimp only
  cases (configureAll (descriptors configmap)).run reporter with
  | error e reporter' => exact .inl ⟨e, reporter', rfl, rfl⟩
  | ok _ reporter' =>
    refine .inr ⟨reporter', rfl, ?_⟩
    dsimp only
    simp only [EStateM.run_bind, bootScheduler_modify]
    simp only [bootScheduler_run, ownJobs_scheduled]
    rcases executor_run env (descriptors configmap) [] ((ownJobs fileabs o).map Job.scheduled) with
      ⟨hrun, hall⟩ | ⟨e, hrun, hmissing⟩
    · rw [hrun, ← List.map_append]
      exact .inl ⟨rfl, hall⟩
    · rw [hrun, ← List.map_append]
      exact .inr ⟨e, rfl, hmissing⟩

/-- What a set-up that completes leaves. -/
theorem setUp_ok {fileabs : Bool} {env : Environment D R} {o : Options}
    {configmap : MeasConfig.ConfigurationMap D} {reporter : Reporter D} {boot : Boot R D}
    (h : (setUp fileabs env o configmap).run { reporter := reporter } = .ok () boot) :
    let servers := constructed env (descriptors configmap) []
    (configureAll (descriptors configmap)).run reporter = .ok () boot.reporter ∧
      boot.scheduler = (ownJobs fileabs o ++ measureJobs servers).map Job.scheduled ∧
      servers.map Prod.snd = descriptors configmap := by
  rcases setUp_run fileabs env o configmap reporter with
    ⟨e, reporter', _, hrun⟩ | ⟨reporter', hconfigure, ⟨hrun, hall⟩ | ⟨e, hrun, _⟩⟩
  · rw [hrun] at h
    cases h
  · rw [hrun] at h
    cases h
    exact ⟨hconfigure, rfl, hall⟩
  · rw [hrun] at h
    cases h

end ModbusCrawler.CrawlerMain
