import ModbusCrawler.ReportPeriods

set_option autoImplicit false

/-!
# Whole runs of the crawler

What `main` sets up is a list of works in the order of the configuration, and a run
of the scheduler is the works it executes, one after the other.
-/
namespace ModbusCrawler.CrawlerRuns
open ModbusTypes ModbusSlave MeasReporter MeasExecutor PeriodicScheduler CrawlerMain EventLoop
open TaskAccounting ReportPeriods

variable {D R : Type} [Doubles D]

inductive Work (D : Type) where
  | report
  | rotate
  | measure (server : MeasConfig.ModbusServer) (meas : MeasConfig.Measure D)

def ownWorks (fileabs : Bool) (o : Options) : List (Work D) :=
  .report :: if fileabs && o.logPath ≠ "" then [.rotate] else []

def measureWorks (descs : List (MeasConfig.Descriptor D)) : List (Work D) :=
  descs.flatMap (fun desc => desc.measures.map (Work.measure desc.server))

def plan (fileabs : Bool) (o : Options) (configmap : MeasConfig.ConfigurationMap D) :
    List (Work D) :=
  ownWorks fileabs o ++ measureWorks (descriptors configmap)

/-- What an event executes, with the stamp; a start handler executes measures only. -/
def executed {n : ℕ} (works : List (Work D)) : Event (Fin n) → Option (Work D × ℤ)
  | .started i began _ =>
    match works[i.val]? with
    | some (.measure server meas) => some (.measure server meas, toSeconds began)
    | _ => none
  | .expired i expiry => works[i.val]?.map (fun work => (work, toSeconds expiry))

def timeline {n : ℕ} (works : List (Work D)) (history : List (Event (Fin n))) :
    List (Work D × ℤ) :=
  history.filterMap (executed works)

/-- The slave of a measure's job is the one that is constructed for the server. -/
inductive Implements (env : Environment D R) : Job (Sources R) D → Work D → Prop
  | report (interval : ℤ) : Implements env (.report interval) .report
  | rotate (interval : ℤ) : Implements env (.rotate interval) .rotate
  | measure {slaves : List ℤ} {server : MeasConfig.ModbusServer}
      {measures : List (MeasConfig.Measure D)} {slave : SlaveConcept (Sources R)}
      (hslave : makeSlave env slaves server measures = .ok slave) (meas : MeasConfig.Measure D) :
      Implements env (.measure slave meas) (.measure server meas)

theorem constructed_implements (env : Environment D R) (descs : List (MeasConfig.Descriptor D))
    (slaves : List ℤ) : List.Forall₂ (Implements env) (measureJobs (constructed env descs slaves))
      (measureWorks ((constructed env descs slaves).map Prod.snd)) := by
  induction descs generalizing slaves with
  | nil => exact .nil
  | cons el rest ih =>
    unfold constructed
    cases hslave : makeSlave env slaves el.server el.measures with
    | error e => exact .nil
    | ok slave =>
      refine List.rel_append ?_ (ih (el.server.modbusId :: slaves))
      rw [List.forall₂_map_left_iff, List.forall₂_map_right_iff, List.forall₂_same]
      exact fun meas _ => .measure hslave meas

theorem ownJobs_implement (env : Environment D R) (fileabs : Bool) (o : Options) :
    List.Forall₂ (Implements env) (ownJobs fileabs o) (ownWorks fileabs o) := by
  unfold ownJobs ownWorks
  split_ifs
  · exact .cons (.report _) (.cons (.rotate _) .nil)
  · exact .cons (.report _) .nil

/-- A set-up that completes schedules one job for each work, in the order of the plan. -/
theorem setUp_implements {fileabs : Bool} {env : Environment D R} {o : Options}
    {configmap : MeasConfig.ConfigurationMap D} {boot : Boot R D}
    (h : (setUp fileabs env o configmap).run { reporter := { outFolder := o.outFolder } } =
      .ok () boot) :
    ∃ jobs : List (Job (Sources R) D), boot.scheduler = jobs.map Job.scheduled ∧
      List.Forall₂ (Implements env) jobs (plan fileabs o configmap) := by
  obtain ⟨_, hscheduler, hall⟩ := setUp_ok h
  have measures := constructed_implements env (descriptors configmap) []
  rw [hall] at measures
  exact ⟨_, hscheduler, List.rel_append (ownJobs_implement env fileabs o) measures⟩

/-- A tick performs an executed work, with the stamp of the work. -/
def Performs (env : Environment D R) (tick : Tick (Sources R) D) (work : Work D × ℤ) : Prop :=
  Implements env tick.1 work.1 ∧ tick.2 = work.2

section Replay
variable {env : Environment D R} {tasks : Scheduler (System (Sources R) D)}
  {jobs : List (Job (Sources R) D)} {works : List (Work D)} {system system' : System (Sources R) D}

theorem job_at (htasks : tasks = jobs.map Job.scheduled)
    (himplements : List.Forall₂ (Implements env) jobs works) (i : Fin tasks.length) :
    ∃ job work, works[i.val]? = some work ∧ job ∈ jobs ∧ tasks.get i = job.scheduled ∧
      Implements env job work := by
  subst htasks
  have hi : i.val < jobs.length := i.isLt.trans_eq (List.length_map _)
  have hi' : i.val < works.length := hi.trans_eq himplements.length_eq
  refine ⟨jobs[i.val], works[i.val], List.getElem?_eq_getElem hi', List.getElem_mem hi, ?_,
    himplements.get hi hi'⟩
  exact List.getElem_map Job.scheduled

/-- An event runs the task of one tick, or it leaves the system alone. -/
theorem replay_cases (htasks : tasks = jobs.map Job.scheduled)
    (himplements : List.Forall₂ (Implements env) jobs works) (event : Event (Fin tasks.length))
    (hrun : ((handlers tasks).replay event).run system = .ok () system') :
    (executed works event = none ∧ system' = system) ∨
    ∃ tick work, executed works event = some work ∧ tick.1 ∈ jobs ∧ Performs env tick work ∧
      (perform tick).run system = .ok () system' := by
  cases event with
  | started i began finished =>
    obtain ⟨job, work, hwork, hmem, htask, himplement⟩ := job_at htasks himplements i
    change (do let _ ← (tasks.get i).start began finished : EStateM _ _ _).run system = _ at hrun
    rw [EStateM.run_bind] at hrun
    cases hstart : ((tasks.get i).start began finished).run system with
    | error e system1 =>
      rw [hstart] at hrun
      cases hrun
    | ok expiry system1 =>
      rw [hstart] at hrun
      cases hrun
      rcases start_ok hstart with ⟨hmode, hrun⟩ | ⟨hmode, rfl⟩
      · rw [htask] at hmode hrun
        cases himplement with
        | report interval => cases hmode
        | rotate interval => cases hmode
        | @measure slaves server measures slave hslave meas =>
          refine .inr ⟨(.measure slave meas, toSeconds began), (.measure server meas, toSeconds began),
            ?_, hmem, ⟨.measure hslave meas, rfl⟩, hrun⟩
          rw [executed, hwork]
      · rw [htask] at hmode
        refine .inl ⟨?_, rfl⟩
        rw [executed, hwork]
        cases himplement with
        | report interval => rfl
        | rotate interval => rfl
        | measure hslave meas => exact absurd rfl hmode
  | expired i expiry =>
    obtain ⟨job, work, hwork, hmem, htask, himplement⟩ := job_at htasks himplements i
    change (do let _ ← (tasks.get i).execute false expiry : EStateM _ _ _).run system = _ at hrun
    rw [EStateM.run_bind] at hrun
    cases hexecute : ((tasks.get i).execute false expiry).run system with
    | error e system1 =>
      rw [hexecute] at hrun
      cases hrun
    | ok next system1 =>
      rw [hexecute] at hrun
      cases hrun
      have htick := (execute_ok hexecute).1
      rw [htask] at htick
      refine .inr ⟨(job, toSeconds expiry), (work, toSeconds expiry), ?_, hmem,
        ⟨himplement, rfl⟩, htick⟩
      rw [executed, hwork]
      rfl

theorem replay_ticks (htasks : tasks = jobs.map Job.scheduled)
    (himplements : List.Forall₂ (Implements env) jobs works)
    (events : List (Event (Fin tasks.length)))
    (hrun : (forM events (handlers tasks).replay).run system = .ok () system') :
    ∃ ticks, List.Forall₂ (Performs env) ticks (timeline works events) ∧
      (∀ tick ∈ ticks, tick.1 ∈ jobs) ∧ (forM ticks perform).run system = .ok () system' := by
  induction events generalizing system with
  | nil => exact ⟨[], .nil, by simp, hrun⟩
  | cons event rest ih =>
    rw [List.forM_cons] at hrun
    obtain ⟨_, system1, hevent, hrest⟩ := MeasConfig.bind_ok hrun
    obtain ⟨ticks, hperforms, hmem, hticks⟩ := ih hrest
    rcases replay_cases htasks himplements event hevent with
      ⟨hnone, rfl⟩ | ⟨tick, work, hsome, hjob, hperform, htick⟩
    · refine ⟨ticks, ?_, hmem, hticks⟩
      rw [timeline, List.filterMap_cons_none hnone]
      exact hperforms
    · refine ⟨tick :: ticks, ?_, List.forall_mem_cons.mpr ⟨hjob, hmem⟩, ?_⟩
      · rw [timeline, List.filterMap_cons_some hsome]
        exact .cons hperform hperforms
      · rw [List.forM_cons, EStateM.run_bind, htick]
        exact hticks

end Replay

/-- Every state that the scheduler reaches is what the executed works make of the first one,
    in the order of their execution. -/
theorem run_ticks {fileabs : Bool} {env : Environment D R} {o : Options}
    {configmap : MeasConfig.ConfigurationMap D} {boot : Boot R D}
    (hsetUp : (setUp fileabs env o configmap).run { reporter := { outFolder := o.outFolder } } =
      .ok () boot) {sources : Sources R} {start : ℤ}
    {l : Loop (Fin boot.scheduler.length) (System (Sources R) D)}
    (hreach : Reachable (handlers boot.scheduler)
      (posted boot.scheduler { sources := sources, reporter := boot.reporter } start) l) :
    ∃ jobs : List (Job (Sources R) D), boot.scheduler = jobs.map Job.scheduled ∧
      List.Forall₂ (Implements env) jobs (plan fileabs o configmap) ∧
      ∃ ticks, List.Forall₂ (Performs env) ticks (timeline (plan fileabs o configmap) l.history) ∧
        (∀ tick ∈ ticks, tick.1 ∈ jobs) ∧
        (forM ticks perform).run { sources := sources, reporter := boot.reporter } =
          .ok () l.system := by
  obtain ⟨jobs, hscheduler, himplements⟩ := setUp_implements hsetUp
  obtain ⟨events, hhistory, hrun⟩ := Reachable.serial hreach
  rw [show l.history = events from hhistory]
  exact ⟨jobs, hscheduler, himplements, replay_ticks hscheduler himplements events hrun⟩

end ModbusCrawler.CrawlerRuns
