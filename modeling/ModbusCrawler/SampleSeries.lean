import ModbusCrawler.ServerReports

set_option autoImplicit false

/-!
# The samples of a measure as a series

Over all reports the raw samples of a measure are in the order of their time stamps,
and at least a sampling period lies between any two.
-/
namespace ModbusCrawler.SampleSeries
open ModbusTypes ModbusSlave MeasReporter MeasExecutor PeriodicScheduler CrawlerMain EventLoop
open ReporterHistory TaskAccounting ReportPeriods CrawlerRuns WholeRuns TimerWaiting
open ServerReports

variable {D R : Type} [Doubles D]

/-- The time stamps of the executions that belong to a key. -/
def stampsOf (key : Key) (works : List (Work D × ℤ)) : List ℤ :=
  works.filterMap (fun work => if Work.key work.1 = some key then some work.2 else none)

/-- The samples that the reports list and those that wait for the next one, among all regular
    samples of a key, whose stamps are those of executions. -/
structure Series (key : Key) (works : List (Work D × ℤ)) (system : System (Sources R) D)
    (calls : List (Call D)) : Prop where
  listed : (system.reports.flatMap (fun file => listedSamples key file.2) ++
    regularSamples key (sinceClose calls)).Sublist (regularSamples key calls)
  stamped : ((regularSamples key calls).map Prod.fst).Sublist (stampsOf key works)

section Run
variable {env : Environment D R} {keys : List Key} {outFolder : String} {key : Key}
  {works : List (Work D × ℤ)} {system system' : System (Sources R) D} {calls : List (Call D)}

/-- A report lists what was pending, or nothing. -/
theorem listedSamples_sublist (h : Delivered keys outFolder works system calls) (key : Key) (now : ℤ) :
    (listedSamples key (closePeriod system.reporter now).1.2).Sublist
      (regularSamples key (sinceClose calls)) := by
  unfold listedSamples
  have found := h.accounts.results key
  cases hdescriptor : configuredWith key calls with
  | none =>
    rw [hdescriptor] at found
    rw [find_no_entry found]
    exact List.nil_sublist _
  | some descriptor =>
    rw [hdescriptor] at found
    rw [find_entry found]
    change ((if descriptor.reportRawSamples then some (regularSamples key (sinceClose calls))
      else none).getD []).Sublist _
    split_ifs
    · exact List.Sublist.refl _
    · exact List.nil_sublist _

theorem Series.step (h : Series key works system calls)
    (delivered : Delivered keys outFolder works system calls) {tick : Tick (Sources R) D}
    {work : Work D × ℤ} (hperforms : Performs env tick work)
    (hrun : (perform tick).run system = .ok () system') :
    Series key (works ++ [work]) system' (calls ++ calling tick system) := by
  obtain ⟨job, now⟩ := tick
  obtain ⟨work, stamp⟩ := work
  obtain ⟨himplements, rfl⟩ := hperforms
  have sameKey := implements_key himplements
  obtain ⟨listed, stamped⟩ := h
  have more (work : Work D × ℤ) :
      stampsOf key (works ++ [work]) = stampsOf key works ++ stampsOf key [work] :=
    List.filterMap_append
  cases himplements with
  | report interval =>
    cases hrun
    constructor
    · simp only [calling]
      rw [sinceClose_append, regularSamples_append, List.flatMap_append, List.flatMap_singleton]
      have closed := listedSamples_sublist delivered key now
      refine List.Sublist.trans ?_ ((closed.append_left _).trans listed |>.append_right _)
      exact List.Sublist.refl _
    · simp only [calling]
      rw [regularSamples_append, more]
      simpa [regularSamples, Call.outcomeOf] using stamped.trans (List.sublist_append_left _ _)
  | rotate interval =>
    cases hrun
    simp only [calling, List.append_nil]
    exact ⟨listed, by rw [more]; exact stamped.trans (List.sublist_append_left _ _)⟩
  | @measure slaves server measures slave hslave meas =>
    simp only [calling]
    constructor
    · rw [measTask_reports hrun, sinceClose_append, regularSamples_append]
      simp only [Call.isClose, Bool.false_eq_true, if_false]
      rw [regularSamples_append, ← List.append_assoc]
      exact listed.append_right _
    · rw [regularSamples_append, more, List.map_append]
      refine stamped.append ?_
      have same : Work.key (.measure server meas) = some (taskKey slave meas) := sameKey.symm
      unfold regularSamples stampsOf
      simp only [List.filterMap_cons, List.filterMap_nil, Call.outcomeOf, same, Option.some_inj]
      by_cases hown : taskKey slave meas = key
      · simp only [if_pos hown]
        cases (MeasExecutor.measure slave meas.source system.sources).1.1 <;> simp
      · simp [hown]

theorem Series.run {ticks : List (Tick (Sources R) D)} {more : List (Work D × ℤ)}
    (hperforms : List.Forall₂ (Performs env) ticks more)
    (hmem : ∀ tick ∈ ticks, ∀ key, tick.1.key = some key → key ∈ keys)
    (h : Series key works system calls) (delivered : Delivered keys outFolder works system calls)
    (hrun : (forM ticks perform).run system = .ok () system') :
    ∃ calls', Series key (works ++ more) system' calls' ∧
      Delivered keys outFolder (works ++ more) system' calls' := by
  induction hperforms generalizing works system calls with
  | nil =>
    cases hrun
    rw [List.append_nil]
    exact ⟨calls, h, delivered⟩
  | @cons tick work ticks more head tail ih =>
    rw [List.forM_cons] at hrun
    obtain ⟨_, system1, hfirst, hrest⟩ := MeasConfig.bind_ok hrun
    have own := hmem tick (List.mem_cons_self ..)
    rw [List.append_cons]
    exact ih (fun t ht => hmem t (List.mem_cons_of_mem _ ht)) (h.step delivered head hfirst)
      (delivered.step head own hfirst) hrest

end Run

section Turns
variable {fileabs : Bool} {env : Environment D R} {o : Options}
  {configmap : MeasConfig.ConfigurationMap D} {boot : Boot R D}

omit [Doubles D] in
/-- The place of a measure among the works of a run is its own. -/
theorem plan_key_iff (distinct : (measureKeys (descriptors configmap)).Nodup) {i : ℕ} {key : Key}
    {server : MeasConfig.ModbusServer} {meas : MeasConfig.Measure D}
    (hi : (plan fileabs o configmap)[i]? = some (.measure server meas))
    (hkey : Work.key (.measure server meas) = some key) {j : ℕ} {work : Work D}
    (hj : (plan fileabs o configmap)[j]? = some work) : Work.key work = some key ↔ j = i := by
  rw [← plan_keys fileabs o configmap, List.nodup_iff_pairwise_ne, List.pairwise_filterMap] at distinct
  constructor
  · intro hown
    obtain ⟨hilt, hi'⟩ := List.getElem?_eq_some_iff.mp hi
    obtain ⟨hjlt, hj'⟩ := List.getElem?_eq_some_iff.mp hj
    rw [List.pairwise_iff_getElem] at distinct
    rcases Nat.lt_trichotomy j i with hlt | heq | hlt
    · exact absurd rfl (distinct j i hjlt hilt hlt key (by rw [hj', hown]) key (by rw [hi', hkey]))
    · exact heq
    · exact absurd rfl (distinct i j hilt hjlt hlt key (by rw [hi', hkey]) key (by rw [hj', hown]))
  · rintro rfl
    rw [hi] at hj
    cases hj
    exact hkey

omit [Doubles D] in
/-- Among the events, those of the task of a measure are the ones that belong to its key. -/
theorem executed_own (distinct : (measureKeys (descriptors configmap)).Nodup) {n : ℕ}
    {i : Fin n} {key : Key} {server : MeasConfig.ModbusServer} {meas : MeasConfig.Measure D}
    (hi : (plan fileabs o configmap)[i.val]? = some (.measure server meas))
    (hkey : Work.key (.measure server meas) = some key) (j : Fin n) (stamp : ℤ) :
    ((plan fileabs o configmap)[j.val]?.map (fun work => (work, stamp))).bind
      (fun work => if Work.key work.1 = some key then some work.2 else none) =
        if j = i then some stamp else none := by
  cases hj : (plan fileabs o configmap)[j.val]? with
  | none =>
    have other : j ≠ i := by
      rintro rfl
      rw [hi] at hj
      cases hj
    rw [if_neg other]
    rfl
  | some work =>
    have own := plan_key_iff distinct hi hkey hj
    rw [Fin.val_inj] at own
    by_cases hji : j = i
    · simp [own.mpr hji, hji]
    · simp [mt own.mp hji, hji]

omit [Doubles D] in
/-- A start handler executes what the task is for if it is a measure. -/
theorem executed_started {n : ℕ} (works : List (Work D)) (j : Fin n) (began finished : ℤ)
    (key : Key) :
    (executed works (.started j began finished)).bind
      (fun work => if Work.key work.1 = some key then some work.2 else none) =
        (works[j.val]?.map (fun work => (work, toSeconds began))).bind
          (fun work => if Work.key work.1 = some key then some work.2 else none) := by
  unfold executed
  dsimp only
  cases works[j.val]? with
  | none => rfl
  | some work => cases work <;> rfl

omit [Doubles D] in
/-- A key is executed at the instants of its task. -/
theorem stampsOf_timeline (distinct : (measureKeys (descriptors configmap)).Nodup) {n : ℕ}
    {i : Fin n} {key : Key} {server : MeasConfig.ModbusServer} {meas : MeasConfig.Measure D}
    (hi : (plan fileabs o configmap)[i.val]? = some (.measure server meas))
    (hkey : Work.key (.measure server meas) = some key) (history : List (Event (Fin n))) :
    stampsOf key (timeline (plan fileabs o configmap) history) =
      (TimerWaiting.instants history i).map toSeconds := by
  unfold stampsOf timeline TimerWaiting.instants
  rw [List.filterMap_filterMap, List.map_filterMap]
  congr 1
  funext event
  cases event with
  | started j began finished =>
    rw [executed_started, executed_own distinct hi hkey]
    by_cases hji : j = i <;> simp [hji]
  | expired j expiry =>
    refine (executed_own distinct hi hkey j (toSeconds expiry)).trans ?_
    by_cases hji : j = i <;> simp [hji]

theorem toSeconds_apart {a b interval : ℤ} (ha : 0 ≤ a) (hinterval : 0 ≤ interval)
    (hab : a + interval * ticksPerSecond ≤ b) : toSeconds a + interval ≤ toSeconds b := by
  unfold ticksPerSecond at hab
  rw [toSeconds, toSeconds, Int.tdiv_eq_ediv_of_nonneg ha, Int.tdiv_eq_ediv_of_nonneg (by omega)]
  unfold ticksPerSecond
  omega

/-- The instants of a measure are a sampling period apart. -/
theorem measure_paced
    (hsetUp : (setUp fileabs env o configmap).run { reporter := { outFolder := o.outFolder } } =
      .ok () boot) {sources : Sources R} {start : ℤ} (hstart : 0 ≤ start)
    {l : Loop (Fin boot.scheduler.length) (System (Sources R) D)}
    (hreach : Reachable (handlers boot.scheduler)
      (posted boot.scheduler { sources := sources, reporter := boot.reporter } start) l)
    {i : Fin boot.scheduler.length} {server : MeasConfig.ModbusServer}
    {meas : MeasConfig.Measure D} (hperiod : 0 ≤ meas.samplingPeriod)
    (hclock : l.clock + meas.samplingPeriod * ticksPerSecond < 2^63)
    (hi : (plan fileabs o configmap)[i.val]? = some (.measure server meas)) :
    Paced (meas.samplingPeriod * ticksPerSecond) i l := by
  obtain ⟨jobs, hscheduler, himplements⟩ := setUp_implements hsetUp
  obtain ⟨job, work, hwork, _, htask, hjob⟩ := job_at hscheduler himplements i
  rw [hi] at hwork
  cases hwork
  have task : (boot.scheduler.get i).interval = meas.samplingPeriod ∧
      (boot.scheduler.get i).mode = .executeAtStart := by
    rw [htask]
    cases hjob
    exact ⟨rfl, rfl⟩
  obtain ⟨interval, mode⟩ := task
  have period : periods boot.scheduler i = meas.samplingPeriod * ticksPerSecond := by
    rw [periods, interval]
  have nonneg : 0 ≤ periods boot.scheduler i := by
    rw [period]
    exact Int.mul_nonneg hperiod (by decide)
  rw [← period]
  have late : Late ticks l.clock (periods boot.scheduler i) := late_ticks (by rw [period]; exact hclock)
  have unaligned : (boot.scheduler.get i).mode ≠ .executeAtMultiplesOfPeriod := by
    rw [mode]
    decide
  refine Paced.reachable (handlers_rearm _) nonneg late ?_ (Int.le_refl _) ?_ hreach
  · intro began finished expiry system system' hle hlatest hrun
    rw [start_expiry hrun, ScheduledTask.firstExpiry, if_neg unaligned]
    exact Int.le_trans (Int.add_le_add_right hle _) (late finished hlatest)
  · exact ⟨List.nodup_finRange _, hstart, fun _ => rfl, fun h => absurd (List.mem_finRange i) h⟩

/-- In every run within the 64 bits of the clock, the raw samples that the reports list for a
    measure, with those still pending, are in the order of their time stamps and a sampling period
    or more apart. -/
theorem samples_spaced
    (hsetUp : (setUp fileabs env o configmap).run { reporter := { outFolder := o.outFolder } } =
      .ok () boot) {sources : Sources R} {start : ℤ} (hstart : 0 ≤ start)
    {l : Loop (Fin boot.scheduler.length) (System (Sources R) D)}
    (hreach : Reachable (handlers boot.scheduler)
      (posted boot.scheduler { sources := sources, reporter := boot.reporter } start) l)
    {desc : MeasConfig.Descriptor D} (hdesc : desc ∈ descriptors configmap)
    {meas : MeasConfig.Measure D} (hmeas : meas ∈ desc.measures)
    (hperiod : 0 ≤ meas.samplingPeriod)
    (hclock : l.clock + meas.samplingPeriod * ticksPerSecond < 2^63) :
    let key : Key := (⟨desc.server.name, desc.server.modbusId⟩, meas.name)
    ∃ result, l.system.reporter.find key = some result ∧
      (l.system.reports.flatMap (fun file => listedSamples key file.2) ++
        result.data.samples).Pairwise
          (fun earlier later => earlier.1 + meas.samplingPeriod ≤ later.1) := by
  intro key
  obtain ⟨jobs, hscheduler, himplements, ticks, hperforms, hjobs, hrun⟩ := run_ticks hsetUp hreach
  obtain ⟨calls0, initial⟩ := setUp_delivered hsetUp sources
  obtain ⟨_, _, _, distinct, _⟩ := setUp_jobs hsetUp
  have hkey : key ∈ measureKeys (descriptors configmap) :=
    List.mem_flatMap.mpr ⟨desc, hdesc, List.mem_map_of_mem hmeas⟩
  have keys : ∀ tick ∈ ticks, ∀ key, tick.1.key = some key →
      key ∈ measureKeys (descriptors configmap) :=
    fun tick htick key hkey => implements_keys himplements (hjobs tick htick) hkey
  have quiet : ∀ call ∈ calls0, call.outcomeOf key = none :=
    List.filterMap_eq_nil_iff.mp (outcomesOf_initial initial key)
  have first : Series key [] { sources := sources, reporter := boot.reporter } calls0 := by
    constructor
    · rw [regularSamples_silent quiet,
        regularSamples_silent fun call hcall => quiet call (sinceClose_subset calls0 hcall)]
      exact List.Sublist.refl _
    · rw [regularSamples_silent quiet]
      exact List.Sublist.refl _
  obtain ⟨calls, series, delivered⟩ := first.run hperforms keys initial hrun
  rw [List.nil_append] at series delivered
  obtain ⟨result, hresult⟩ := delivered.find hkey
  refine ⟨result, hresult, ?_⟩
  rw [delivered.accounts.results key] at hresult
  obtain ⟨descriptor, _, rfl⟩ := Option.map_eq_some_iff.mp hresult
  -- the task of the measure, and its instants
  have planned : Work.measure desc.server meas ∈ plan fileabs o configmap :=
    List.mem_append_right _ (List.mem_flatMap.mpr ⟨desc, hdesc, List.mem_map_of_mem hmeas⟩)
  obtain ⟨i, hi⟩ := List.mem_iff_getElem?.mp planned
  obtain ⟨hilt, _⟩ := List.getElem?_eq_some_iff.mp hi
  have hlt : i < boot.scheduler.length := by
    rw [hscheduler, List.length_map, himplements.length_eq]
    exact hilt
  obtain ⟨apart, nonneg⟩ :=
    (measure_paced (i := ⟨i, hlt⟩) hsetUp hstart hreach hperiod hclock hi).apart
  have stamps : (stampsOf key (timeline (plan fileabs o configmap) l.history)).Pairwise
      (fun earlier later => earlier + meas.samplingPeriod ≤ later) := by
    rw [stampsOf_timeline (i := ⟨i, hlt⟩) distinct hi rfl, List.pairwise_map]
    refine apart.imp_of_mem fun hearlier _ hle => ?_
    exact toSeconds_apart (nonneg _ hearlier) hperiod hle
  have all := stamps.sublist series.stamped
  rw [List.pairwise_map] at all
  exact all.sublist series.listed

end Turns

theorem samples_spaced_slow : ∃ (boot : Boot Unit Float)
    (l : Loop (Fin boot.scheduler.length) (System (Sources Unit) Float)) (path : String)
    (report : PeriodReport Float) (result : Result Float), l.system.reports = [(path, report)] ∧
      (listedSamples (slowKey "outflow") report ++ result.data.samples).Pairwise
        (fun earlier later => earlier.1 + 5 ≤ later.1) := by
  obtain ⟨reporter, result, hsetUp, hinflow, houtflow, hraw⟩ := slow_setUp
  obtain ⟨l, path, report, hreach, hreports, hclock, _⟩ :=
    slow_run hinflow houtflow hraw { connection := fun _ => [], engine := () }
  have scheduled : (Job.measure slowSlave (slowMeasure "outflow")).scheduled ∈ slowTasks :=
    List.mem_cons_of_mem _ (List.mem_cons_of_mem _ (List.mem_singleton_self _))
  have described : slowServer ∈ descriptors slowConfig := List.mem_singleton_self _
  have measured : slowMeasure "outflow" ∈ slowServer.measures :=
    List.mem_cons_of_mem _ (List.mem_singleton_self _)
  obtain ⟨result', _, apart⟩ :=
    samples_spaced hsetUp (show 0 ≤ fromTimeT 1709210099 by decide) hreach described measured
      (show (0 : ℤ) ≤ 5 by decide) (hclock _ scheduled)
  rw [hreports, List.flatMap_singleton] at apart
  exact ⟨{ reporter := reporter, scheduler := slowTasks }, l, path, report, result', hreports, apart⟩

end ModbusCrawler.SampleSeries
