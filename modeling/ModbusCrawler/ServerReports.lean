import ModbusCrawler.ServerTraffic
import ModbusCrawler.WholeRuns

set_option autoImplicit false

/-!
# What the reports tell of a server

The counts and the samples of all reports that `close_period` makes are the replies
that came in on the connection of the server, each judged by the source of its
measure.
-/
namespace ModbusCrawler.ServerReports
open FailStop ModbusTypes ModbusSlave MeasReporter MeasExecutor CrawlerMain EventLoop
open ReporterHistory TaskAccounting ReportPeriods CrawlerRuns WholeRuns ServerTraffic

variable {D R : Type} [Doubles D]

omit [Doubles D] in
def asks (id : ℤ) (work : Work D × ℤ) : Bool := !(requests id work.1).isEmpty

/-- What a key gets out of a reply to an executed work. -/
def reading (key : Key) (work : Work D × ℤ) (reply : Reply) : Option (SampleType × ℤ × D) :=
  match work.1 with
  | .measure server meas =>
    if Work.key (.measure server meas) = some key then
      some ((judge meas.source reply).1, work.2, (judge meas.source reply).2)
    else none
  | _ => none

/-- What a key gets out of a connection: the works that ask on it, each with its reply. -/
def readings (id : ℤ) (key : Key) (works : List (Work D × ℤ)) (heard : Log Request Reply) :
    List (SampleType × ℤ × D) :=
  ((works.filter (asks id)).zip heard).filterMap (fun exchanged =>
    reading key exchanged.1 exchanged.2.2)

def regular (reading : SampleType × ℤ × D) : Option (ℤ × D) :=
  match reading.1 with
  | .regular => some reading.2
  | _ => none

omit [Doubles D] in
def outcomesOf (key : Key) (calls : List (Call D)) : List (SampleType × ℤ × D) :=
  calls.filterMap (Call.outcomeOf key)

/-- The samples that a report lists for a key. -/
def listedSamples (key : Key) (report : PeriodReport D) : Samples D :=
  ((report.entries.find? (fun entry => entry.1 = key)).bind (fun entry =>
    entry.2.data.samples)).getD []

omit [Doubles D] in
theorem outcomes_outcomesOf (key : Key) (kind : SampleType) (calls : List (Call D)) :
    outcomes key kind calls = (outcomesOf key calls).countP (fun outcome => outcome.1 = kind) := by
  induction calls with
  | nil => rfl
  | cons call calls ih =>
    unfold outcomes outcomesOf at ih ⊢
    rw [List.countP_cons, List.filterMap_cons, ih]
    cases call.outcomeOf key <;> simp [List.countP_cons]

omit [Doubles D] in
theorem measured_outcomesOf (key : Key) (calls : List (Call D)) :
    measured key calls = (outcomesOf key calls).length := by
  unfold measured
  simp only [outcomes_outcomesOf]
  induction outcomesOf key calls with
  | nil => rfl
  | cons outcome rest ih =>
    obtain ⟨kind, sample⟩ := outcome
    simp only [List.countP_cons, List.length_cons]
    cases kind <;> simp <;> omega

omit [Doubles D] in
theorem regularSamples_outcomesOf (key : Key) (calls : List (Call D)) :
    regularSamples key calls = (outcomesOf key calls).filterMap regular := by
  induction calls with
  | nil => rfl
  | cons call calls ih =>
    unfold regularSamples outcomesOf at ih ⊢
    rw [List.filterMap_cons, List.filterMap_cons, ih]
    rcases call.outcomeOf key with _ | ⟨_ | _ | _ | _, sample⟩ <;>
      simp [regular, List.filterMap_cons]

theorem readings_append (id : ℤ) (key : Key) {works more : List (Work D × ℤ)}
    {heard new : Log Request Reply} (h : (works.filter (asks id)).length = heard.length) :
    readings id key (works ++ more) (heard ++ new) =
      readings id key works heard ++ readings id key more new := by
  rw [readings, List.filter_append, List.zip_append h, List.filterMap_append]
  rfl

/-- A report with raw samples lists what was pending. -/
theorem listedSamples_close {r : Reporter D} {now : ℤ} {key : Key} {result : Result D}
    (h : r.find key = some result) (hraw : result.descriptor.reportRawSamples = true) :
    listedSamples key (closePeriod r now).1.2 = result.data.samples := by
  rw [listedSamples, find_entry h]
  change (if result.descriptor.reportRawSamples then some result.data.samples else none).getD [] = _
  rw [hraw]
  rfl

/-- What a tick adds to a connection, and what of it the reporter is told. -/
theorem tick_heard {env : Environment D R} {tick : Tick (Sources R) D} {work : Work D × ℤ}
    (hperforms : Performs env tick work) {system system' : System (Sources R) D}
    (hrun : (perform tick).run system = .ok () system') {id : ℤ} {key : Key}
    (hasks : Work.key work.1 = some key → asks id work = true) :
    ∃ new, system'.sources.connection id = system.sources.connection id ++ new ∧
      ([work].filter (asks id)).length = new.length ∧
      outcomesOf key (calling tick system) = readings id key [work] new := by
  obtain ⟨job, now⟩ := tick
  obtain ⟨work, stamp⟩ := work
  obtain ⟨himplements, rfl⟩ := hperforms
  have sameKey := implements_key himplements
  cases himplements with
  | report interval =>
    cases hrun
    exact ⟨[], (List.append_nil _).symm, rfl, rfl⟩
  | rotate interval =>
    cases hrun
    exact ⟨[], (List.append_nil _).symm, rfl, rfl⟩
  | @measure slaves server measures slave hslave meas =>
    obtain ⟨new, hconnection, hsent, hjudge⟩ := measure_heard hslave meas system.sources id
    refine ⟨new, by rw [measTask_sources hrun, hconnection], ?_⟩
    have told : outcomesOf key (calling (.measure slave meas, now) system) =
        if Work.key (.measure server meas) = some key then
          [((MeasExecutor.measure slave meas.source system.sources).1.1, now,
            (MeasExecutor.measure slave meas.source system.sources).1.2)]
        else [] := by
      rw [← sameKey]
      change List.filterMap (Call.outcomeOf key) [.add (taskKey slave meas) now _ _] =
        if some (taskKey slave meas) = some key then _ else _
      by_cases hown : taskKey slave meas = key <;> simp [Call.outcomeOf, hown]
    rw [told]
    cases new with
    | nil =>
      have silent : asks id ((.measure server meas, now) : Work D × ℤ) = false := by
        rw [asks, ← hsent]
        rfl
      have foreign : ¬ Work.key (.measure server meas) = some key := by
        intro hkey
        rw [hasks hkey] at silent
        cases silent
      rw [if_neg foreign, List.filter_cons_of_neg (by rw [silent]; simp), readings,
        List.zip_nil_right]
      exact ⟨rfl, rfl⟩
    | cons exchange rest =>
      have one : rest = [] := by
        have lengths := congrArg List.length hsent
        rw [requests] at lengths
        split_ifs at lengths with hask
        · simpa [sent] using lengths
        · simp [sent] at lengths
      subst one
      have loud : asks id ((.measure server meas, now) : Work D × ℤ) = true := by
        rw [asks, ← hsent]
        rfl
      rw [hjudge exchange (List.mem_singleton_self _)]
      simp only [readings, List.filter_cons_of_pos loud, List.filter_nil]
      refine ⟨rfl, ?_⟩
      simp only [List.zip_cons_cons, List.zip_nil_left, reading]
      split_ifs <;> simp [*]

/-- The calls to the reporter and its reports after the works of a run, against a connection. -/
structure Heard (id : ℤ) (key : Key) (old : Log Request Reply) (works : List (Work D × ℤ))
    (system : System (Sources R) D) (calls : List (Call D)) (heard : Log Request Reply) : Prop where
  connection : system.sources.connection id = old ++ heard
  paired : (works.filter (asks id)).length = heard.length
  outcomes : outcomesOf key calls = readings id key works heard
  samples : ∀ descriptor, configuredWith key calls = some descriptor →
    descriptor.reportRawSamples = true →
    system.reports.flatMap (fun file => listedSamples key file.2) ++
      regularSamples key (sinceClose calls) = regularSamples key calls

section Run
variable {env : Environment D R} {keys : List Key} {outFolder : String} {id : ℤ} {key : Key}
  {old : Log Request Reply} {works : List (Work D × ℤ)} {system system' : System (Sources R) D}
  {calls : List (Call D)} {heard : Log Request Reply}

/-- A tick neither configures a key nor drops a sample. -/
theorem tick_samples (delivered : Delivered keys outFolder works system calls)
    {tick : Tick (Sources R) D} {work : Work D × ℤ} (hperforms : Performs env tick work)
    (hrun : (perform tick).run system = .ok () system') {descriptor : Descriptor}
    (hdescriptor : configuredWith key (calls ++ calling tick system) = some descriptor)
    (hraw : descriptor.reportRawSamples = true)
    (hsamples : ∀ descriptor, configuredWith key calls = some descriptor →
      descriptor.reportRawSamples = true →
      system.reports.flatMap (fun file => listedSamples key file.2) ++
        regularSamples key (sinceClose calls) = regularSamples key calls) :
    system'.reports.flatMap (fun file => listedSamples key file.2) ++
      regularSamples key (sinceClose (calls ++ calling tick system)) =
        regularSamples key (calls ++ calling tick system) := by
  obtain ⟨job, now⟩ := tick
  cases job with
  | rotate interval =>
    cases hrun
    simp only [calling, List.append_nil] at hdescriptor ⊢
    exact hsamples descriptor hdescriptor hraw
  | report interval =>
    cases hrun
    simp only [calling] at hdescriptor ⊢
    rw [configuredWith_other calls rfl] at hdescriptor
    have before := hsamples descriptor hdescriptor hraw
    have found := delivered.accounts.results key
    rw [hdescriptor] at found
    have closed : listedSamples key (closePeriod system.reporter now).1.2 =
        regularSamples key (sinceClose calls) := listedSamples_close found hraw
    rw [sinceClose_append, regularSamples_append, ← before, List.flatMap_append]
    simp only [List.flatMap_singleton, closed]
    rfl
  | measure slave meas =>
    simp only [calling] at hdescriptor ⊢
    rw [configuredWith_other calls rfl] at hdescriptor
    have before := hsamples descriptor hdescriptor hraw
    rw [measTask_reports hrun, sinceClose_append]
    simp only [Call.isClose, Bool.false_eq_true, if_false]
    rw [regularSamples_append, regularSamples_append, ← List.append_assoc, before]

theorem Heard.step (h : Heard id key old works system calls heard)
    (delivered : Delivered keys outFolder works system calls)
    {tick : Tick (Sources R) D} {work : Work D × ℤ} (hperforms : Performs env tick work)
    (hasks : Work.key work.1 = some key → asks id work = true)
    (hrun : (perform tick).run system = .ok () system') :
    ∃ heard', Heard id key old (works ++ [work]) system' (calls ++ calling tick system) heard' := by
  obtain ⟨new, hconnection, hpaired, houtcomes⟩ := tick_heard hperforms hrun hasks
  refine ⟨heard ++ new, ?_, ?_, ?_, fun descriptor hdescriptor hraw =>
    tick_samples delivered hperforms hrun hdescriptor hraw h.samples⟩
  · rw [hconnection, h.connection, List.append_assoc]
  · rw [List.filter_append, List.length_append, List.length_append, h.paired, hpaired]
  · rw [outcomesOf, List.filterMap_append, readings_append id key h.paired, ← h.outcomes, ← houtcomes]
    rfl

theorem Heard.run {ticks : List (Tick (Sources R) D)} {more : List (Work D × ℤ)}
    (hperforms : List.Forall₂ (Performs env) ticks more)
    (hmem : ∀ tick ∈ ticks, ∀ key, tick.1.key = some key → key ∈ keys)
    (hasks : ∀ work ∈ more, Work.key work.1 = some key → asks id work = true)
    (h : Heard id key old works system calls heard)
    (delivered : Delivered keys outFolder works system calls)
    (hrun : (forM ticks perform).run system = .ok () system') :
    ∃ calls' heard', Heard id key old (works ++ more) system' calls' heard' ∧
      Delivered keys outFolder (works ++ more) system' calls' := by
  induction hperforms generalizing works system calls heard with
  | nil =>
    cases hrun
    rw [List.append_nil]
    exact ⟨calls, heard, h, delivered⟩
  | @cons tick work ticks more head tail ih =>
    rw [List.forM_cons] at hrun
    obtain ⟨_, system1, hfirst, hrest⟩ := MeasConfig.bind_ok hrun
    have own := hmem tick (List.mem_cons_self ..)
    obtain ⟨heard1, hheard⟩ :=
      h.step delivered head (hasks work (List.mem_cons_self ..)) hfirst
    rw [List.append_cons]
    exact ih (fun t ht => hmem t (List.mem_cons_of_mem _ ht))
      (fun w hw => hasks w (List.mem_cons_of_mem _ hw)) hheard (delivered.step head own hfirst) hrest

end Run

omit [Doubles D] in
/-- The only work of a run with the key of a measure is that measure. -/
theorem work_of_key {fileabs : Bool} {o : Options} {configmap : MeasConfig.ConfigurationMap D}
    (distinct : (measureKeys (descriptors configmap)).Nodup) {desc : MeasConfig.Descriptor D}
    (hdesc : desc ∈ descriptors configmap) {meas : MeasConfig.Measure D}
    (hmeas : meas ∈ desc.measures) {work : Work D} (hwork : work ∈ plan fileabs o configmap)
    (hkey : Work.key work = some (⟨desc.server.name, desc.server.modbusId⟩, meas.name)) :
    work = .measure desc.server meas := by
  have planned : Work.measure desc.server meas ∈ plan fileabs o configmap := by
    refine List.mem_append_right _ (List.mem_flatMap.mpr ⟨desc, hdesc, ?_⟩)
    exact List.mem_map_of_mem hmeas
  rw [← plan_keys fileabs o configmap, List.nodup_iff_pairwise_ne, List.pairwise_filterMap] at distinct
  by_contra hne
  have apart : (plan fileabs o configmap).Pairwise (fun a b => ¬ (Work.key a = Work.key work ∧
      Work.key b = Work.key work)) :=
    distinct.imp (fun {a b} hab h => hab _ (h.1.trans hkey) _ (h.2.trans hkey) rfl)
  have symmetric : Std.Symm (fun a b : Work D =>
      ¬ (Work.key a = Work.key work ∧ Work.key b = Work.key work)) :=
    ⟨fun a b hab h => hab ⟨h.2, h.1⟩⟩
  exact apart.forall hwork planned hne ⟨rfl, hkey.symm⟩

omit [Doubles D] in
theorem timeline_subset {n : ℕ} {works : List (Work D)} {history : List (Event (Fin n))}
    {work : Work D × ℤ} (h : work ∈ timeline works history) : work.1 ∈ works := by
  obtain ⟨event, _, hevent⟩ := List.mem_filterMap.mp h
  unfold executed at hevent
  split at hevent
  · split at hevent
    · rename_i hwork
      cases hevent
      exact List.mem_of_getElem? hwork
    · cases hevent
  · obtain ⟨other, hother, rfl⟩ := Option.map_eq_some_iff.mp hevent
    exact List.mem_of_getElem? hother

/-- Before the first execution nothing has been told of any key. -/
theorem outcomesOf_initial {keys : List Key} {outFolder : String}
    {system : System (Sources R) D} {calls : List (Call D)}
    (initial : Delivered keys outFolder [] system calls) (key : Key) : outcomesOf key calls = [] := by
  refine List.eq_nil_of_length_eq_zero ?_
  rw [← measured_outcomesOf, initial.executed key]
  rfl

/-- In every run, the counts that all reports have for a measure on a serial line, with what
    is still pending, are the judged replies on the connection of its server, and so are the raw
    samples. -/
theorem reports_tell_connection {fileabs : Bool} {env : Environment D R} {o : Options}
    {configmap : MeasConfig.ConfigurationMap D} {boot : Boot R D}
    (hsetUp : (setUp fileabs env o configmap).run { reporter := { outFolder := o.outFolder } } =
      .ok () boot) {sources : Sources R} {start : ℤ}
    {l : Loop (Fin boot.scheduler.length) (System (Sources R) D)}
    (hreach : Reachable (handlers boot.scheduler)
      (posted boot.scheduler { sources := sources, reporter := boot.reporter } start) l)
    {desc : MeasConfig.Descriptor D} (hdesc : desc ∈ descriptors configmap)
    {meas : MeasConfig.Measure D} (hmeas : meas ∈ desc.measures)
    (hserial : desc.server.serialDevice ≠ "") (hvalid : meas.source.valueType ≠ .invalid) :
    let key : Key := (⟨desc.server.name, desc.server.modbusId⟩, meas.name)
    let id := desc.server.modbusId
    ∃ heard result, l.system.sources.connection id = sources.connection id ++ heard ∧
      l.system.reporter.find key = some result ∧
      let told := readings id key (timeline (plan fileabs o configmap) l.history) heard
      (∀ kind, (l.system.reports.map (fun file => periodCount key kind file.2)).sum +
        recordCount result.data kind = told.countP (fun reading => reading.1 = kind)) ∧
      (result.descriptor.reportRawSamples = true →
        l.system.reports.flatMap (fun file => listedSamples key file.2) ++ result.data.samples =
          told.filterMap regular) := by
  intro key id
  obtain ⟨jobs, _, himplements, ticks, hperforms, hjobs, hrun⟩ := run_ticks hsetUp hreach
  obtain ⟨calls0, initial⟩ := setUp_delivered hsetUp sources
  obtain ⟨_, _, _, distinct, _⟩ := setUp_jobs hsetUp
  have hkey : key ∈ measureKeys (descriptors configmap) :=
    List.mem_flatMap.mpr ⟨desc, hdesc, List.mem_map_of_mem hmeas⟩
  have keys : ∀ tick ∈ ticks, ∀ key, tick.1.key = some key →
      key ∈ measureKeys (descriptors configmap) :=
    fun tick htick key hkey => implements_keys himplements (hjobs tick htick) hkey
  have hasks : ∀ work ∈ timeline (plan fileabs o configmap) l.history,
      Work.key work.1 = some key → asks id work = true := by
    intro work hwork hwkey
    rw [asks, work_of_key distinct hdesc hmeas (timeline_subset hwork) hwkey, requests,
      if_pos ⟨hserial, rfl, Classification.regSize_accepted hvalid⟩]
    rfl
  have silent : outcomesOf key calls0 = [] := outcomesOf_initial initial key
  have quiet : ∀ call ∈ calls0, call.outcomeOf key = none := List.filterMap_eq_nil_iff.mp silent
  have first : Heard id key (sources.connection id) []
      { sources := sources, reporter := boot.reporter } calls0 [] := by
    refine ⟨(List.append_nil _).symm, rfl, silent, fun _ _ _ => ?_⟩
    rw [regularSamples_silent quiet,
      regularSamples_silent fun call hcall => quiet call (sinceClose_subset calls0 hcall)]
    rfl
  obtain ⟨calls, heard, h, delivered⟩ := first.run hperforms keys hasks initial hrun
  rw [List.nil_append] at h delivered
  obtain ⟨result, hresult⟩ := delivered.find hkey
  refine ⟨heard, result, h.connection, hresult, ?_⟩
  rw [delivered.accounts.results key] at hresult
  obtain ⟨descriptor, hdescriptor, rfl⟩ := Option.map_eq_some_iff.mp hresult
  intro told
  have same : told = outcomesOf key calls := h.outcomes.symm
  rw [same]
  refine ⟨fun kind => ?_, fun hraw => ?_⟩
  · have sums := delivered.accounts.sums key kind
    rw [List.map_map] at sums
    rw [← outcomes_outcomesOf, sums]
    cases kind with
    | regular => exact congrArg _ (regularSamples_length key _)
    | _ => rfl
  · rw [← regularSamples_outcomesOf]
    exact h.samples descriptor hdescriptor hraw

theorem reports_tell_connection_slow : ∃ (boot : Boot Unit Float)
    (l : Loop (Fin boot.scheduler.length) (System (Sources Unit) Float)) (path : String)
    (report : PeriodReport Float) (heard : Log Request Reply) (result : Result Float),
    l.system.reports = [(path, report)] ∧ l.system.sources.connection 1 = heard ∧
    ∀ kind, periodCount (slowKey "outflow") kind report + recordCount result.data kind =
      (readings 1 (slowKey "outflow") (timeline (plan false {} slowConfig) l.history) heard).countP
        (fun reading => reading.1 = kind) := by
  obtain ⟨reporter, result, hsetUp, hinflow, houtflow, hraw⟩ := slow_setUp
  obtain ⟨l, path, report, hreach, hreports, _⟩ :=
    slow_run hinflow houtflow hraw { connection := fun _ => [], engine := () }
  have described : slowServer ∈ descriptors slowConfig := List.mem_singleton_self _
  have measured : slowMeasure "outflow" ∈ slowServer.measures :=
    List.mem_cons_of_mem _ (List.mem_singleton_self _)
  obtain ⟨heard, result', hconnection, _, hcounts, _⟩ :=
    reports_tell_connection hsetUp hreach described measured (by decide) (fun h => by cases h)
  rw [hreports] at hcounts
  exact ⟨{ reporter := reporter, scheduler := slowTasks }, l, path, report, heard, result', hreports,
    hconnection, hcounts⟩

end ModbusCrawler.ServerReports
