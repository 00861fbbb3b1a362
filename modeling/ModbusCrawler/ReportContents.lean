import ModbusCrawler.ReportDocuments
import ModbusCrawler.WholeRuns

set_option autoImplicit false

/-!
# What every report of a run contains

The documents of a run have one outline, that of the configuration, and the
figures of each agree with one another and with the documents before it.
-/
namespace ModbusCrawler.ReportContents
open NestedMap ModbusTypes ModbusSlave MeasReporter MeasExecutor PeriodicScheduler CrawlerMain
open EventLoop ReporterHistory TaskAccounting ReportPeriods CrawlerRuns WholeRuns ReportDocuments

variable {D R : Type} [Doubles D]

/-- The results of a report, each with what it was configured with. -/
def outline (report : PeriodReport D) : List (Key × Descriptor) :=
  report.entries.map (fun entry => (entry.1, entry.2.descriptor))

/-- By server name, server id and name of the measure. -/
abbrev InOrder (contents : List (Key × Descriptor)) : Prop :=
  NestedMap.Sorted ServerKey.order compare contents

/-- The statistics as they are printed. -/
def rounded (statistics : Stats D) : Stats D where
  min := fixedDigits statistics.min 3
  max := fixedDigits statistics.max 3
  mean := fixedDigits statistics.mean 3
  stdev := fixedDigits statistics.stdev 3

/-- The figures of a result, in a report that follows others. -/
structure Agrees (before : List (PeriodReport D)) (report : PeriodReport D) (key : Key)
    (result : MeasureReport D) : Prop where
  raw : result.data.samples.isSome = result.descriptor.reportRawSamples
  numbered : ∀ samples, result.data.samples = some samples →
    samples.length = result.data.numSamples
  statistics : result.data.statistics.isSome ↔ result.data.numSamples ≠ 0
  figures : ∀ samples, result.data.samples = some samples → samples ≠ [] →
    result.data.statistics = some (rounded (calculateStats samples))
  period : ∀ kind, periodCount key kind report = result.data.period kind
  total : ∀ kind total, result.data.total kind = some total →
    total = ((before ++ [report]).map (periodCount key kind)).sum

section Close
variable {r : Reporter D} {calls : List (Call D)} {closed : List (PeriodReport D)}

theorem outline_sorted (r : Reporter D) (now : ℤ) : InOrder (outline (closePeriod r now).1.2) := by
  unfold InOrder NestedMap.Sorted outline
  rw [closePeriod_entries, List.map_map, List.pairwise_map]
  exact entries_sorted r.results

theorem mem_outline (h : Accounts r calls closed) (now : ℤ) (key : Key) (descriptor : Descriptor) :
    (key, descriptor) ∈ outline (closePeriod r now).1.2 ↔
      configuredWith key calls = some descriptor := by
  unfold outline
  rw [List.mem_map]
  constructor
  · rintro ⟨⟨key', result⟩, hmem, heq⟩
    injection heq with hkey hdescriptor
    subst hkey hdescriptor
    obtain ⟨descriptor, hconfigured, rfl⟩ := h.entry hmem
    exact hconfigured
  · intro hconfigured
    have found := h.results key
    rw [hconfigured] at found
    exact ⟨_, (mem_closePeriod_entries r now key _).mpr ⟨_, found, rfl⟩, rfl⟩

theorem close_agrees (h : Accounts r calls closed) {now : ℤ} {key : Key} {result : MeasureReport D}
    (hmem : (key, result) ∈ (closePeriod r now).1.2.entries) :
    Agrees closed (closePeriod r now).1.2 key result := by
  obtain ⟨descriptor, _, rfl⟩ := h.entry hmem
  constructor
  · change (if descriptor.reportRawSamples then some _ else none).isSome = descriptor.reportRawSamples
    cases descriptor.reportRawSamples <;> rfl
  · intro samples hsamples
    change (if descriptor.reportRawSamples then some _ else none) = some samples at hsamples
    split_ifs at hsamples
    cases hsamples
    rfl
  · change (if regularSamples key (sinceClose calls) ≠ [] then some _ else none).isSome ↔
      (regularSamples key (sinceClose calls)).length ≠ 0
    by_cases hsamples : regularSamples key (sinceClose calls) = []
    · rw [if_neg (not_not.mpr hsamples), hsamples]
      exact iff_of_false nofun (not_not.mpr rfl)
    · rw [if_pos hsamples]
      exact iff_of_true rfl (mt List.length_eq_zero_iff.mp hsamples)
  · intro samples hsamples hnonempty
    change (if descriptor.reportRawSamples then some _ else none) = some samples at hsamples
    split_ifs at hsamples
    cases hsamples
    exact if_pos hnonempty
  · intro kind
    rw [h.periodCount now key kind]
    cases kind with
    | regular => exact (regularSamples_length key _).symm
    | readFailure | underflow | overflow => rfl
  · intro kind total htotal
    have all : total = outcomes key kind calls := by
      cases kind with
      | regular => cases htotal
      | readFailure | underflow | overflow => exact (Option.some.inj htotal).symm
    rw [all, h.sums key kind, ← h.periodCount now key kind, List.map_append, List.sum_append,
      List.map_singleton, List.sum_singleton]

end Close

/-- What holds of the reports between two ticks of a run. -/
structure Described (contents : List (Key × Descriptor)) (system : System (Sources R) D)
    (calls : List (Call D)) : Prop where
  configured : ∀ key descriptor,
    configuredWith key calls = some descriptor ↔ (key, descriptor) ∈ contents
  reports : ∀ before file after, system.reports = before ++ file :: after →
    outline file.2 = contents ∧
      ∀ key result, (key, result) ∈ file.2.entries → Agrees (before.map Prod.snd) file.2 key result

section Step
variable {env : Environment D R} {keys : List Key} {outFolder : String}
  {contents : List (Key × Descriptor)} {works : List (Work D × ℤ)}
  {system system' : System (Sources R) D} {calls : List (Call D)}

theorem Described.outline_eq (h : Described contents system calls) (hsorted : InOrder contents)
    (accounts : Accounts system.reporter calls (system.reports.map Prod.snd)) (now : ℤ) :
    outline (closePeriod system.reporter now).1.2 = contents := by
  refine (outline_sorted system.reporter now).ext hsorted fun ⟨key, descriptor⟩ => ?_
  rw [mem_outline accounts, h.configured]

theorem Described.step (h : Described contents system calls) (hsorted : InOrder contents)
    (delivered : Delivered keys outFolder works system calls) {tick : Tick (Sources R) D}
    {work : Work D × ℤ} (hperforms : Performs env tick work)
    (hrun : (perform tick).run system = .ok () system') :
    Described contents system' (calls ++ calling tick system) := by
  obtain ⟨job, now⟩ := tick
  obtain ⟨work, stamp⟩ := work
  obtain ⟨himplements, rfl⟩ := hperforms
  cases himplements with
  | report interval =>
    cases hrun
    refine ⟨fun key descriptor => ?_, fun before file after hsplit => ?_⟩
    · simp only [calling]
      rw [configuredWith_other calls rfl]
      exact h.configured key descriptor
    · rcases List.eq_nil_or_concat after with rfl | ⟨after', last, rfl⟩
      · obtain ⟨rfl, hfile⟩ := List.append_inj' hsplit rfl
        rw [← (List.cons.inj hfile).1]
        exact ⟨h.outline_eq hsorted delivered.accounts now,
          fun key result hmem => close_agrees delivered.accounts hmem⟩
      · rw [List.concat_eq_append, ← List.cons_append, ← List.append_assoc] at hsplit
        exact h.reports before file after' (List.append_inj' hsplit rfl).1
  | rotate interval =>
    cases hrun
    simp only [calling, List.append_nil]
    exact h
  | @measure slaves server measures slave hslave meas =>
    refine ⟨fun key descriptor => ?_, fun before file after hsplit => ?_⟩
    · simp only [calling]
      rw [configuredWith_other calls rfl]
      exact h.configured key descriptor
    · rw [measTask_reports hrun] at hsplit
      exact h.reports before file after hsplit

theorem Described.run {ticks : List (Tick (Sources R) D)} {more : List (Work D × ℤ)}
    (hsorted : InOrder contents) (hperforms : List.Forall₂ (Performs env) ticks more)
    (hmem : ∀ tick ∈ ticks, ∀ key, tick.1.key = some key → key ∈ keys)
    (h : Described contents system calls) (delivered : Delivered keys outFolder works system calls)
    (hrun : (forM ticks perform).run system = .ok () system') :
    ∃ calls', Described contents system' calls' := by
  induction hperforms generalizing works system calls with
  | nil =>
    cases hrun
    exact ⟨calls, h⟩
  | @cons tick work ticks more head tail ih =>
    rw [List.forM_cons] at hrun
    obtain ⟨_, system1, hfirst, hrest⟩ := MeasConfig.bind_ok hrun
    have own := hmem tick (List.mem_cons_self ..)
    exact ih (fun t ht => hmem t (List.mem_cons_of_mem _ ht)) (h.step hsorted delivered head hfirst)
      (delivered.step head own hfirst) hrest

end Step

section Run
variable {fileabs : Bool} {env : Environment D R} {o : Options}
  {configmap : MeasConfig.ConfigurationMap D} {boot : Boot R D}

omit [Doubles D] in
theorem configuredWith_configs {list : List (Key × Descriptor)}
    (distinct : (list.map Prod.fst).Nodup) (key : Key) (descriptor : Descriptor) :
    configuredWith key (list.map configureCall : List (Call D)) = some descriptor ↔
      (key, descriptor) ∈ list := by
  induction list with
  | nil => exact iff_of_false nofun List.not_mem_nil
  | cons config rest ih =>
    obtain ⟨own, value⟩ := config
    rw [List.map_cons, List.nodup_cons] at distinct
    obtain ⟨fresh, distinct⟩ := distinct
    rw [List.mem_cons, Prod.mk.injEq, ← ih distinct]
    by_cases hkey : own = key
    · subst hkey
      have absent : ¬ (own, descriptor) ∈ rest :=
        fun hmem => fresh (List.mem_map.mpr ⟨_, hmem, rfl⟩)
      rw [ih distinct, or_iff_left absent]
      simp [configuredWith, configureCall, eq_comm]
    · have other : key ≠ own := Ne.symm hkey
      simp [configuredWith, configureCall, hkey, other]

/-- The reporter is configured with what the configuration has. -/
theorem setUp_configured
    (hsetUp : (setUp fileabs env o configmap).run { reporter := { outFolder := o.outFolder } } =
      .ok () boot) (key : Key) (descriptor : Descriptor) :
    (boot.reporter.find key).map Result.descriptor = some descriptor ↔
      (key, descriptor) ∈ configs (descriptors configmap) := by
  obtain ⟨hconfigure, _⟩ := setUp_ok hsetUp
  rw [configureAll_eq] at hconfigure
  obtain ⟨accounts, distinct, _⟩ := configure_accounts (Accounts.initial o.outFolder) hconfigure
  rw [accounts.results key, Option.map_map, ← configuredWith_configs (D := D) distinct]
  change (configuredWith key _).map id = _ ↔ _
  rw [Option.map_id]
  rfl

/-- What the reports of a run contain, before there are any. -/
def contentsOf (reporter : Reporter D) : List (Key × Descriptor) :=
  (entries reporter.results).map (fun entry => (entry.1, entry.2.descriptor))

theorem contentsOf_sorted (reporter : Reporter D) : InOrder (contentsOf reporter) := by
  unfold InOrder NestedMap.Sorted contentsOf
  rw [List.pairwise_map]
  exact entries_sorted reporter.results

theorem mem_contentsOf (reporter : Reporter D) (key : Key) (descriptor : Descriptor) :
    (key, descriptor) ∈ contentsOf reporter ↔
      (reporter.find key).map Result.descriptor = some descriptor := by
  unfold contentsOf Reporter.find
  rw [List.mem_map, Option.map_eq_some_iff]
  constructor
  · rintro ⟨⟨key', result⟩, hmem, heq⟩
    injection heq with hkey hdescriptor
    subst hkey
    exact ⟨result, (mem_entries _ _ _).mp hmem, hdescriptor⟩
  · rintro ⟨result, hfind, rfl⟩
    exact ⟨(key, result), (mem_entries _ _ _).mpr hfind, rfl⟩

/-- In every run the documents of all reports have one outline: a result for every measure of
    the configuration with its period and flags, in the order of the names. The figures of a
    result agree with one another and with the documents before it. -/
theorem documents_agree
    (hsetUp : (setUp fileabs env o configmap).run { reporter := { outFolder := o.outFolder } } =
      .ok () boot) {sources : Sources R} {start : ℤ}
    {l : Loop (Fin boot.scheduler.length) (System (Sources R) D)}
    (hreach : Reachable (handlers boot.scheduler)
      (posted boot.scheduler { sources := sources, reporter := boot.reporter } start) l) :
    ∃ contents, InOrder contents ∧ contents.Perm (configs (descriptors configmap)) ∧
      ∀ before file after, l.system.reports = before ++ file :: after →
        ∃ report, readReport (reportToJson file.2) = some report ∧ outline report = contents ∧
          ∀ key result, (key, result) ∈ report.entries →
            Agrees (before.map Prod.snd) report key result := by
  obtain ⟨jobs, _, himplements, ticks, hperforms, hjobs, hrun⟩ := run_ticks hsetUp hreach
  obtain ⟨calls0, initial⟩ := setUp_delivered hsetUp sources
  obtain ⟨_, _, _, distinct, _⟩ := setUp_jobs hsetUp
  have keys : ∀ tick ∈ ticks, ∀ key, tick.1.key = some key →
      key ∈ measureKeys (descriptors configmap) :=
    fun tick htick key hkey => implements_keys himplements (hjobs tick htick) hkey
  have sorted := contentsOf_sorted boot.reporter
  have first : Described (contentsOf boot.reporter)
      { sources := sources, reporter := boot.reporter } calls0 := by
    refine ⟨fun key descriptor => ?_, fun before file after hsplit => ?_⟩
    · rw [mem_contentsOf, initial.accounts.results key, Option.map_map]
      change _ ↔ (configuredWith key calls0).map id = _
      rw [Option.map_id]
      rfl
    · cases before <;> cases hsplit
  obtain ⟨calls, described⟩ := first.run sorted hperforms keys initial hrun
  refine ⟨contentsOf boot.reporter, sorted, ?_, fun before file after hsplit => ?_⟩
  · have configured : (configs (descriptors configmap)).Nodup := by
      rw [← configs_keys] at distinct
      exact distinct.of_map
    refine (List.perm_ext_iff_of_nodup sorted.nodup configured).mpr fun ⟨key, descriptor⟩ => ?_
    rw [mem_contentsOf, setUp_configured hsetUp]
  · obtain ⟨houtline, hagrees⟩ := described.reports before file after hsplit
    exact ⟨file.2, readReport_reportToJson file.2, houtline, hagrees⟩

theorem documents_agree_slow : ∃ (boot : Boot Unit Float)
    (l : Loop (Fin boot.scheduler.length) (System (Sources Unit) Float)) (path : String)
    (report : PeriodReport Float), l.system.reports = [(path, report)] ∧
      readReport (reportToJson report) = some report ∧
      (outline report).Perm (configs (descriptors slowConfig)) ∧
      ∀ key result, (key, result) ∈ report.entries → Agrees [] report key result := by
  obtain ⟨reporter, result, hsetUp, hinflow, houtflow, hraw⟩ := slow_setUp
  obtain ⟨l, path, report, hreach, hreports, _⟩ :=
    slow_run hinflow houtflow hraw { connection := fun _ => [], engine := () }
  obtain ⟨contents, _, configured, documents⟩ := documents_agree hsetUp hreach
  obtain ⟨report', hread, rfl, agrees⟩ := documents [] (path, report) [] hreports
  have same : report' = report := by
    rw [readReport_reportToJson] at hread
    exact (Option.some.inj hread).symm
  subst same
  exact ⟨{ reporter := reporter, scheduler := slowTasks }, l, path, report', hreports, hread,
    configured, agrees⟩

end Run

end ModbusCrawler.ReportContents
