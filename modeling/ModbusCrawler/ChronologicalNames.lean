import ModbusCrawler.DigitOrder
import ModbusCrawler.WholeRuns

set_option autoImplicit false

/-!
# Reports sorted by their names

The names that a run gives to its reports are in the order of the reports, for a
hundred years.
-/
namespace ModbusCrawler.ChronologicalNames
open CivilCalendar DigitOrder Infra ModbusTypes MeasReporter MeasExecutor PeriodicScheduler
open CrawlerMain EventLoop CrawlerRuns ReportNames ReportPeriods TimerWaiting WholeRuns

/-- 2100-01-01 00:00. -/
def year2100 : ℤ := 4102444800

theorem ofDays_year_lt {days : ℤ} (h : days < year2100 / 86400) : (ofDays days).year < 2100 := by
  have newYear : ofDays (year2100 / 86400) = ⟨2100, 0, 1⟩ := by decide +kernel
  obtain ⟨_, first, _⟩ := ofDays_month_day days
  have before := ofDays_before h
  rw [newYear] at before
  rcases before with hyear | ⟨_, hmonth | ⟨_, hday⟩⟩
  · exact hyear
  · exact absurd hmonth (Nat.not_lt_zero _)
  · change (ofDays days).day < 1 at hday
    omega

theorem setw2_digits (n : ℕ) : ∀ c ∈ setw2 n, c.isDigit := by
  intro c hc
  rw [setw2, toList_toString] at hc
  rcases List.mem_append.mp hc with hzero | hdigit
  · rw [List.eq_of_mem_replicate hzero]
    rfl
  · exact Nat.isDigit_of_mem_toDigits (by decide) (by decide) hdigit

/-- In its century a name is ten digits, and they tell the fields of the instant. -/
theorem toCompactString_digits {now : ℤ} (h : year2000 ≤ now) (h' : now < year2100) :
    (toCompactString now).toList.length = 10 ∧ ∀ c ∈ (toCompactString now).toList, c.isDigit := by
  obtain ⟨year, month, day, hour, minute, hmonth, hday, hhour, hminute, date, hours, minutes, _⟩ :=
    toCompactString_value h
  have days : now / 86400 < year2100 / 86400 := by
    unfold year2100 at h' ⊢
    omega
  have century := ofDays_year_lt days
  rw [date] at century
  change (2000 + year : ℤ) < 2100 at century
  have short : (2000 + year : ℤ) - 1900 - 100 = year := by omega
  have name : (toCompactString now).toList = setw2 year ++ setw2 (month + 1 : ℕ) ++ setw2 day ++
      setw2 hour ++ setw2 minute := by
    rw [toCompactString, String.toList_ofList, gmtime]
    dsimp only
    rw [date, hours, minutes]
    dsimp only
    rw [short]
    rfl
  rw [name]
  constructor
  · simp only [List.length_append]
    rw [setw2_length (by omega), setw2_length (by omega), setw2_length (by omega),
      setw2_length (by omega), setw2_length (by omega)]
  · intro c hc
    simp only [List.mem_append] at hc
    rcases hc with (((hc | hc) | hc) | hc) | hc <;> exact setw2_digits _ c hc

/-- The digits follow the minutes. -/
theorem toCompactString_value_lt {a b : ℤ} (ha : year2000 ≤ a) (h : a / 60 < b / 60) :
    value (toCompactString a).toList < value (toCompactString b).toList := by
  obtain ⟨y, mo, d, hr, mi, hmo, hd, hhr, hmi, date, hour, minute, spelled⟩ :=
    toCompactString_value ha
  obtain ⟨y', mo', d', hr', mi', hmo', hd', hhr', hmi', date', hour', minute', spelled'⟩ :=
    toCompactString_value (show year2000 ≤ b by omega)
  unfold value
  rw [spelled, spelled']
  rcases Int.lt_trichotomy (a / 86400) (b / 86400) with hlt | heq | hgt
  · have before := ofDays_before hlt
    rw [date, date'] at before
    rcases before with hyear | ⟨hyear, hmonth | ⟨hmonth, hday⟩⟩
    · change (2000 + y : ℤ) < 2000 + y' at hyear
      omega
    · change (2000 + y : ℤ) = 2000 + y' at hyear
      change mo < mo' at hmonth
      omega
    · change (2000 + y : ℤ) = 2000 + y' at hyear
      change mo = mo' at hmonth
      change d < d' at hday
      omega
  · rw [heq, date'] at date
    obtain ⟨hyear, hmonth, hday⟩ := Date.mk.inj date
    omega
  · omega

theorem toCompactString_lt {a b : ℤ} (ha : year2000 ≤ a) (hb : b < year2100)
    (h : a / 60 < b / 60) :
    (toCompactString a).toList < (toCompactString b).toList := by
  obtain ⟨lengthA, digitsA⟩ := toCompactString_digits ha (by omega)
  obtain ⟨lengthB, digitsB⟩ := toCompactString_digits (show year2000 ≤ b by omega) hb
  exact digits_lt digitsA digitsB (lengthA.trans lengthB.symm) (toCompactString_value_lt ha h)

theorem reportName_lt (outFolder : String) {a b : ℤ} (ha : year2000 ≤ a) (hb : b < year2100)
    (h : a / 60 < b / 60) : reportName outFolder a < reportName outFolder b := by
  have length : (toCompactString a).toList.length = (toCompactString b).toList.length :=
    (toCompactString_digits ha (by omega)).1.trans
      (toCompactString_digits (show year2000 ≤ b by omega) hb).1.symm
  have around : ∃ before after, ∀ now,
      (reportName outFolder now).toList = before ++ ((toCompactString now).toList ++ after) := by
    refine ⟨outFolder.toList ++ "/".toList, ".json".toList, fun now => ?_⟩
    rw [reportName, String.toList_append, String.toList_append, String.toList_append,
      List.append_assoc]
  obtain ⟨before, after, spelled⟩ := around
  change (reportName outFolder a).toList < (reportName outFolder b).toList
  rw [spelled, spelled]
  exact List.append_left_lt (append_lt_append length (toCompactString_lt ha hb h) after after)

section Stamps
variable {D : Type}

theorem report_notMem_measureWorks (descs : List (MeasConfig.Descriptor D)) :
    Work.report ∉ measureWorks descs := by
  intro h
  obtain ⟨desc, _, hmem⟩ := List.mem_flatMap.mp h
  obtain ⟨meas, _, hmeas⟩ := List.mem_map.mp hmem
  cases hmeas

/-- Periods are closed at the expiries of the first task only. -/
theorem plan_report {fileabs : Bool} {o : Options} {configmap : MeasConfig.ConfigurationMap D}
    {i : ℕ} : (plan fileabs o configmap)[i]? = some .report ↔ i = 0 := by
  have rest : ∃ rest, plan fileabs o configmap = .report :: rest ∧ Work.report ∉ rest := by
    refine ⟨_, List.cons_append, ?_⟩
    rw [List.mem_append, not_or]
    refine ⟨?_, report_notMem_measureWorks _⟩
    split_ifs
    · simp
    · exact List.not_mem_nil
  obtain ⟨rest, hplan, hrest⟩ := rest
  rw [hplan]
  cases i with
  | zero => simp
  | succ i =>
    rw [List.getElem?_cons_succ]
    exact iff_of_false (fun h => hrest (List.mem_of_getElem? h)) (Nat.succ_ne_zero i)

theorem reportStamps_timeline {fileabs : Bool} {o : Options}
    {configmap : MeasConfig.ConfigurationMap D} {n : ℕ} (first : Fin n) (hfirst : first.val = 0)
    (history : List (Event (Fin n))) :
    reportStamps (timeline (plan fileabs o configmap) history) =
      (expiries history first).map toSeconds := by
  have first_iff (i : Fin n) : (plan fileabs o configmap)[i.val]? = some .report ↔ i = first := by
    rw [plan_report, ← hfirst, Fin.val_inj]
  unfold reportStamps timeline expiries
  rw [List.filterMap_filterMap, List.map_filterMap]
  congr 1
  funext event
  cases event with
  | started i began finished =>
    unfold executed
    dsimp only
    cases (plan fileabs o configmap)[i.val]? with
    | none => rfl
    | some work => cases work <;> rfl
  | expired i expiry =>
    unfold executed
    dsimp only
    by_cases hi : i = first
    · rw [(first_iff i).mpr hi, if_pos hi]
      rfl
    · have other := mt (first_iff i).mp hi
      rw [if_neg hi]
      cases hwork : (plan fileabs o configmap)[i.val]? with
      | none => rfl
      | some work =>
        cases work with
        | report => exact absurd hwork other
        | rotate => rfl
        | measure server meas => rfl

end Stamps

variable {D R : Type} [Doubles D]

theorem minutes_lt {a b : ℤ} (hab : a + 60 * ticksPerSecond ≤ b) (h : year2000 ≤ toSeconds a) :
    toSeconds a / 60 < toSeconds b / 60 := by
  have nonneg : 0 ≤ a := by
    by_contra hnegative
    have early := toSeconds_mono (Int.le_of_lt (Int.not_le.mp hnegative))
    have zero : toSeconds 0 = 0 := rfl
    unfold year2000 at h
    omega
  unfold ticksPerSecond at hab
  unfold toSeconds ticksPerSecond
  rw [Int.tdiv_eq_ediv_of_nonneg nonneg, Int.tdiv_eq_ediv_of_nonneg (by omega)]
  omega

/-- Before the end of the century an expiry can always be armed one period later. -/
theorem century_turns {first period : ℤ} (hperiod : 0 ≤ period)
    (hfits : year2100 * ticksPerSecond + period < 2^63) {i d : ℕ}
    (h : ∀ k : ℕ, k < i + d → toSeconds (ticks (first + k * period)) < year2100) :
    ticks (first + (i + d : ℕ) * period) = ticks (first + i * period) + d * period := by
  induction d with
  | zero => simp
  | succ d ih =>
    have before := ih fun k hk => h k (by omega)
    have once (n : ℕ) (a : ℤ) : a + (n + 1 : ℕ) * period = a + n * period + period := by
      rw [Int.natCast_succ, Int.add_mul]
      omega
    have century : ticks (first + (i + d : ℕ) * period) < year2100 * ticksPerSecond := by
      by_contra hlate
      have late := toSeconds_mono (Int.not_lt.mp hlate)
      rw [toSeconds_mul] at late
      have early := h (i + d) (Nat.lt_succ_self _)
      omega
    have low := le_ticks (first + (i + d : ℕ) * period)
    rw [← Nat.add_assoc, once, ← ticks_ticks_add, ticks_eq (by omega) (by omega), before, once]

/-- The stamps of one century tell the order of the names. -/
theorem stamps_chronological (outFolder : String) {first period : ℤ}
    (hminute : 60 * ticksPerSecond ≤ period) (hfits : year2100 * ticksPerSecond + period < 2^63)
    {n : ℕ} (h : ∀ k : ℕ, k < n → toSeconds (ticks (first + k * period)) < year2100) :
    ((List.range n).map (fun k : ℕ => toSeconds (ticks (first + k * period)))).Pairwise
      (fun a b => year2000 ≤ a → reportName outFolder a < reportName outFolder b) := by
  have nonneg : 0 ≤ period := by
    unfold ticksPerSecond at hminute
    omega
  rw [List.pairwise_map]
  refine List.pairwise_lt_range.imp_of_mem fun {i j} hi hj hij hstart => ?_
  obtain ⟨d, rfl⟩ := Nat.exists_eq_add_of_lt hij
  have hj' := List.mem_range.mp hj
  have turns := century_turns (i := i) (d := d + 1) nonneg hfits fun k hk => h k (by omega)
  refine reportName_lt outFolder hstart (h _ hj') (minutes_lt ?_ hstart)
  have more : period ≤ (d + 1 : ℕ) * period := by
    rw [Int.natCast_succ, Int.add_mul, Int.one_mul]
    have rest : 0 ≤ (d : ℤ) * period := Int.mul_nonneg (Int.natCast_nonneg d) nonneg
    omega
  rw [Nat.add_assoc, turns]
  omega

/-- The first task of a set-up writes the reports. -/
theorem setUp_reporting {fileabs : Bool} {env : Environment D R} {o : Options}
    {configmap : MeasConfig.ConfigurationMap D} {boot : Boot R D}
    (h : (setUp fileabs env o configmap).run { reporter := { outFolder := o.outFolder } } =
      .ok () boot) : ∃ first : Fin boot.scheduler.length, first.val = 0 ∧
        (boot.scheduler.get first).interval = o.reportingPeriod := by
  obtain ⟨reporter, scheduler⟩ := boot
  obtain ⟨_, rfl, _⟩ := setUp_ok h
  exact ⟨⟨0, Nat.succ_pos _⟩, rfl, rfl⟩

theorem posted_spaced {S : Type} (tasks : Scheduler S) (system : S) (start : ℤ) :
    Spaced ticks (periods tasks) (posted tasks system start) where
  nodup := List.nodup_finRange _
  waiting _ _ := rfl
  spaced i hi := absurd (List.mem_finRange i) hi

/-- The stamps of the reports are at even distances, as far as the timer holds them. -/
theorem reportStamps_spaced {fileabs : Bool} {env : Environment D R} {o : Options}
    {configmap : MeasConfig.ConfigurationMap D} {boot : Boot R D}
    (hsetUp : (setUp fileabs env o configmap).run { reporter := { outFolder := o.outFolder } } =
      .ok () boot) {sources : Sources R} {start : ℤ}
    {l : Loop (Fin boot.scheduler.length) (System (Sources R) D)}
    (hreach : Reachable (handlers boot.scheduler)
      (posted boot.scheduler { sources := sources, reporter := boot.reporter } start) l) :
    ∃ (first : ℤ) (n : ℕ), reportStamps (timeline (plan fileabs o configmap) l.history) =
      (List.range n).map (fun k : ℕ =>
        toSeconds (ticks (first + k * (o.reportingPeriod * ticksPerSecond)))) := by
  obtain ⟨i, hi, hinterval⟩ := setUp_reporting hsetUp
  have spaced := (posted_spaced boot.scheduler _ start).reachable (handlers_rearm _)
    ticks_ticks_add (fun _ _ _ _ _ _ hrun => ⟨_, start_expiry hrun⟩) hreach
  have turns : ∃ (first : ℤ) (n : ℕ), expiries l.history i =
      (List.range n).map (fun k : ℕ => ticks (first + k * periods boot.scheduler i)) := by
    by_cases hposted : i ∈ l.posted
    · exact ⟨0, 0, spaced.waiting i hposted⟩
    · obtain ⟨first, n, hexpiries, _⟩ := spaced.spaced i hposted
      exact ⟨first, n, hexpiries⟩
  obtain ⟨first, n, hexpiries⟩ := turns
  refine ⟨first, n, ?_⟩
  rw [reportStamps_timeline i hi, hexpiries, List.map_map, periods, hinterval]
  rfl

theorem headings_names (outFolder : String) (stamps : List ℤ) :
    (headings outFolder stamps).map (fun h => (h.1, h.2.1)) =
      stamps.map (fun now => (reportName outFolder now, now)) := by
  unfold headings
  apply List.ext_getElem
  · simp
  · intro k _ _
    simp

/-- Until the end of the century, the reports of a run sort by their names in the order in which
    they were made. -/
theorem names_chronological {fileabs : Bool} {env : Environment D R} {o : Options}
    {configmap : MeasConfig.ConfigurationMap D} {boot : Boot R D}
    (hsetUp : (setUp fileabs env o configmap).run { reporter := { outFolder := o.outFolder } } =
      .ok () boot) (hbounded : o.Bounded) (hminute : 60 ≤ o.reportingPeriod) {sources : Sources R}
    {start : ℤ} {l : Loop (Fin boot.scheduler.length) (System (Sources R) D)}
    (hreach : Reachable (handlers boot.scheduler)
      (posted boot.scheduler { sources := sources, reporter := boot.reporter } start) l)
    {reports later : List (String × PeriodReport D)} (hreports : l.system.reports = reports ++ later)
    (hcentury : ∀ report ∈ reports, report.2.now < year2100) :
    reports.Pairwise (fun earlier later => year2000 ≤ earlier.2.now → earlier.1 < later.1) := by
  obtain ⟨calls, delivered⟩ := run_delivered hsetUp hreach
  obtain ⟨first, n, hstamps⟩ := reportStamps_spaced hsetUp hreach
  let stamp (k : ℕ) : ℤ := toSeconds (ticks (first + k * (o.reportingPeriod * ticksPerSecond)))
  have files : l.system.reports.map (fun file => (file.1, file.2.now)) =
      (List.range n).map (fun k => (reportName o.outFolder (stamp k), stamp k)) := by
    have named := headings_names o.outFolder (reportStamps (timeline (plan fileabs o configmap) l.history))
    rw [← delivered.files, List.map_map, hstamps, List.map_map] at named
    exact named
  have names : reports.map (fun file => (file.1, file.2.now)) =
      (List.range (min reports.length n)).map (fun k => (reportName o.outFolder (stamp k), stamp k)) := by
    have prefixes := congrArg (List.take reports.length) files
    rw [hreports, ← List.map_take, List.take_left' rfl, ← List.map_take, List.take_range] at prefixes
    exact prefixes
  have century (k : ℕ) (hk : k < min reports.length n) : stamp k < year2100 := by
    have there : (reportName o.outFolder (stamp k), stamp k) ∈
        reports.map (fun file => (file.1, file.2.now)) := by
      rw [names]
      exact List.mem_map_of_mem (List.mem_range.mpr hk)
    obtain ⟨report, hreport, hsame⟩ := List.mem_map.mp there
    rw [← (Prod.mk.inj hsame).2]
    exact hcentury report hreport
  have period : 60 * ticksPerSecond ≤ o.reportingPeriod * ticksPerSecond :=
    Int.mul_le_mul_of_nonneg_right hminute (by decide)
  have fits : year2100 * ticksPerSecond + o.reportingPeriod * ticksPerSecond < 2^63 := by
    obtain ⟨_, high⟩ := hbounded
    unfold year2100 ticksPerSecond
    omega
  have sorted := stamps_chronological o.outFolder period fits century
  rw [List.pairwise_map] at sorted
  have pairs : (reports.map (fun file => (file.1, file.2.now))).Pairwise
      (fun a b => year2000 ≤ a.2 → a.1 < b.1) := by
    rw [names, List.pairwise_map]
    exact sorted
  exact List.pairwise_map.mp pairs

/-- Without servers a crawler writes empty reports. -/
def idleBoot : Boot Unit Float where
  reporter := { outFolder := "/tmp" }
  scheduler := [(Job.report 300).scheduled]

theorem idle_setUp : (setUp false fiveEnvironment {} (∅ : MeasConfig.ConfigurationMap Float)).run
    { reporter := { outFolder := "/tmp" } } = .ok () idleBoot := rfl

theorem idle_run (sources : Sources Unit) : ∃ l first second,
    Reachable (handlers idleBoot.scheduler) (posted idleBoot.scheduler
      { sources := sources, reporter := idleBoot.reporter } (fromTimeT 1709210096)) l ∧
    l.system.reports = [first, second] ∧ first.2.now = 1709210100 ∧ second.2.now = 1709210400 := by
  let system0 : System (Sources Unit) Float := { sources := sources, reporter := idleBoot.reporter }
  let closed (system : System (Sources Unit) Float) (now : ℤ) : System (Sources Unit) Float :=
    { system with
      reporter := (closePeriod system.reporter now).2
      reports := system.reports ++ [(closePeriod system.reporter now).1] }
  have start : ((Job.report 300).scheduled.start (fromTimeT 1709210096) (fromTimeT 1709210096)).run
      system0 = .ok (fromTimeT 1709210100) system0 :=
    start_aligns rfl (by decide +kernel) _ _
  have close1 : ((Job.report 300).scheduled.execute false (fromTimeT 1709210100)).run system0 =
      .ok (some (fromTimeT 1709210400)) (closed system0 1709210100) := execute_run rfl
  have close2 : ((Job.report 300).scheduled.execute false (fromTimeT 1709210400)).run
      (closed system0 1709210100) = .ok (some (fromTimeT 1709210700))
        (closed (closed system0 1709210100) 1709210400) := execute_run rfl
  let i : Fin idleBoot.scheduler.length := ⟨0, by decide⟩
  have run1 := Relation.ReflTransGen.refl.tail (Step.start (h := handlers idleBoot.scheduler)
    (l := posted idleBoot.scheduler system0 (fromTimeT 1709210096)) rfl (Int.le_refl _)
    (Int.le_refl _) start)
  have run2 := run1.tail (Step.expire (i := i) rfl rfl
    (show fromTimeT 1709210096 ≤ fromTimeT 1709210100 by decide) (Int.le_refl _) (fun j other harmed _ => by
      match j with
      | ⟨0, _⟩ => exact Int.le_of_eq (Option.some.inj harmed)) (Int.le_refl _) close1)
  have run3 := run2.tail (Step.expire (i := i) rfl rfl
    (show fromTimeT 1709210100 ≤ fromTimeT 1709210400 by decide) (Int.le_refl _) (fun j other harmed _ => by
      match j with
      | ⟨0, _⟩ => exact Int.le_of_eq (Option.some.inj harmed)) (Int.le_refl _) close2)
  exact ⟨_, _, _, run3, rfl, rfl, rfl⟩

theorem names_chronological_idle : ∃ (l : Loop (Fin idleBoot.scheduler.length)
    (System (Sources Unit) Float)) (first second : String × PeriodReport Float),
    l.system.reports = [first, second] ∧ first.1 < second.1 := by
  obtain ⟨l, first, second, hreach, hreports, hfirst, hsecond⟩ :=
    idle_run { connection := fun _ => [], engine := () }
  have century : ∀ report ∈ [first, second], report.2.now < year2100 := by
    simp only [List.mem_cons, List.not_mem_nil, or_false, forall_eq_or_imp, forall_eq]
    rw [hfirst, hsecond]
    decide
  have sorted := names_chronological idle_setUp ⟨by decide, by decide⟩ (show 60 ≤ 300 by decide) hreach
    (show l.system.reports = [first, second] ++ [] from hreports) century
  refine ⟨l, first, second, hreports, List.rel_of_pairwise_cons sorted (List.mem_singleton_self _) ?_⟩
  rw [hfirst]
  decide

end ModbusCrawler.ChronologicalNames
