import ModbusCrawler.TaskAccounting

set_option autoImplicit false

/-!
# The intervals that reach the scheduler

From the `-r` option and the sampling periods of the configuration file to
`addTask`, and from there to the instants of the tasks.
-/
namespace ModbusCrawler.TaskIntervals
open Std ModbusTypes ModbusSlave MeasConfig MeasReporter MeasExecutor PeriodicScheduler CrawlerMain
open TaskAccounting

variable {σ D R : Type} [Doubles D]

/-- The tasks handed to the scheduler, also by a set-up that throws. -/
def handed (fileabs : Bool) (env : Environment D R) (o : Options) (configmap : ConfigurationMap D) :
    Scheduler (System (Sources R) D) :=
  match (setUp fileabs env o configmap).run { reporter := { outFolder := o.outFolder } } with
  | .ok _ boot | .error _ boot => boot.scheduler

/-- A positive interval, and with it a task that divides by no zero and whose instants
    strictly increase, for as many executions as end within the 64 bits of the clock. -/
structure Advances {S : Type} (t : ScheduledTask S) : Prop where
  positive : 0 < t.interval
  divides : t.mode = .executeAtMultiplesOfPeriod → t.multiple ≠ 0
  increasing : ∀ began finished (n : ℕ), 0 ≤ began → began ≤ finished →
    finished + n * t.step < 2^63 → (t.instants began finished n).Pairwise (· < ·)

/-- The report task and the tasks of the measures; only the log rotator skips its first
    execution. -/
def AllAdvance {S : Type} (scheduler : Scheduler S) : Prop :=
  ∀ t ∈ scheduler, t.mode ≠ .skipFirstExecution → Advances t

/-- Positive, and a second or more in the 64 bits of the timer. -/
def Timed (period : ℤ) : Prop :=
  0 < period ∧ ticksPerSecond ≤ ticks (period * ticksPerSecond)

def TimedPeriod (server : ModbusServer) (m : Measure D) : Prop :=
  Timed (if m.samplingPeriod = 0 then server.samplingPeriod else m.samplingPeriod)

/-- The servers before the first one whose slave cannot be constructed. -/
def served (env : Environment D R) (configmap : ConfigurationMap D) : List (MeasConfig.Descriptor D) :=
  (constructed env (descriptors configmap) []).map Prod.snd

/-- What has to be positive in the command line and in the configuration file. -/
structure PositivePeriods (env : Environment D R) (o : Options)
    (descs : List (MeasConfig.Descriptor D)) (configmap : ConfigurationMap D) : Prop where
  report : 0 < o.reportingPeriod
  measures : ∀ desc ∈ descs, desc.server.enabled = true → effective desc ∈ served env configmap →
    ∀ m ∈ desc.measures, m.enabled = true → TimedPeriod desc.server m

/-- What fits the nanoseconds of a timer is timed. -/
theorem timed_of_le {period : ℤ} (hpositive : 0 < period) (hfits : period ≤ 9223372036) :
    Timed period := by
  refine ⟨hpositive, ?_⟩
  rw [ticks_eq (by unfold ticksPerSecond; omega) (by unfold ticksPerSecond; omega)]
  unfold ticksPerSecond
  omega

theorem report_advances {o : Options} (hbounded : o.Bounded) (hpositive : 0 < o.reportingPeriod) :
    Advances (Job.report o.reportingPeriod : Job σ D).scheduled := by
  have fits : (Job.report o.reportingPeriod : Job σ D).scheduled.step =
      o.reportingPeriod * ticksPerSecond := by
    obtain ⟨_, high⟩ := hbounded
    refine ticks_eq ?_ ?_
    · change -2^63 ≤ o.reportingPeriod * ticksPerSecond
      unfold ticksPerSecond
      omega
    · change o.reportingPeriod * ticksPerSecond < 2^63
      unfold ticksPerSecond
      omega
  refine ⟨hpositive, fun _ => ?_, fun began finished n hbegan hfinished hn =>
    instants_increasing _ ?_ (fun _ => ⟨report_multiple hbounded, hpositive, fits⟩) hbegan hfinished hn⟩
  · rw [report_multiple hbounded]
    exact Int.ne_of_gt hpositive
  · rw [fits]
    unfold ticksPerSecond
    omega

theorem measure_advances_iff {slave : SlaveConcept σ} {meas : Measure D} :
    Advances (Job.measure slave meas).scheduled ↔ Timed meas.samplingPeriod := by
  constructor
  · intro h
    refine ⟨h.positive, step_of_increasing (t := (Job.measure slave meas).scheduled) rfl ?_⟩
    refine h.increasing 0 0 1 (Int.le_refl 0) (Int.le_refl 0) ?_
    rw [Int.zero_add, Nat.cast_one, Int.one_mul]
    exact ticks_lt _
  · rintro ⟨hpositive, htimed⟩
    have other : (Job.measure slave meas).scheduled.mode ≠ .executeAtMultiplesOfPeriod := nofun
    exact ⟨hpositive, fun hmode => absurd hmode other, fun began finished n hbegan hfinished hn =>
      instants_increasing (Job.measure slave meas).scheduled htimed (fun hmode => absurd hmode other)
        hbegan hfinished hn⟩

/-- What is handed over: nothing, or the jobs of `main` and those of the served measures. -/
theorem handed_cases (fileabs : Bool) (env : Environment D R) (o : Options)
    (configmap : ConfigurationMap D) :
    ((∃ e r, (configureAll (descriptors configmap)).run { outFolder := o.outFolder } = .error e r) ∧
      handed fileabs env o configmap = []) ∨
    ((∃ r, (configureAll (descriptors configmap)).run { outFolder := o.outFolder } = .ok () r) ∧
      handed fileabs env o configmap =
        (ownJobs fileabs o ++ measureJobs (constructed env (descriptors configmap) [])).map
          Job.scheduled) := by
  unfold handed
  rcases setUp_run fileabs env o configmap { outFolder := o.outFolder } with
    ⟨e, r, hconfigure, hrun⟩ | ⟨r, hconfigure, ⟨hrun, _⟩ | ⟨e, hrun, _⟩⟩
  · refine .inl ⟨⟨e, r, hconfigure⟩, ?_⟩
    rw [hrun]
  · refine .inr ⟨⟨r, hconfigure⟩, ?_⟩
    rw [hrun]
  · refine .inr ⟨⟨r, hconfigure⟩, ?_⟩
    rw [hrun]

omit [Doubles D] in
theorem inheritPeriod_timed (server : ModbusServer) (m : Measure D) :
    Timed (inheritPeriod server m).samplingPeriod ↔ TimedPeriod server m := by
  unfold inheritPeriod TimedPeriod
  split_ifs <;> rfl

theorem constructed_subset (env : Environment D R) (descs : List (MeasConfig.Descriptor D))
    (slaves : List ℤ) : (constructed env descs slaves).map Prod.snd ⊆ descs := by
  induction descs generalizing slaves with
  | nil => exact List.Subset.refl _
  | cons el rest ih =>
    unfold constructed
    cases makeSlave env slaves el.server el.measures with
    | error e => exact List.nil_subset _
    | ok slave =>
      rw [List.map_cons]
      exact List.cons_subset_cons _ (ih _)

omit [Doubles D] in
theorem mem_descriptors {descs : List (MeasConfig.Descriptor D)} {configmap : ConfigurationMap D}
    (h : insertAll descs ∅ = .ok configmap) (kept : MeasConfig.Descriptor D) :
    kept ∈ descriptors configmap ↔
      ∃ desc ∈ descs, desc.server.enabled = true ∧ effective desc = kept := by
  have mem := insertAll_mem h kept
  rw [descriptors, List.mem_map]
  constructor
  · rintro ⟨⟨id, desc⟩, hmem, rfl⟩
    have found := TreeMap.mem_toList_iff_getElem?_eq_some.mp hmem
    rcases mem.mp ⟨id, found⟩ with ⟨_, hnone⟩ | hdesc
    · simp at hnone
    · exact hdesc
  · intro hdesc
    obtain ⟨id, found⟩ := mem.mpr (.inr hdesc)
    exact ⟨(id, kept), TreeMap.mem_toList_iff_getElem?_eq_some.mpr found, rfl⟩

/-- The periods of the served measures are those of the file, with the zeros replaced. -/
theorem served_timed_iff {descs : List (MeasConfig.Descriptor D)}
    {configmap : ConfigurationMap D} (hinsert : insertAll descs ∅ = .ok configmap)
    (env : Environment D R) :
    (∀ slave kept, (slave, kept) ∈ constructed env (descriptors configmap) [] →
      ∀ meas ∈ kept.measures, Timed meas.samplingPeriod) ↔
    ∀ desc ∈ descs, desc.server.enabled = true → effective desc ∈ served env configmap →
      ∀ m ∈ desc.measures, m.enabled = true → TimedPeriod desc.server m := by
  constructor
  · intro htimed desc _ _ hserved m hm henabled
    obtain ⟨⟨slave, kept⟩, hslave, hkept⟩ := List.mem_map.mp hserved
    change kept = effective desc at hkept
    subst hkept
    rw [← inheritPeriod_timed]
    exact htimed slave _ hslave _ (mem_effective.mpr ⟨m, hm, henabled, rfl⟩)
  · intro htimed slave kept hslave meas hmeas
    have hserved : kept ∈ served env configmap := List.mem_map_of_mem hslave
    obtain ⟨desc, hdesc, henabled, rfl⟩ :=
      (mem_descriptors hinsert kept).mp (constructed_subset env _ [] hserved)
    obtain ⟨m, hm, hmenabled, rfl⟩ := mem_effective.mp hmeas
    rw [inheritPeriod_timed]
    exact htimed desc hdesc henabled hserved m hm hmenabled

theorem jobs_advance_iff {o : Options} (hbounded : o.Bounded) (fileabs : Bool)
    (servers : List (SlaveConcept σ × MeasConfig.Descriptor D)) :
    AllAdvance ((ownJobs fileabs o ++ measureJobs servers).map Job.scheduled) ↔
      0 < o.reportingPeriod ∧ ∀ slave kept, (slave, kept) ∈ servers →
        ∀ meas ∈ kept.measures, Timed meas.samplingPeriod := by
  constructor
  · intro hadvance
    constructor
    · refine (hadvance (Job.report o.reportingPeriod).scheduled ?_ (fun h => by cases h)).positive
      exact List.mem_map_of_mem (by simp [ownJobs])
    · intro slave kept hslave meas hmeas
      refine measure_advances_iff.mp (hadvance (Job.measure slave meas).scheduled ?_
        (fun h => by cases h))
      exact List.mem_map_of_mem (List.mem_append_right _ (mem_measureJobs.mpr
        ⟨slave, kept, hslave, meas, hmeas, rfl⟩))
  · rintro ⟨hreport, hmeasures⟩ t ht hmode
    obtain ⟨job, hjob, rfl⟩ := List.mem_map.mp ht
    rcases List.mem_append.mp hjob with hown | hmeasure
    · rcases mem_ownJobs hown with rfl | rfl
      · exact report_advances hbounded hreport
      · exact absurd rfl hmode
    · obtain ⟨slave, kept, hslave, meas, hmeas, rfl⟩ := mem_measureJobs.mp hmeasure
      exact measure_advances_iff.mpr (hmeasures slave kept hslave meas hmeas)

/-- Every interval that is handed over is positive, with its consequences, exactly when the
    periods that it is taken from are and the timer can hold them. -/
theorem intervals_positive_iff {args : List (Char × String)} {o : Options}
    {document : Except Exception (Json D)} {errno errno' errno1 : Errno}
    {descs : List (MeasConfig.Descriptor D)} {configmap : ConfigurationMap D}
    (haccepted : measureMode args = .ok o)
    (hread : (readConfig document).run errno = .ok configmap errno')
    (hdecode : (decode document).run errno = .ok descs errno1) (fileabs : Bool)
    (env : Environment D R) :
    AllAdvance (handed fileabs env o configmap) ↔
      ¬ (measureKeys (descriptors configmap)).Nodup ∨ PositivePeriods env o descs configmap := by
  obtain ⟨_, _, hdecode', hinsert⟩ := readConfig_ok hread
  cases hdecode'.symm.trans hdecode
  have throws := configureAll_throws_iff (descriptors configmap) o.outFolder
  rcases handed_cases fileabs env o configmap with ⟨hthrows, hnone⟩ | ⟨⟨r, hconfigured⟩, hall⟩
  · rw [hnone]
    constructor
    · exact fun _ => .inl (throws.mp hthrows)
    · intro _ t ht
      cases ht
  · have distinct : ¬ ¬ (measureKeys (descriptors configmap)).Nodup := by
      intro hduplicate
      obtain ⟨e, r', hthrows⟩ := throws.mpr hduplicate
      rw [hthrows] at hconfigured
      cases hconfigured
    rw [hall, or_iff_right distinct, jobs_advance_iff (measureMode_bounded haccepted),
      served_timed_iff hinsert]
    exact ⟨fun h => ⟨h.1, h.2⟩, fun h => ⟨h.report, h.measures⟩⟩

/-- One random server and one measure, neither with a sampling period of its own. -/
def plainDocument : Except Exception (Json Float) := .ok (.array [.object [
  ("server", .object [("modbus_id", .integer 1), ("name", .string "tank")]),
  ("measures", .array [.object [("name", .string "level"), ("source", .object [
    ("address", .integer 0), ("endianess", .string "little"), ("reg_type", .string "holding"),
    ("value_type", .string "UINT16"), ("random_mean_dev", .string "20:1")])]])]])

def plainDescriptor : MeasConfig.Descriptor Float where
  server := { modbusId := 1, name := "tank" }
  measures := [
    { name := "level"
      source :=
        { address := 0
          endianess := .little
          regType := .holding
          valueType := .uint16
          minReadValue := .unsigned 0
          maxReadValue := .unsigned 65535
          scaleFactor := Doubles.ofInt 1
          randomMeanDev := "20:1" } }]

theorem decode_plain : (decode plainDocument).run .other = .ok [plainDescriptor] .other := by
  rfl

theorem intervals_positive_plain : ∃ configmap,
    (readConfig plainDocument).run .other = .ok configmap .other ∧
    ∀ env : Environment Float Unit, AllAdvance
      (handed false env { mode := .measScheduler, measconfigFile := "measures.json" } configmap) := by
  have accepted : measureMode [('m', "measures.json")] =
    .ok { mode := .measScheduler, measconfigFile := "measures.json" } := rfl
  have read : ∃ configmap, (readConfig plainDocument).run .other = .ok configmap .other := ⟨_, rfl⟩
  obtain ⟨configmap, hread⟩ := read
  refine ⟨configmap, hread, fun env => ?_⟩
  refine (intervals_positive_iff accepted hread decode_plain false env).mpr (.inr ⟨by decide, ?_⟩)
  intro desc hdesc _ _ m hm _
  rw [List.mem_singleton.mp hdesc, plainDescriptor, List.mem_singleton] at hm
  rw [List.mem_singleton.mp hdesc, hm]
  exact timed_of_le (by decide) (by decide)

def zeroOptions : Options :=
  { mode := .measScheduler, measconfigFile := "measures.json", reportingPeriod := 0 }

/-- `-r 0` is accepted, and the report task divides by it. -/
theorem intervals_zero_fail :
    measureMode [('m', "measures.json"), ('r', "0")] = .ok zeroOptions ∧
    ∃ configmap, (readConfig plainDocument).run .other = .ok configmap .other ∧
    ∀ env : Environment Float Unit, ∃ t ∈ handed false env zeroOptions configmap,
      t.mode = .executeAtMultiplesOfPeriod ∧ t.multiple = 0 ∧ ¬ Advances t := by
  have read : ∃ configmap, (readConfig plainDocument).run .other = .ok configmap .other ∧
    ∃ r, (configureAll (descriptors configmap)).run { outFolder := "/tmp" } = .ok () r :=
    ⟨_, rfl, _, rfl⟩
  obtain ⟨configmap, hread, r, hconfigured⟩ := read
  refine ⟨by decide +kernel, configmap, hread, fun env => ?_⟩
  rcases handed_cases false env zeroOptions configmap with ⟨⟨e, r', hthrows⟩, _⟩ | ⟨_, hall⟩
  · exact absurd (hconfigured.symm.trans hthrows) (by simp)
  · rw [hall]
    refine ⟨(Job.report 0).scheduled, List.mem_map_of_mem (by simp [ownJobs, zeroOptions]), rfl,
      rfl, ?_⟩
    intro hadvances
    cases hadvances.positive

end ModbusCrawler.TaskIntervals
