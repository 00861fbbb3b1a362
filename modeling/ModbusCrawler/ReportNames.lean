import ModbusCrawler.CrawlerMain

set_option autoImplicit false

/-!
# The files of the reports

Which names `close_period` gives to the reports of a run, and what its folder then
holds.
-/
namespace ModbusCrawler.ReportNames
open Infra ModbusTypes MeasReporter MeasExecutor PeriodicScheduler CrawlerMain

variable {D : Type} [Doubles D]

/-- A folder after one more file: a file of the same name is truncated. -/
def store {α : Type} (files : List (String × α)) (file : String × α) : List (String × α) :=
  files.filter (fun other => other.1 ≠ file.1) ++ [file]

def held {α : Type} (written : List (String × α)) : List (String × α) := written.foldl store []

def closings (reporters : List (Reporter D)) (instants : List ℤ) : List (String × PeriodReport D) :=
  List.zipWith (fun r now => (closePeriod r now).1) reporters instants

def reportName (outFolder : String) (now : ℤ) : String :=
  outFolder ++ "/" ++ toCompactString now ++ ".json"

/-- The files of every run of the "ReportGenerator" that closes as many periods as there are
    reporters, at its first instant and then one period apart. -/
def reportFiles (o : Options) (began finished : ℤ) (reporters : List (Reporter D)) :
    List (String × PeriodReport D) :=
  closings reporters
    ((Job.report o.reportingPeriod : Job Unit D).scheduled.nominal began finished reporters.length)

theorem foldl_store {α : Type} (files before : List (String × α))
    (h : ((before ++ files).map Prod.fst).Nodup) : files.foldl store before = before ++ files := by
  induction files generalizing before with
  | nil => simp
  | cons file rest ih =>
    have new : ∀ other ∈ before, other.1 ≠ file.1 := by
      rw [List.map_append, List.nodup_append] at h
      intro other hother
      exact h.2.2 _ (List.mem_map_of_mem hother) _ (by simp)
    have stored : store before file = before ++ [file] := by
      rw [store, List.filter_eq_self.mpr]
      simpa using new
    rw [List.foldl_cons, stored, ih]
    · simp
    · simpa using h

theorem held_length {α : Type} {written : List (String × α)} (h : (written.map Prod.fst).Nodup) :
    (held written).length = written.length := by
  rw [held, foldl_store written [] h, List.nil_append]

theorem closings_names {reporters : List (Reporter D)} {instants : List ℤ} {outFolder : String}
    (hfolder : ∀ r ∈ reporters, r.outFolder = outFolder)
    (hlength : reporters.length = instants.length) :
    (closings reporters instants).map Prod.fst = instants.map (reportName outFolder) := by
  induction reporters generalizing instants with
  | nil =>
    rw [List.length_nil] at hlength
    rw [List.eq_nil_of_length_eq_zero hlength.symm]
    rfl
  | cons r reporters ih =>
    cases instants with
    | nil => cases hlength
    | cons now instants =>
      have rest := ih (fun r hr => hfolder r (List.mem_cons_of_mem _ hr)) (Nat.succ.inj hlength)
      rw [List.map_cons, ← rest, ← hfolder r (List.mem_cons_self ..)]
      rfl

theorem reportName_eq_iff (outFolder : String) {a b : ℤ} (ha : year2000 ≤ a) (hb : year2000 ≤ b) :
    reportName outFolder a = reportName outFolder b ↔ a / 60 = b / 60 := by
  rw [reportName, reportName, String.append_left_inj, String.append_right_inj,
    toCompactString_eq_iff ha hb]

theorem minutes_lt (first : ℤ) {period : ℤ} (h : 60 ≤ period) {i j : ℕ} (hij : i < j) :
    (first + i * period) / 60 < (first + j * period) / 60 := by
  have apart : (i : ℤ) * period + 60 ≤ j * period := by
    have step : ((i : ℤ) + 1) * period ≤ j * period :=
      Int.mul_le_mul_of_nonneg_right (by omega) (by omega)
    rw [Int.add_mul] at step
    omega
  omega

/-- Of 61 instants less than a minute apart two lie in the same minute. -/
theorem minutes_collide (first : ℤ) {period : ℤ} (hpositive : 0 < period) (h : period < 60) :
    ∃ i : ℕ, i < 60 ∧ (first + i * period) / 60 = (first + (i + 1 : ℕ) * period) / 60 := by
  by_contra hne
  simp only [not_exists, not_and] at hne
  have gain (i : ℕ) (hi : i ≤ 60) : first / 60 + i ≤ (first + i * period) / 60 := by
    induction i with
    | zero => simp
    | succ i ih =>
      have old := ih (by omega)
      have differ := hne i (by omega)
      have later : first + i * period ≤ first + (i + 1 : ℕ) * period := by
        rw [Int.natCast_succ, Int.add_mul]
        omega
      omega
  have hour := gain 60 (Nat.le_refl 60)
  omega

/-- No report of a run takes the place of another: the names differ, and after `n` closings
    the folder holds `n` reports. -/
def NeverOverwritten (D : Type) [Doubles D] (o : Options) (began finished : ℤ) : Prop :=
  ∀ reporters : List (Reporter D), (∀ r ∈ reporters, r.outFolder = o.outFolder) →
    ((reportFiles o began finished reporters).map Prod.fst).Nodup ∧
      (held (reportFiles o began finished reporters)).length = reporters.length

theorem reportFiles_names {o : Options} (hbounded : o.Bounded) (began finished : ℤ)
    {reporters : List (Reporter D)} (hfolder : ∀ r ∈ reporters, r.outFolder = o.outFolder) :
    (reportFiles o began finished reporters).map Prod.fst =
      (List.range reporters.length).map (fun (i : ℕ) => reportName o.outFolder
        (roundedUp (toSeconds began) o.reportingPeriod + i * o.reportingPeriod)) := by
  have instants := nominal_aligned (Job.report o.reportingPeriod : Job Unit D).scheduled rfl began
    finished reporters.length
  rw [report_multiple hbounded] at instants
  have length : reporters.length = ((Job.report o.reportingPeriod : Job Unit D).scheduled.nominal
      began finished reporters.length).length := by simp [instants]
  rw [reportFiles, closings_names hfolder length, instants, List.map_map]
  rfl

/-- While 64 bits hold them, these are the instants that the scheduler calls the task at. -/
theorem reportFiles_instants {o : Options} (hbounded : o.Bounded) (hpositive : 0 < o.reportingPeriod)
    {began finished : ℤ} (hbegan : 0 ≤ began) (hfinished : began ≤ finished)
    {reporters : List (Reporter D)}
    (hfits : finished + reporters.length * (o.reportingPeriod * ticksPerSecond) < 2^63) :
    reportFiles o began finished reporters = closings reporters
      ((Job.report o.reportingPeriod : Job Unit D).scheduled.instants began finished
        reporters.length) := by
  have instants := instants_eq_nominal (Job.report o.reportingPeriod : Job Unit D).scheduled
    (fun _ => report_multiple hbounded) hpositive hbegan hfinished hfits
  rw [reportFiles, instants]

theorem instant_ge {o : Options} {began : ℤ} (hpositive : 0 < o.reportingPeriod)
    (hstart : year2000 ≤ toSeconds began) (i : ℕ) :
    year2000 ≤ roundedUp (toSeconds began) o.reportingPeriod + i * o.reportingPeriod := by
  have first := roundedUp_ge (toSeconds began) hpositive
  have later : 0 ≤ (i : ℤ) * o.reportingPeriod := Int.mul_nonneg (by omega) (by omega)
  omega

/-- Reports are kept exactly when the period is at least a minute, the resolution of the
    names. -/
theorem reports_kept_iff {args : List (Char × String)} {o : Options}
    (haccepted : measureMode args = .ok o) (hpositive : 0 < o.reportingPeriod) {began : ℤ}
    (hstart : year2000 ≤ toSeconds began) (finished : ℤ) :
    NeverOverwritten D o began finished ↔ 60 ≤ o.reportingPeriod := by
  have hbounded := measureMode_bounded haccepted
  have name_eq_iff (i j : ℕ) := reportName_eq_iff o.outFolder (instant_ge hpositive hstart i)
    (instant_ge hpositive hstart j)
  constructor
  · intro hkept
    by_contra hshort
    obtain ⟨i, hi, collide⟩ := minutes_collide (roundedUp (toSeconds began) o.reportingPeriod)
      hpositive (by omega)
    obtain ⟨names, _⟩ := hkept (List.replicate 61 { outFolder := o.outFolder }) (by simp)
    rw [reportFiles_names hbounded began finished (by simp), List.length_replicate] at names
    have same := List.inj_on_of_nodup_map names (List.mem_range.mpr (by omega : i < 61))
      (List.mem_range.mpr (by omega : i + 1 < 61)) ((name_eq_iff i (i + 1)).mpr collide)
    omega
  · intro hlong reporters hfolder
    have names : ((reportFiles o began finished reporters).map Prod.fst).Nodup := by
      rw [reportFiles_names hbounded began finished hfolder]
      refine List.Nodup.map_on ?_ List.nodup_range
      intro i _ j _ hname
      have minute := (name_eq_iff i j).mp hname
      rcases Nat.lt_trichotomy i j with hij | hij | hij
      · have before := minutes_lt (roundedUp (toSeconds began) o.reportingPeriod) hlong hij
        omega
      · exact hij
      · have before := minutes_lt (roundedUp (toSeconds began) o.reportingPeriod) hlong hij
        omega
    refine ⟨names, ?_⟩
    have count := congrArg List.length (reportFiles_names hbounded began finished hfolder)
    rw [List.length_map, List.length_map, List.length_range] at count
    rw [held_length names, count]

theorem reports_kept_default :
    NeverOverwritten Float { mode := .measScheduler, measconfigFile := "measures.json" }
      (fromTimeT 1709210096) (fromTimeT 1709210096) :=
  (reports_kept_iff (show measureMode [('m', "measures.json")] = _ from rfl) (by decide)
    (by rw [toSeconds_fromTimeT (by decide) (by decide)]; decide) _).mpr (by decide)

/-- With `-r 30` the report of 12:35:30 takes the place of the one of 12:35:00. -/
theorem reports_halfMinute_fail :
    measureMode [('m', "measures.json"), ('r', "30")] =
      .ok { mode := .measScheduler, measconfigFile := "measures.json", reportingPeriod := 30 } ∧
    ¬ NeverOverwritten Float
      { mode := .measScheduler, measconfigFile := "measures.json", reportingPeriod := 30 }
      (fromTimeT 1709210096) (fromTimeT 1709210096) := by
  refine ⟨by decide +kernel, fun hkept => ?_⟩
  obtain ⟨names, _⟩ := hkept (List.replicate 2 { outFolder := "/tmp" }) (by simp)
  rw [reportFiles_names ⟨by decide, by decide⟩ _ _ (by simp),
    toSeconds_fromTimeT (by decide) (by decide)] at names
  have same := List.inj_on_of_nodup_map names (List.mem_range.mpr (by decide : 0 < 2))
    (List.mem_range.mpr (by decide : 1 < 2)) (by decide +kernel)
  cases same

end ModbusCrawler.ReportNames
