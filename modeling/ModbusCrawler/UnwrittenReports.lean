import ModbusCrawler.ReporterHistory

set_option autoImplicit false

/-!
# Reports that are not written

`close_period` opens its file first and writes to it last. It never asks the
stream, so what it does to the reporter does not depend on the disk.
-/
namespace ModbusCrawler.UnwrittenReports
open ModbusTypes NestedMap MeasReporter ReporterHistory

variable {D : Type} [Doubles D]

/-- The `std::ofstream` of one path: whether it opens, and how many characters it takes. -/
structure OutFile where
  opens : Bool
  room : ℕ

/-- What `os << text` leaves in the file. -/
def OutFile.store (file : OutFile) (text : String) : Option (List Char) :=
  if file.opens then some (text.toList.take file.room) else none

/-- `close_period` with the file it writes; `dump` is `json::dump(2)`. -/
def closePeriodOn (disk : String → OutFile) (dump : PeriodReport D → String) (r : Reporter D)
    (now : ℤ) : Option (List Char) × Reporter D :=
  let ((path, report), r) := closePeriod r now
  ((disk path).store (dump report ++ "\n"), r)

def Written (disk : String → OutFile) (dump : PeriodReport D → String) (r : Reporter D)
    (now : ℤ) : Prop :=
  (closePeriodOn disk dump r now).1 = some (dump (closePeriod r now).1.2 ++ "\n").toList

theorem written_iff {disk : String → OutFile} {dump : PeriodReport D → String} {r : Reporter D}
    {now : ℤ} : Written disk dump r now ↔ (disk (closePeriod r now).1.1).opens = true ∧
      (dump (closePeriod r now).1.2 ++ "\n").length ≤ (disk (closePeriod r now).1.1).room := by
  unfold Written closePeriodOn
  generalize closePeriod r now = closed
  obtain ⟨⟨path, report⟩, _⟩ := closed
  change (disk path).store _ = _ ↔ _
  unfold OutFile.store
  split_ifs with hopens
  · rw [Option.some.injEq, List.take_eq_self_iff, String.length_toList]
    exact (and_iff_right hopens).symm
  · exact ⟨nofun, fun h => absurd h.1 hopens⟩

def after (r : Reporter D) (calls : List (Call D)) : Reporter D :=
  calls.foldl (fun r call => (call.perform r).2) r

/-- A report that is not written takes nothing away: it is as if the period had gone on. -/
structure KeepsUnwritten (disk : String → OutFile) (dump : PeriodReport D → String)
    (r : Reporter D) (now : ℤ) : Prop where
  kept : ¬ Written disk dump r now → ∀ key, (closePeriodOn disk dump r now).2.find key = r.find key
  appears : ¬ Written disk dump r now → ∀ later now' key entry,
    (key, entry) ∈ (closePeriod (after (closePeriodOn disk dump r now).2 later) now').1.2.entries ↔
      (key, entry) ∈ (closePeriod (after r later) now').1.2.entries
  reset : Written disk dump r now → ∀ key,
    (closePeriodOn disk dump r now).2.find key = (r.find key).map Result.reset

/-- Nothing that `reset` would take away. -/
structure Bare (data : Data D) : Prop where
  samples : data.samples = []
  readFailures : data.periodReadFailures = 0
  underflows : data.periodUnderflows = 0
  overflows : data.periodOverflows = 0
  statistics : data.statistics = {}

theorem reset_eq_self_iff (data : Data D) : data.reset = data ↔ Bare data := by
  constructor
  · intro h
    rw [← h]
    exact ⟨rfl, rfl, rfl, rfl, rfl⟩
  · rintro ⟨hsamples, hreadFailures, hunderflows, hoverflows, hstatistics⟩
    cases data
    simp only [Data.reset] at *
    rw [hsamples, hreadFailures, hunderflows, hoverflows, hstatistics]

/-- What a call does to the results, seen as a function of the key. -/
def findAfter (find : Key → Option (Result D)) : Call D → Key → Option (Result D)
  | .configure key descriptor, other =>
    if key = other ∧ find key = none then some { descriptor := descriptor } else find other
  | .add key now value sampleType, other =>
    if key = other then (find other).map (fun result =>
      { result with data := result.data.add now value sampleType })
    else find other
  | .close _, other => (find other).map Result.reset

theorem perform_find (r : Reporter D) (call : Call D) :
    (call.perform r).2.find = findAfter r.find call := by
  funext other
  cases call with
  | configure key descriptor =>
    obtain ⟨r', _, _, ⟨hnone, hrun, hfind⟩ | ⟨hsome, hrun, hfind⟩⟩ :=
      configureMeasurement_run r key descriptor
    · rw [Call.perform, returned_ok hrun, hfind, findAfter]
      simp only [hnone, and_true]
    · have there : ¬ (key = other ∧ r.find key = none) := by
        rintro ⟨_, hnone⟩
        rw [hnone] at hsome
        cases hsome
      rw [Call.perform, returned_error hrun, hfind, findAfter, if_neg there]
  | add key now value sampleType =>
    obtain ⟨r', _, _, _, hrun, hfind⟩ | ⟨e, hnone, hrun⟩ :=
      addMeasurement_run r key now value sampleType
    · rw [Call.perform, returned_ok hrun, hfind, findAfter]
    · rw [Call.perform, returned_error hrun, findAfter]
      by_cases hkey : key = other
      · subst hkey
        rw [if_pos rfl, hnone]
        rfl
      · rw [if_neg hkey]
  | close now => exact closePeriod_find r now other

theorem after_find (r : Reporter D) (calls : List (Call D)) :
    (after r calls).find = calls.foldl findAfter r.find := by
  induction calls generalizing r with
  | nil => rfl
  | cons call calls ih =>
    change (after (call.perform r).2 calls).find = calls.foldl findAfter (findAfter r.find call)
    rw [ih, perform_find]

/-- Reports depend on the results only. -/
theorem entries_congr {r r' : Reporter D} (h : r'.find = r.find) (now : ℤ) (key : Key)
    (entry : MeasureReport D) : (key, entry) ∈ (closePeriod r' now).1.2.entries ↔
      (key, entry) ∈ (closePeriod r now).1.2.entries := by
  rw [mem_closePeriod_entries, mem_closePeriod_entries, h]

theorem reset_keeps_iff (r : Reporter D) (now : ℤ) :
    (∀ key, (closePeriod r now).2.find key = r.find key) ↔
      ∀ key result, r.find key = some result → Bare result.data := by
  constructor
  · intro h key result hresult
    have kept := h key
    rw [closePeriod_find, hresult, Option.map_some] at kept
    rw [← reset_eq_self_iff]
    exact congrArg Result.data (Option.some.inj kept)
  · intro h key
    rw [closePeriod_find]
    cases hresult : r.find key with
    | none => rfl
    | some result =>
      have bare := (reset_eq_self_iff result.data).mpr (h key result hresult)
      rw [Option.map_some, Result.reset, bare]

theorem keepsUnwritten_iff (disk : String → OutFile) (dump : PeriodReport D → String)
    (r : Reporter D) (now : ℤ) : KeepsUnwritten disk dump r now ↔
      Written disk dump r now ∨ ∀ key result, r.find key = some result → Bare result.data := by
  constructor
  · intro h
    by_cases hwritten : Written disk dump r now
    · exact .inl hwritten
    · exact .inr ((reset_keeps_iff r now).mp (h.kept hwritten))
  · intro h
    have kept (hunwritten : ¬ Written disk dump r now) :=
      (reset_keeps_iff r now).mpr (h.resolve_left hunwritten)
    refine ⟨kept, ?_, fun _ => closePeriod_find r now⟩
    intro hunwritten later now' key entry
    apply entries_congr
    have same : (closePeriod r now).2.find = r.find := funext (kept hunwritten)
    rw [after_find, after_find]
    exact congrArg (fun find => later.foldl findAfter find) same

def collected : Result Float where
  descriptor := ⟨5, false, true⟩
  data := { samples := [(946684800, Doubles.ofInt 5)] }

def oneSample : Reporter Float :=
  after { outFolder := "/tmp" } [.configure (⟨"tank", 1⟩, "level") ⟨5, false, true⟩,
    .add (⟨"tank", 1⟩, "level") 946684800 (Doubles.ofInt 5) .regular]

def closedDisk : String → OutFile := fun _ => { opens := false, room := 0 }

/-- The sample is neither in a file nor in the reporter any more. -/
theorem unwritten_sample_lost :
    (closePeriodOn closedDisk (fun _ => "{}") oneSample 946684860).1 = none ∧
    oneSample.find (⟨"tank", 1⟩, "level") = some collected ∧
    (closePeriodOn closedDisk (fun _ => "{}") oneSample 946684860).2.find (⟨"tank", 1⟩, "level") =
      some collected.reset ∧ collected.reset.data.samples = [] ∧
    ¬ KeepsUnwritten closedDisk (fun _ => "{}") oneSample 946684860 := by
  have before : oneSample.find (⟨"tank", 1⟩, "level") = some collected := by
    rw [oneSample, after_find]
    rfl
  refine ⟨rfl, before, ?_, rfl, ?_⟩
  · change (closePeriod oneSample 946684860).2.find _ = _
    rw [closePeriod_find, before]
    rfl
  · intro h
    have unwritten : ¬ Written closedDisk (fun _ => "{}") oneSample 946684860 := fun hwritten =>
      Bool.false_ne_true (written_iff.mp hwritten).1
    have bare := (reset_keeps_iff oneSample 946684860).mp (h.kept unwritten)
    cases (bare _ _ before).samples

end ModbusCrawler.UnwrittenReports
