import ModbusCrawler.Classification
import ModbusCrawler.Thresholds

set_option autoImplicit false

/-!
# When a measurement counts as a read failure

The thresholds of an accepted source always have the tag that the task of
`add_schedule` asks them for, so a read that succeeds is never a failure.
-/
namespace ModbusCrawler.ReadFailures
open FailStop ModbusTypes ModbusSlave MeasConfig MeasReporter MeasExecutor Classification Thresholds

variable {σ D R : Type}

theorem fits_iff {vt : ValueType} {value : Suval} : value.Fits vt ↔
    taggedSigned value = valueSigned vt ∧ InRange vt (mathValue value) := by
  cases value with
  | signed sval =>
    constructor
    · rintro ⟨hsigned, hrange⟩
      exact ⟨hsigned.symm, hrange⟩
    · rintro ⟨htag, hrange⟩
      exact ⟨htag.symm, hrange⟩
  | unsigned uval =>
    constructor
    · rintro ⟨hsigned, hmax⟩
      refine ⟨hsigned.symm, ?_, hmax⟩
      rw [numericMin_unsigned hsigned]
      exact Int.natCast_nonneg _
    · rintro ⟨htag, hrange⟩
      exact ⟨htag.symm, hrange.2⟩

/-- Both decodings know the sizes that the test lets through. -/
theorem toVal_supported {regsize : ℤ} (h : regsizeSupported regsize = true)
    (endianess : WordEndianess) (regs : List UInt16) : ∃ val, toVal endianess regs regsize = some val := by
  have sizes : regsize = 1 ∨ regsize = 2 ∨ regsize = 4 := by
    simpa [regsizeSupported, or_assoc] using h
  rcases sizes with rfl | rfl | rfl <;> cases endianess <;> exact ⟨_, rfl⟩

variable [Doubles D]

/-- The read throws nothing. -/
def Succeeds (slave : SlaveConcept σ) (source : SourceRegister D) (sources : σ) : Prop :=
  ∃ val sources', (readRegister slave source).run sources = .ok val sources'

omit [Doubles D] in
/-- Whatever words the device stores, and however many. -/
theorem answered_succeeds {device : Device} {log : Log Request Reply} {source : SourceRegister D}
    (hvalid : source.valueType ≠ .invalid)
    (hanswered : (device log (readRequest source)).apiRv.toInt = regSize source.valueType)
    (id : ℤ) (name : String) : Succeeds (RTUSlave.concept device id name) source log := by
  obtain ⟨val, hval⟩ := toVal_supported (regSize_accepted hvalid) source.endianess
    (device log (readRequest source)).regs
  exact ⟨val, _, readRegister_run hvalid hanswered hval id name⟩

omit [Doubles D] in
theorem succeeds_rtuSource {slave : SlaveConcept (Log Request Reply)} {source : SourceRegister D}
    {sources : Sources R} (h : Succeeds slave source (sources.connection slave.id)) :
    Succeeds (rtuSource slave : SlaveConcept (Sources R)) source sources := by
  obtain ⟨val, log, hrun⟩ := h
  have onBus := onConnection_ok hrun
  rw [← readRegister_rtuSource] at onBus
  exact ⟨val, _, onBus⟩

theorem outcome_ne_readFailure (n low high : ℤ) (scaleFactor : D) :
    (outcome n low high scaleFactor).1 ≠ .readFailure := by
  unfold outcome
  split_ifs <;> exact nofun

theorem classify_ok {source : SourceRegister D} (hmin : source.minReadValue.Fits source.valueType)
    (hmax : source.maxReadValue.Fits source.valueType) (val : Int64) :
    ∃ result, classify source val = .ok result ∧ result.1 ≠ .readFailure :=
  ⟨_, classify_outcome hmin hmax val, outcome_ne_readFailure _ _ _ _⟩

/-- The `try` block ends without its handler. -/
theorem measure_ok {slave : SlaveConcept σ} {source : SourceRegister D} {sources : σ}
    (hmin : source.minReadValue.Fits source.valueType)
    (hmax : source.maxReadValue.Fits source.valueType) (h : Succeeds slave source sources) :
    (MeasExecutor.measure slave source sources).1.1 ≠ .readFailure := by
  obtain ⟨val, sources', hrun⟩ := h
  obtain ⟨result, hresult, hother⟩ := classify_ok hmin hmax val
  unfold MeasExecutor.measure
  rw [hrun]
  dsimp only
  rw [hresult]
  exact hother

/-- The read failures of a measure, over the period and over the run. -/
def readFailures (system : System σ D) (key : Key) : Option (ℕ × ℕ) :=
  (system.reporter.find key).map (fun result =>
    (result.data.periodReadFailures, result.data.totalReadFailures))

theorem measTask_readFailures {slave : SlaveConcept σ} {meas : Measure D} {nowsecs : ℤ}
    {system system' : System σ D}
    (hother : (MeasExecutor.measure slave meas.source system.sources).1.1 ≠ .readFailure)
    (hrun : (measTask slave meas nowsecs).run system = .ok () system') (key : Key) :
    readFailures system' key = readFailures system key := by
  unfold readFailures
  rcases measTask_cases slave meas nowsecs system with ⟨system1, hok, _, _, hfind⟩ | ⟨_, e, _, herror⟩
  · rw [hok] at hrun
    cases hrun
    rw [hfind]
    split_ifs
    · cases hresult : system.reporter.find key with
      | none => rfl
      | some result =>
        generalize (MeasExecutor.measure slave meas.source system.sources).1 = measured at hother
        obtain ⟨sampleType, value⟩ := measured
        cases sampleType with
        | readFailure => exact absurd rfl hother
        | _ => rfl
    · rfl
  · rw [herror] at hrun
    cases hrun

/-- What an accepted source promises: thresholds of its type, a size that the slave takes, and
    so no read failure but for a read that fails. -/
structure NeverFails (source : SourceRegister D) : Prop where
  minTag : taggedSigned source.minReadValue = valueSigned source.valueType
  maxTag : taggedSigned source.maxReadValue = valueSigned source.valueType
  minRange : InRange source.valueType (mathValue source.minReadValue)
  maxRange : InRange source.valueType (mathValue source.maxReadValue)
  size : regsizeSupported (regSize source.valueType) = true
  answered : ∀ {R : Type} (device : Device) (id : ℤ) (name : String) (sources : Sources R),
    (device (sources.connection id) (readRequest source)).apiRv.toInt = regSize source.valueType →
      Succeeds (rtuSource (RTUSlave.concept device id name)) source sources
  classified : ∀ val, ∃ result, classify source val = .ok result ∧ result.1 ≠ .readFailure
  scheduled : ∀ {σ : Type} (slave : SlaveConcept σ) (measures : List (Measure D)) (i : ℕ)
    (meas : Measure D), measures[i]? = some meas → meas.source = source →
    ∃ t, (addSchedule slave measures [])[i]? = some t ∧
      ∀ nowsecs (system system' : System σ D), Succeeds slave source system.sources →
        (t.task nowsecs).run system = .ok () system' →
        ∀ key, readFailures system' key = readFailures system key

theorem sourceFromJson_neverFails {j : Json D} {source : SourceRegister D} {errno errno' : Errno}
    (haccepted : (sourceFromJson j).run errno = .ok source errno') : NeverFails source := by
  obtain ⟨_, _, hvalid, hmin, hmax⟩ := sourceFromJson_ok haccepted
  obtain ⟨minTag, minRange⟩ := fits_iff.mp hmin
  obtain ⟨maxTag, maxRange⟩ := fits_iff.mp hmax
  refine ⟨minTag, maxTag, minRange, maxRange, regSize_accepted hvalid, ?_, classify_ok hmin hmax, ?_⟩
  · intro R device id name sources hanswered
    exact succeeds_rtuSource (answered_succeeds hvalid hanswered id name)
  · intro σ slave measures i meas hmeas hsource
    subst hsource
    refine ⟨_, by rw [addSchedule_eq, List.nil_append, List.getElem?_map, hmeas, Option.map_some], ?_⟩
    intro nowsecs system system' hread hrun key
    exact measTask_readFailures (measure_ok hmin hmax hread) hrun key

theorem wordSource_neverFails : NeverFails wordMeasure.source :=
  sourceFromJson_neverFails wordSource_accepted

end ModbusCrawler.ReadFailures
