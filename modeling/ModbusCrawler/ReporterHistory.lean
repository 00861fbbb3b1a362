import Mathlib.Data.List.Induction
import ModbusCrawler.ExactStatistics

set_option autoImplicit false

/-!
# What a reporter accounts for

Runs of the three calls in any order, and each report against the calls that
returned before it.
-/
namespace ModbusCrawler.ReporterHistory
open ModbusTypes NestedMap MeasReporter
open ExactStatistics (Value doubles valid statsOf calculateStats_valid)

variable {D : Type}

inductive Call (D : Type) where
  | configure (key : Key) (descriptor : Descriptor)
  | add (key : Key) (now : ℤ) (value : D) (sampleType : SampleType)
  | close (now : ℤ)

def Call.isClose : Call D → Bool
  | .close _ => true
  | _ => false

def sinceClose (calls : List (Call D)) : List (Call D) :=
  calls.foldl (fun since call => if call.isClose then [] else since ++ [call]) []

def configuredWith (key : Key) (calls : List (Call D)) : Option Descriptor :=
  calls.findSome? (fun call => match call with
    | .configure key' descriptor => if key' = key then some descriptor else none
    | _ => none)

def Call.outcomeOf (key : Key) : Call D → Option (SampleType × ℤ × D)
  | .add key' now value sampleType => if key' = key then some (sampleType, now, value) else none
  | _ => none

def regularSamples (key : Key) (calls : List (Call D)) : Samples D :=
  calls.filterMap (fun call => match call.outcomeOf key with
    | some (.regular, sample) => some sample
    | _ => none)

def outcomes (key : Key) (sampleType : SampleType) (calls : List (Call D)) : ℕ :=
  calls.countP (fun call => (call.outcomeOf key).map Prod.fst = some sampleType)

theorem sinceClose_append (calls : List (Call D)) (call : Call D) :
    sinceClose (calls ++ [call]) = if call.isClose then [] else sinceClose calls ++ [call] := by
  simp [sinceClose]

theorem sinceClose_subset (calls : List (Call D)) : sinceClose calls ⊆ calls := by
  induction calls using List.reverseRecOn with
  | nil => exact List.Subset.refl _
  | append_singleton calls call ih =>
    rw [sinceClose_append]
    split_ifs
    · exact List.nil_subset _
    · exact List.append_subset.mpr ⟨fun c hc => List.mem_append_left _ (ih hc),
        List.subset_append_right _ _⟩

theorem configuredWith_append (key : Key) (calls : List (Call D)) (call : Call D) :
    configuredWith key (calls ++ [call]) = (configuredWith key calls).or (configuredWith key [call]) := by
  simp [configuredWith, List.findSome?_append]

theorem configuredWith_other {key : Key} {call : Call D} (calls : List (Call D))
    (h : configuredWith key [call] = none) :
    configuredWith key (calls ++ [call]) = configuredWith key calls := by
  rw [configuredWith_append, h, Option.or_none]

theorem outcomes_append (key : Key) (sampleType : SampleType) (calls : List (Call D)) (call : Call D) :
    outcomes key sampleType (calls ++ [call]) =
      outcomes key sampleType calls + outcomes key sampleType [call] := List.countP_append

theorem regularSamples_append (key : Key) (calls : List (Call D)) (call : Call D) :
    regularSamples key (calls ++ [call]) = regularSamples key calls ++ regularSamples key [call] :=
  List.filterMap_append

theorem outcomes_silent {key : Key} {calls : List (Call D)}
    (h : ∀ call ∈ calls, call.outcomeOf key = none) (sampleType : SampleType) :
    outcomes key sampleType calls = 0 := by
  refine List.countP_eq_zero.mpr fun call hcall => ?_
  simp [h call hcall]

theorem regularSamples_silent {key : Key} {calls : List (Call D)}
    (h : ∀ call ∈ calls, call.outcomeOf key = none) : regularSamples key calls = [] := by
  refine List.filterMap_eq_nil_iff.mpr fun call hcall => ?_
  simp [h call hcall]

theorem silent_append {key : Key} {calls : List (Call D)} {call : Call D}
    (h : ∀ old ∈ calls, old.outcomeOf key = none) (hcall : call.outcomeOf key = none) :
    ∀ other ∈ calls ++ [call], other.outcomeOf key = none := by
  intro other hother
  rcases List.mem_append.mp hother with hold | hnew
  · exact h other hold
  · rw [List.mem_singleton.mp hnew]
    exact hcall

theorem regularSamples_length (key : Key) (calls : List (Call D)) :
    (regularSamples key calls).length = outcomes key .regular calls := by
  induction calls with
  | nil => rfl
  | cons call calls ih =>
    unfold regularSamples outcomes at ih ⊢
    rw [List.filterMap_cons, List.countP_cons]
    rcases call.outcomeOf key with _ | ⟨_ | _ | _ | _, sample⟩ <;> simp [ih]

variable [Doubles D]

abbrev Outcome (D : Type) [Doubles D] := Except Exception (Option (PeriodReport D))

def returned : EStateM.Result Exception (Reporter D) Unit → Outcome D × Reporter D
  | .ok _ r => (.ok none, r)
  | .error e r => (.error e, r)

def Call.perform (r : Reporter D) : Call D → Outcome D × Reporter D
  | .configure key descriptor => returned ((configureMeasurement key.1 key.2 descriptor).run r)
  | .add key now value sampleType => returned ((addMeasurement key.1 key.2 now value sampleType).run r)
  | .close now => (.ok (some (closePeriod r now).1.2), (closePeriod r now).2)

def accepted (run : List (Call D × Outcome D)) : List (Call D) :=
  run.filterMap (fun step => match step.2 with
    | .ok _ => some step.1
    | .error _ => none)

def reports (run : List (Call D × Outcome D)) : List (PeriodReport D) :=
  run.filterMap (fun step => match step.2 with
    | .ok report => report
    | .error _ => none)

def expectedData (key : Key) (calls : List (Call D)) : Data D where
  samples := regularSamples key (sinceClose calls)
  totalReadFailures := outcomes key .readFailure calls
  periodReadFailures := outcomes key .readFailure (sinceClose calls)
  totalUnderflows := outcomes key .underflow calls
  periodUnderflows := outcomes key .underflow (sinceClose calls)
  totalOverflows := outcomes key .overflow calls
  periodOverflows := outcomes key .overflow (sinceClose calls)

/-- What a report counts for a key; nothing if it has no entry for it. -/
def periodCount (key : Key) (sampleType : SampleType) (report : PeriodReport D) : ℕ :=
  ((report.entries.find? (fun entry => entry.1 = key)).map
    (fun entry => entry.2.data.period sampleType)).getD 0

/-- The reporter after the calls that returned and the reports it produced. -/
structure Accounts (r : Reporter D) (calls : List (Call D)) (closed : List (PeriodReport D)) : Prop where
  periodId : r.periodId = UInt32.ofNat (calls.countP Call.isClose)
  results : ∀ key, r.find key = (configuredWith key calls).map (fun descriptor =>
    { descriptor := descriptor, data := expectedData key calls })
  silent : ∀ key, configuredWith key calls = none → ∀ call ∈ calls, call.outcomeOf key = none
  sums : ∀ key sampleType, outcomes key sampleType calls =
    (closed.map (periodCount key sampleType)).sum + outcomes key sampleType (sinceClose calls)

theorem returned_ok {result : EStateM.Result Exception (Reporter D) Unit} {r : Reporter D}
    (h : result = .ok () r) : returned result = (.ok none, r) := by rw [h, returned]

theorem returned_error {result : EStateM.Result Exception (Reporter D) Unit} {e : Exception}
    {r : Reporter D} (h : result = .error e r) : returned result = (.error e, r) := by
  rw [h, returned]

theorem expectedData_snoc (key : Key) (calls : List (Call D)) {call : Call D}
    (hclose : call.isClose = false) : expectedData key (calls ++ [call]) =
      { samples := regularSamples key (sinceClose calls) ++ regularSamples key [call]
        totalReadFailures := outcomes key .readFailure calls + outcomes key .readFailure [call]
        periodReadFailures :=
          outcomes key .readFailure (sinceClose calls) + outcomes key .readFailure [call]
        totalUnderflows := outcomes key .underflow calls + outcomes key .underflow [call]
        periodUnderflows :=
          outcomes key .underflow (sinceClose calls) + outcomes key .underflow [call]
        totalOverflows := outcomes key .overflow calls + outcomes key .overflow [call]
        periodOverflows :=
          outcomes key .overflow (sinceClose calls) + outcomes key .overflow [call] } := by
  simp only [expectedData, sinceClose_append, hclose, Bool.false_eq_true, if_false,
    regularSamples_append, outcomes_append]

theorem expectedData_other {key : Key} (calls : List (Call D)) {call : Call D}
    (hclose : call.isClose = false) (h : call.outcomeOf key = none) :
    expectedData key (calls ++ [call]) = expectedData key calls := by
  have silent : ∀ other ∈ [call], other.outcomeOf key = none := by simpa using h
  simp only [expectedData_snoc key calls hclose, outcomes_silent silent,
    regularSamples_silent silent, List.append_nil, Nat.add_zero]
  rfl

theorem expectedData_own (key : Key) (calls : List (Call D)) (now : ℤ) (value : D)
    (sampleType : SampleType) : expectedData key (calls ++ [.add key now value sampleType]) =
      (expectedData key calls).add now value sampleType := by
  have counts (other : SampleType) : outcomes key other [.add key now value sampleType] =
      if sampleType = other then 1 else 0 := by
    simp [outcomes, Call.outcomeOf]
  have samples : regularSamples key [.add key now value sampleType] =
      if sampleType = .regular then [(now, value)] else [] := by
    cases sampleType <;> simp [regularSamples, Call.outcomeOf]
  rw [expectedData_snoc key calls rfl]
  cases sampleType <;>
    simp only [counts, samples, reduceCtorEq, if_true, if_false, List.append_nil, Nat.add_zero] <;>
    rfl

theorem expectedData_append (key : Key) (calls : List (Call D)) (call : Call D) :
    expectedData key (calls ++ [call]) =
      match call with
      | .close _ => (expectedData key calls).reset
      | call => match call.outcomeOf key with
        | some (sampleType, now, value) => (expectedData key calls).add now value sampleType
        | none => expectedData key calls := by
  cases call with
  | configure key' descriptor => exact expectedData_other calls rfl rfl
  | close now =>
    simp only [expectedData, sinceClose_append, outcomes_append]
    rfl
  | add key' now value sampleType =>
    by_cases hkey : key' = key
    · subst hkey
      rw [expectedData_own]
      simp [Call.outcomeOf]
    · have other : (Call.add key' now value sampleType).outcomeOf key = none := if_neg hkey
      simp only [expectedData_other calls rfl other, other]

theorem expectedData_silent {key : Key} {calls : List (Call D)}
    (h : ∀ call ∈ calls, call.outcomeOf key = none) : expectedData key calls = {} := by
  have since : ∀ call ∈ sinceClose calls, call.outcomeOf key = none :=
    fun call hcall => h call (sinceClose_subset calls hcall)
  simp [expectedData, outcomes_silent h, outcomes_silent since, regularSamples_silent since]

theorem Accounts.configured {r : Reporter D} {calls : List (Call D)} {closed : List (PeriodReport D)}
    (h : Accounts r calls closed) (key : Key) :
    (configuredWith key calls).isSome = (r.find key).isSome := by
  rw [h.results key, Option.isSome_map]

theorem Accounts.of_find {r r' : Reporter D} {calls : List (Call D)} {closed : List (PeriodReport D)}
    (h : Accounts r calls closed) (hid : r'.periodId = r.periodId)
    (hfind : ∀ key, r'.find key = r.find key) : Accounts r' calls closed :=
  ⟨hid.trans h.periodId, fun key => (hfind key).trans (h.results key), h.silent, h.sums⟩

theorem sums_append {calls : List (Call D)} {closed : List (PeriodReport D)} {call : Call D}
    (hclose : call.isClose = false)
    (h : ∀ key sampleType, outcomes key sampleType calls =
      (closed.map (periodCount key sampleType)).sum + outcomes key sampleType (sinceClose calls)) :
    ∀ key sampleType, outcomes key sampleType (calls ++ [call]) =
      (closed.map (periodCount key sampleType)).sum +
        outcomes key sampleType (sinceClose (calls ++ [call])) := by
  intro key sampleType
  rw [sinceClose_append, hclose, outcomes_append, h key sampleType]
  change _ = _ + outcomes key sampleType (sinceClose calls ++ [call])
  rw [outcomes_append, Nat.add_assoc]

theorem Accounts.configure {r r' : Reporter D} {calls : List (Call D)} {closed : List (PeriodReport D)}
    (h : Accounts r calls closed) {key : Key} {descriptor : Descriptor}
    (hid : r'.periodId = r.periodId) (hnew : r.find key = none)
    (hfind : ∀ other, r'.find other =
      if key = other then some { descriptor := descriptor } else r.find other) :
    Accounts r' (calls ++ [.configure key descriptor]) closed := by
  have unconfigured : configuredWith key calls = none := by
    rw [← Option.isSome_eq_false_iff.trans Option.isNone_iff_eq_none, h.configured, hnew]
    rfl
  refine ⟨?_, fun other => ?_, fun other hother => ?_, sums_append rfl h.sums⟩
  · rw [hid, h.periodId, List.countP_append]
    rfl
  · rw [hfind other, configuredWith_append, expectedData_append]
    by_cases hkey : key = other
    · subst hkey
      rw [if_pos rfl, unconfigured]
      simp [configuredWith, Call.outcomeOf, expectedData_silent (h.silent key unconfigured)]
    · rw [if_neg hkey, h.results other]
      simp [configuredWith, Call.outcomeOf, hkey]
  · rw [configuredWith_append, Option.or_eq_none_iff] at hother
    exact silent_append (h.silent other hother.1) rfl

theorem Accounts.add {r r' : Reporter D} {calls : List (Call D)} {closed : List (PeriodReport D)}
    (h : Accounts r calls closed) {key : Key} {now : ℤ} {value : D} {sampleType : SampleType}
    (hid : r'.periodId = r.periodId) (hthere : (r.find key).isSome)
    (hfind : ∀ other, r'.find other = if key = other then (r.find other).map (fun result =>
      { result with data := result.data.add now value sampleType }) else r.find other) :
    Accounts r' (calls ++ [.add key now value sampleType]) closed := by
  have there : (configuredWith key calls).isSome := by rw [h.configured, hthere]
  have same (other : Key) : configuredWith other (calls ++ [.add key now value sampleType]) =
      configuredWith other calls := configuredWith_other calls rfl
  refine ⟨?_, fun other => ?_, fun other hother => ?_, sums_append rfl h.sums⟩
  · rw [hid, h.periodId, List.countP_append]
    rfl
  · rw [hfind other, same, expectedData_append, h.results other]
    by_cases hkey : key = other
    · subst hkey
      cases configuredWith key calls with
      | none => simp
      | some descriptor => simp [Call.outcomeOf]
    · simp [Call.outcomeOf, hkey]
  · rw [same] at hother
    refine silent_append (h.silent other hother) (if_neg fun hkey => ?_)
    rw [hkey, hother] at there
    cases there

theorem find_entry {r : Reporter D} {now : ℤ} {key : Key} {result : Result D}
    (h : r.find key = some result) :
    (closePeriod r now).1.2.entries.find? (fun entry => entry.1 = key) =
      some (key, result.report key.2) := by
  have mem := (mem_closePeriod_entries r now key (result.report key.2)).mpr ⟨result, h, rfl⟩
  cases hfound : (closePeriod r now).1.2.entries.find? (fun entry => entry.1 = key) with
  | none =>
    have absent := List.find?_eq_none.mp hfound _ mem
    simp at absent
  | some entry =>
    have hkey : entry.1 = key := by simpa using List.find?_some hfound
    have hmem := List.mem_of_find?_eq_some hfound
    obtain ⟨key', measure⟩ := entry
    subst hkey
    obtain ⟨result', hresult', rfl⟩ := (mem_closePeriod_entries r now key' measure).mp hmem
    rw [h] at hresult'
    injection hresult' with hresult'
    rw [hresult']

theorem find_no_entry {r : Reporter D} {now : ℤ} {key : Key} (h : r.find key = none) :
    (closePeriod r now).1.2.entries.find? (fun entry => entry.1 = key) = none := by
  refine List.find?_eq_none.mpr fun entry hmem => ?_
  obtain ⟨key', measure⟩ := entry
  obtain ⟨result, hresult, _⟩ := (mem_closePeriod_entries r now key' measure).mp hmem
  intro hkey
  have hkey : key' = key := by simpa using hkey
  rw [hkey, h] at hresult
  cases hresult

theorem Accounts.periodCount {r : Reporter D} {calls : List (Call D)} {closed : List (PeriodReport D)}
    (h : Accounts r calls closed) (now : ℤ) (key : Key) (sampleType : SampleType) :
    ReporterHistory.periodCount key sampleType (closePeriod r now).1.2 =
      outcomes key sampleType (sinceClose calls) := by
  unfold ReporterHistory.periodCount
  have results := h.results key
  cases hconfigured : configuredWith key calls with
  | none =>
    rw [hconfigured] at results
    have silent := h.silent key hconfigured
    rw [find_no_entry results, outcomes_silent fun call hcall =>
      silent call (sinceClose_subset calls hcall)]
    rfl
  | some descriptor =>
    rw [hconfigured] at results
    rw [find_entry results]
    cases sampleType with
    | regular => exact regularSamples_length key (sinceClose calls)
    | readFailure => rfl
    | underflow => rfl
    | overflow => rfl

theorem Accounts.close {r : Reporter D} {calls : List (Call D)} {closed : List (PeriodReport D)}
    (h : Accounts r calls closed) (now : ℤ) :
    Accounts (closePeriod r now).2 (calls ++ [.close now]) (closed ++ [(closePeriod r now).1.2]) := by
  have same (key : Key) : configuredWith key (calls ++ [.close now]) = configuredWith key calls :=
    configuredWith_other calls rfl
  refine ⟨?_, fun key => ?_, fun key hkey => ?_, fun key sampleType => ?_⟩
  · change r.periodId + 1 = _
    rw [h.periodId, List.countP_append]
    exact (UInt32.ofNat_add _ _).symm
  · rw [closePeriod_find, same, expectedData_append, h.results key]
    cases configuredWith key calls with
    | none => rfl
    | some descriptor => rfl
  · rw [same] at hkey
    exact silent_append (h.silent key hkey) rfl
  · have period := h.periodCount now key sampleType
    have old := h.sums key sampleType
    rw [sinceClose_append, outcomes_append, List.map_append, List.sum_append, old, ← period]
    simp [outcomes, Call.isClose, Call.outcomeOf]

/-- Everything one call can do. -/
theorem Accounts.perform {r : Reporter D} {calls : List (Call D)} {closed : List (PeriodReport D)}
    (h : Accounts r calls closed) (call : Call D) :
    Accounts (call.perform r).2 (calls ++ accepted [(call, (call.perform r).1)])
      (closed ++ reports [(call, (call.perform r).1)]) := by
  have quiet : Accounts r (calls ++ []) (closed ++ []) := by
    rwa [List.append_nil, List.append_nil]
  cases call with
  | configure key descriptor =>
    obtain ⟨r', hid, _, ⟨hnew, hrun, hfind⟩ | ⟨_, hrun, hfind⟩⟩ :=
      configureMeasurement_run r key descriptor
    · rw [Call.perform, returned_ok hrun]
      change Accounts r' (calls ++ [_]) (closed ++ [])
      rw [List.append_nil]
      exact h.configure hid hnew hfind
    · rw [Call.perform, returned_error hrun]
      exact quiet.of_find hid hfind
  | add key now value sampleType =>
    obtain ⟨r', hid, _, hthere, hrun, hfind⟩ | ⟨e, _, hrun⟩ :=
      addMeasurement_run r key now value sampleType
    · rw [Call.perform, returned_ok hrun]
      change Accounts r' (calls ++ [_]) (closed ++ [])
      rw [List.append_nil]
      exact h.add hid hthere hfind
    · rw [Call.perform, returned_error hrun]
      exact quiet
  | close now => exact h.close now

theorem Accounts.initial (outFolder : String) : Accounts ({ outFolder := outFolder } : Reporter D) [] [] :=
  ⟨rfl, fun key => lookup_empty key, fun _ _ call hcall => (by cases hcall), fun _ _ => rfl⟩

theorem Accounts.entry {r : Reporter D} {calls : List (Call D)} {periods : List (PeriodReport D)}
    (h : Accounts r calls periods) {now : ℤ} {key : Key} {entry : MeasureReport D}
    (hmem : (key, entry) ∈ (closePeriod r now).1.2.entries) : ∃ descriptor,
    configuredWith key calls = some descriptor ∧
      entry = Result.report key.2 ⟨descriptor, expectedData key calls⟩ := by
  obtain ⟨result, hresult, rfl⟩ := (mem_closePeriod_entries r now key entry).mp hmem
  rw [h.results key] at hresult
  obtain ⟨descriptor, hconfigured, rfl⟩ := Option.map_eq_some_iff.mp hresult
  exact ⟨descriptor, hconfigured, rfl⟩

/-- Which calls return: none is refused for another reason than the keys configured by then. -/
def Returns (before : List (Call D × Outcome D)) : Call D → Prop
  | .configure key _ => configuredWith key (accepted before) = none
  | .add key _ _ _ => (configuredWith key (accepted before)).isSome
  | .close _ => True

theorem Accounts.returns_iff {r : Reporter D} {before : List (Call D × Outcome D)}
    (h : Accounts r (accepted before) (reports before)) (call : Call D) :
    (∃ report, (call.perform r).1 = .ok report) ↔ Returns before call := by
  cases call with
  | configure key descriptor =>
    change _ ↔ configuredWith key (accepted before) = none
    rw [← Option.not_isSome_iff_eq_none, h.configured key]
    obtain ⟨r', _, _, ⟨hnew, hrun, _⟩ | ⟨hthere, hrun, _⟩⟩ := configureMeasurement_run r key descriptor
    · rw [Call.perform, returned_ok hrun, hnew]
      exact iff_of_true ⟨none, rfl⟩ (by simp)
    · rw [Call.perform, returned_error hrun, hthere]
      exact iff_of_false (fun ⟨report, hok⟩ => by cases hok) (by simp)
  | add key now value sampleType =>
    change _ ↔ (configuredWith key (accepted before)).isSome
    rw [h.configured key]
    obtain ⟨r', _, _, hthere, hrun, _⟩ | ⟨e, hnone, hrun⟩ :=
      addMeasurement_run r key now value sampleType
    · rw [Call.perform, returned_ok hrun]
      exact iff_of_true ⟨none, rfl⟩ hthere
    · rw [Call.perform, returned_error hrun, hnone]
      exact iff_of_false (fun ⟨report, hok⟩ => by cases hok) (by simp)
  | close now => exact iff_of_true ⟨_, rfl⟩ trivial

end ModbusCrawler.ReporterHistory
