import ModbusCrawler.Infra
import ModbusCrawler.ModbusTypes

set_option autoImplicit false

/-!
# The scheduler: `crawler/periodic_scheduler.cpp`

Instants of the system clock and of the timers are counted in its ticks. What a
handler reads from the clock is its argument, and what it returns is the expiry it
leaves its timer with. The timers count in 64 bits; a sum that does not fit wraps
around.
-/
namespace ModbusCrawler.PeriodicScheduler
open ModbusTypes

def ticksPerSecond : ℤ := 1000000000

/-- What the `int64_t` of a `duration` holds of a number of ticks. -/
def ticks (n : ℤ) : ℤ := (Int64.ofInt n).toInt

/-- `time_point_cast` to seconds and `to_time_t`. -/
def toSeconds (ticks : ℤ) : ℤ := ticks.tdiv ticksPerSecond

def fromTimeT (seconds : ℤ) : ℤ := ticks (seconds * ticksPerSecond)

/-- `aligned_up` by anything but zero. -/
def roundedUp (val multiple : ℤ) : ℤ :=
  let rem := val.tmod multiple
  if rem = 0 then val else val + multiple - rem

def alignedUp (val multiple : ℤ) : Except Exception ℤ :=
  if multiple = 0 then .error .sigfpe else .ok (roundedUp val multiple)

inductive TaskMode where
  | executeAtMultiplesOfPeriod | executeAtStart | skipFirstExecution
  deriving DecidableEq, Repr

/-- A task over a system `S`, with its interval in seconds. -/
structure ScheduledTask (S : Type) where
  name : String
  interval : ℤ
  task : ℤ → EStateM Exception S Unit
  mode : TaskMode

namespace ScheduledTask
variable {S : Type} (t : ScheduledTask S)

/-- The `int` that `interval_.count()` is narrowed to. -/
def multiple : ℤ := (Int32.ofInt t.interval).toInt

/-- `interval_` as the timer takes it. -/
def step : ℤ := ticks (t.interval * ticksPerSecond)

/-- `start(mode)`, for the clock at its beginning and after a first execution. -/
def start (began finished : ℤ) : EStateM Exception S ℤ :=
  if t.mode = .executeAtMultiplesOfPeriod then
    match alignedUp (toSeconds began) t.multiple with
    | .ok alignedStart => pure (fromTimeT alignedStart)
    | .error e => throw e
  else do
    if t.mode = .executeAtStart then t.task (toSeconds began)
    pure (ticks (finished + t.step))

/-- `execute(e)`; an aborted wait is not re-armed. -/
def execute (aborted : Bool) (expiry : ℤ) : EStateM Exception S (Option ℤ) :=
  if !aborted then do
    t.task (toSeconds expiry)
    pure (some (ticks (expiry + t.step)))
  else pure none

/-- Executions one after the other, from the expiry that the timer is armed with. -/
def executions : ℕ → ℤ → EStateM Exception S ℤ
  | 0, expiry => pure expiry
  | n + 1, expiry => do
    match ← t.execute false expiry with
    | some next => executions n next
    | none => pure expiry

/-- The same task with the instants it is called with as its only effect. -/
def recorder : ScheduledTask (List ℤ) where
  name := t.name
  interval := t.interval
  task now := modify (fun instants => instants ++ [now])
  mode := t.mode

def instants (began finished : ℤ) (n : ℕ) : List ℤ :=
  match (do let expiry ← t.recorder.start began finished; t.recorder.executions n expiry).run [] with
  | .ok _ instants | .error _ instants => instants

/-- What `start` arms the timer with, on a clock without an end. -/
def firstExpiry (began finished : ℤ) : ℤ :=
  if t.mode = .executeAtMultiplesOfPeriod then
    roundedUp (toSeconds began) t.multiple * ticksPerSecond
  else finished + t.interval * ticksPerSecond

/-- The stamps of the executions that do not come from the timer. -/
def extra (began : ℤ) : List ℤ := if t.mode = .executeAtStart then [toSeconds began] else []

/-- The first instant and then one period apart, on a clock without an end. -/
def nominal (began finished : ℤ) (n : ℕ) : List ℤ :=
  t.extra began ++ (List.range n).map (fun (i : ℕ) =>
    toSeconds (t.firstExpiry began finished + i * (t.interval * ticksPerSecond)))

end ScheduledTask

abbrev Scheduler (S : Type) := List (ScheduledTask S)

def addTask {S : Type} (scheduler : Scheduler S) (name : String) (interval : ℤ)
    (task : ℤ → EStateM Exception S Unit) (mode : TaskMode) : Scheduler S :=
  scheduler ++ [⟨name, interval, task, mode⟩]

section Ticks

theorem le_ticks (n : ℤ) : -2^63 ≤ ticks n := Int64.le_toInt _

theorem ticks_lt (n : ℤ) : ticks n < 2^63 := Int64.toInt_lt _

theorem ticks_eq {n : ℤ} (low : -2^63 ≤ n) (high : n < 2^63) : ticks n = n :=
  Int64.toInt_ofInt_of_le low high

theorem ticks_add_ticks (a b : ℤ) : ticks (a + ticks b) = ticks (a + b) := by
  unfold ticks
  rw [Int64.ofInt_add, Int64.ofInt_toInt, Int64.ofInt_add]

theorem ticks_ticks_add (a b : ℤ) : ticks (ticks a + b) = ticks (a + b) := by
  rw [Int.add_comm, ticks_add_ticks, Int.add_comm]

theorem ticks_add_mul (a : ℤ) (n : ℕ) (b : ℤ) : ticks (a + n * ticks b) = ticks (a + n * b) := by
  induction n with
  | zero => simp
  | succ n ih =>
    have once (c : ℤ) : a + (n + 1 : ℕ) * c = a + n * c + c := by
      rw [Int.natCast_succ, Int.add_mul]
      omega
    rw [once, once, ticks_add_ticks, ← ticks_ticks_add, ih, ticks_ticks_add]

/-- A number that is not too large is not made smaller. -/
theorem ticks_ge {n : ℤ} (high : n < 2^63) : n ≤ ticks n := by
  rcases Int.le_total (-2^63) n with low | low
  · exact Int.le_of_eq (ticks_eq low high).symm
  · exact Int.le_trans low (le_ticks n)

theorem toSeconds_mul (seconds : ℤ) : toSeconds (seconds * ticksPerSecond) = seconds :=
  Int.mul_tdiv_cancel seconds (by decide)

theorem fromTimeT_eq {seconds : ℤ} (low : -9223372036 ≤ seconds) (high : seconds ≤ 9223372036) :
    fromTimeT seconds = seconds * ticksPerSecond := by
  unfold fromTimeT ticksPerSecond
  exact ticks_eq (by omega) (by omega)

theorem toSeconds_fromTimeT {seconds : ℤ} (low : -9223372036 ≤ seconds)
    (high : seconds ≤ 9223372036) : toSeconds (fromTimeT seconds) = seconds := by
  rw [fromTimeT_eq low high, toSeconds_mul]

theorem toSeconds_mono {a b : ℤ} (h : a ≤ b) : toSeconds a ≤ toSeconds b :=
  Int.tdiv_le_tdiv (by decide) h

theorem toSeconds_lt_of_le {a b : ℤ} (ha : 0 ≤ a) (hab : a + ticksPerSecond ≤ b) :
    toSeconds a < toSeconds b := by
  unfold ticksPerSecond at hab
  rw [toSeconds, toSeconds, Int.tdiv_eq_ediv_of_nonneg ha, Int.tdiv_eq_ediv_of_nonneg (by omega)]
  unfold ticksPerSecond
  omega

theorem roundedUp_ge (val : ℤ) {multiple : ℤ} (hmultiple : 0 < multiple) :
    val ≤ roundedUp val multiple := by
  have below : val.tmod multiple < multiple := Int.tmod_lt_of_pos val hmultiple
  unfold roundedUp
  dsimp only
  split_ifs
  · exact Int.le_refl val
  · omega

theorem roundedUp_le {val multiple : ℤ} (hval : 0 ≤ val) (hmultiple : 0 < multiple) :
    roundedUp val multiple ≤ val + multiple := by
  have nonneg : 0 ≤ val.tmod multiple := Int.tmod_nonneg multiple hval
  unfold roundedUp
  dsimp only
  split_ifs <;> omega

end Ticks

section Handlers
variable {S : Type} {t : ScheduledTask S} {system system' : S}

theorem ticks_step (t : ScheduledTask S) (expiry : ℤ) :
    ticks (expiry + t.step) = ticks (expiry + t.interval * ticksPerSecond) :=
  ticks_add_ticks expiry _

theorem start_ok {began finished expiry : ℤ}
    (h : (t.start began finished).run system = .ok expiry system') :
    (t.mode = .executeAtStart ∧ (t.task (toSeconds began)).run system = .ok () system') ∨
      (t.mode ≠ .executeAtStart ∧ system' = system) := by
  unfold ScheduledTask.start at h
  split_ifs at h with haligned hstart
  · refine .inr ⟨by rw [haligned]; decide, ?_⟩
    unfold alignedUp at h
    split_ifs at h <;> cases h
    rfl
  · rw [EStateM.run_bind] at h
    cases hrun : (t.task (toSeconds began)).run system with
    | error e s =>
      rw [hrun] at h
      cases h
    | ok _ s =>
      rw [hrun] at h
      cases h
      exact .inl ⟨hstart, rfl⟩
  · cases h
    exact .inr ⟨hstart, rfl⟩

/-- The timer is armed with what it can hold of the first expiry. -/
theorem start_expiry {began finished expiry : ℤ}
    (h : (t.start began finished).run system = .ok expiry system') :
    expiry = ticks (t.firstExpiry began finished) := by
  unfold ScheduledTask.start at h
  unfold ScheduledTask.firstExpiry
  split_ifs at h ⊢ with _ hstart
  · unfold alignedUp at h
    split_ifs at h <;> cases h
    rfl
  · rw [EStateM.run_bind] at h
    cases hrun : (t.task (toSeconds began)).run system with
    | error e s =>
      rw [hrun] at h
      cases h
    | ok _ s =>
      rw [hrun] at h
      cases h
      exact ticks_step t finished
  · cases h
    exact ticks_step t finished

theorem execute_ok {expiry : ℤ} {next : Option ℤ}
    (h : (t.execute false expiry).run system = .ok next system') :
    (t.task (toSeconds expiry)).run system = .ok () system' ∧
      next = some (ticks (expiry + t.interval * ticksPerSecond)) := by
  change (t.task (toSeconds expiry) >>= fun _ => pure (some (ticks (expiry + t.step)))).run system = _
    at h
  rw [EStateM.run_bind] at h
  cases hrun : (t.task (toSeconds expiry)).run system with
  | error e s =>
    rw [hrun] at h
    cases h
  | ok _ s =>
    rw [hrun] at h
    cases h
    exact ⟨rfl, congrArg some (ticks_step t expiry)⟩

theorem start_executes {began : ℤ} (hmode : t.mode = .executeAtStart)
    (h : (t.task (toSeconds began)).run system = .ok () system') (finished : ℤ) :
    (t.start began finished).run system = .ok (ticks (finished + t.step)) system' := by
  have branch : t.start began finished = (do
      t.task (toSeconds began)
      pure (ticks (finished + t.step))) := by
    rw [ScheduledTask.start, hmode]
    rfl
  rw [branch, EStateM.run_bind, h]
  rfl

theorem start_aligns {began first : ℤ} (hmode : t.mode = .executeAtMultiplesOfPeriod)
    (h : alignedUp (toSeconds began) t.multiple = .ok first) (finished : ℤ) (system : S) :
    (t.start began finished).run system = .ok (fromTimeT first) system := by
  rw [ScheduledTask.start, if_pos hmode, h]
  rfl

theorem execute_run {expiry : ℤ} (h : (t.task (toSeconds expiry)).run system = .ok () system') :
    (t.execute false expiry).run system = .ok (some (ticks (expiry + t.step))) system' := by
  change (t.task (toSeconds expiry) >>= fun _ => pure (some (ticks (expiry + t.step)))).run system = _
  rw [EStateM.run_bind, h]
  rfl

/-- A start handler fails where its task does, and where it divides by zero. -/
theorem start_runs (hmultiple : t.mode = .executeAtMultiplesOfPeriod → t.multiple ≠ 0)
    (h : ∀ now, ∃ system', (t.task now).run system = .ok () system') (began finished : ℤ) :
    ∃ expiry system', (t.start began finished).run system = .ok expiry system' := by
  by_cases hstart : t.mode = .executeAtStart
  · obtain ⟨system', hrun⟩ := h (toSeconds began)
    exact ⟨_, system', start_executes hstart hrun finished⟩
  · unfold ScheduledTask.start
    split_ifs with haligned
    · rw [alignedUp, if_neg (hmultiple haligned)]
      exact ⟨_, system, rfl⟩
    · exact ⟨_, system, rfl⟩

end Handlers

section Instants
variable {S : Type} (t : ScheduledTask S)

/-- The timer is always armed with what it can hold of an expiry one period later. -/
theorem recorder_executions (n : ℕ) (expiry : ℤ) (log : List ℤ) :
    (t.recorder.executions n (ticks expiry)).run log =
      .ok (ticks (expiry + n * (t.interval * ticksPerSecond)))
        (log ++ (List.range n).map (fun (i : ℕ) =>
          toSeconds (ticks (expiry + i * (t.interval * ticksPerSecond))))) := by
  induction n generalizing expiry log with
  | zero => simp [ScheduledTask.executions]
  | succ n ih =>
    have next : (t.recorder.executions (n + 1) (ticks expiry)).run log =
        (t.recorder.executions n (ticks (ticks expiry + t.recorder.step))).run
          (log ++ [toSeconds (ticks expiry)]) := rfl
    have later (i : ℕ) : expiry + t.interval * ticksPerSecond + i * (t.interval * ticksPerSecond) =
        expiry + (i + 1 : ℕ) * (t.interval * ticksPerSecond) := by
      rw [Int.natCast_succ, Int.add_mul]
      omega
    have armed : ticks (ticks expiry + t.recorder.step) =
        ticks (expiry + t.interval * ticksPerSecond) := by
      rw [ticks_step, ticks_ticks_add]
      rfl
    rw [next, armed, ih, List.range_succ_eq_map, List.map_cons, List.map_map, List.append_assoc,
      later n]
    congr 2
    rw [List.singleton_append]
    congr 1
    · simp
    · exact List.map_congr_left fun i _ => congrArg (fun e => toSeconds (ticks e)) (later i)

/-- The instants of a task are the nominal ones as far as 64 bits hold them. -/
theorem instants_eq (hmultiple : t.mode = .executeAtMultiplesOfPeriod → t.multiple ≠ 0)
    (began finished : ℤ) (n : ℕ) : t.instants began finished n =
      t.extra began ++ (List.range n).map (fun (i : ℕ) => toSeconds
        (ticks (t.firstExpiry began finished + i * (t.interval * ticksPerSecond)))) := by
  have runs : ∃ expiry log, (t.recorder.start began finished).run [] = .ok expiry log :=
    start_runs (t := t.recorder) hmultiple (fun now => ⟨_, rfl⟩) began finished
  obtain ⟨expiry, log, hrun⟩ := runs
  have first : expiry = ticks (t.firstExpiry began finished) := start_expiry (t := t.recorder) hrun
  have called : log = t.extra began := by
    unfold ScheduledTask.extra
    rcases start_ok hrun with ⟨hmode, htask⟩ | ⟨hmode, rfl⟩
    · cases htask
      exact (if_pos hmode).symm
    · exact (if_neg hmode).symm
  unfold ScheduledTask.instants
  rw [EStateM.run_bind, hrun]
  dsimp only
  rw [first, recorder_executions, called]

theorem firstExpiry_nonneg (hpositive : 0 < t.interval)
    (haligned : t.mode = .executeAtMultiplesOfPeriod → 0 < t.multiple) {began finished : ℤ}
    (hbegan : 0 ≤ began) (hfinished : began ≤ finished) : 0 ≤ t.firstExpiry began finished := by
  unfold ScheduledTask.firstExpiry ticksPerSecond
  split_ifs with hmode
  · have later := roundedUp_ge (toSeconds began) (haligned hmode)
    have second : 0 ≤ toSeconds began := toSeconds_mono hbegan
    omega
  · omega

theorem firstExpiry_le (haligned : t.mode = .executeAtMultiplesOfPeriod → t.multiple = t.interval)
    (hpositive : 0 < t.interval) {began finished : ℤ} (hbegan : 0 ≤ began)
    (hfinished : began ≤ finished) :
    t.firstExpiry began finished ≤ finished + t.interval * ticksPerSecond := by
  unfold ScheduledTask.firstExpiry
  split_ifs with hmode
  · have second : 0 ≤ toSeconds began := toSeconds_mono hbegan
    have up := roundedUp_le second hpositive
    have whole : toSeconds began * ticksPerSecond ≤ began := by
      rw [toSeconds, Int.tdiv_eq_ediv_of_nonneg hbegan]
      exact Int.ediv_mul_le began (by decide)
    rw [haligned hmode]
    unfold ticksPerSecond at whole ⊢
    omega
  · exact Int.le_refl _

theorem nominal_aligned (hmode : t.mode = .executeAtMultiplesOfPeriod) (began finished : ℤ) (n : ℕ) :
    t.nominal began finished n = (List.range n).map (fun (i : ℕ) =>
      roundedUp (toSeconds began) t.multiple + i * t.interval) := by
  have never : t.mode ≠ .executeAtStart := by
    rw [hmode]
    decide
  unfold ScheduledTask.nominal ScheduledTask.extra ScheduledTask.firstExpiry
  rw [if_neg never, if_pos hmode, List.nil_append]
  refine List.map_congr_left fun i _ => ?_
  rw [← Int.mul_assoc, ← Int.add_mul, toSeconds_mul]

/-- While 64 bits hold them, the instants are the nominal ones. -/
theorem instants_eq_nominal
    (haligned : t.mode = .executeAtMultiplesOfPeriod → t.multiple = t.interval)
    (hpositive : 0 < t.interval) {began finished : ℤ} (hbegan : 0 ≤ began)
    (hfinished : began ≤ finished) {n : ℕ}
    (hfits : finished + n * (t.interval * ticksPerSecond) < 2^63) :
    t.instants began finished n = t.nominal began finished n := by
  have first := firstExpiry_le t haligned hpositive hbegan hfinished
  have nonneg := firstExpiry_nonneg t hpositive (fun h => (haligned h).symm ▸ hpositive) hbegan
    hfinished
  have period : 0 < t.interval * ticksPerSecond := Int.mul_pos hpositive (by decide)
  have divides (h : t.mode = .executeAtMultiplesOfPeriod) : t.multiple ≠ 0 := by
    rw [haligned h]
    exact Int.ne_of_gt hpositive
  rw [instants_eq t divides, ScheduledTask.nominal]
  congr 1
  refine List.map_congr_left fun i hi => congrArg toSeconds (ticks_eq ?_ ?_)
  · have later : 0 ≤ (i : ℤ) * (t.interval * ticksPerSecond) := Int.mul_nonneg (by omega) (by omega)
    omega
  · have turns : ((i : ℤ) + 1) * (t.interval * ticksPerSecond) ≤ n * (t.interval * ticksPerSecond) := by
      have bound := List.mem_range.mp hi
      exact Int.mul_le_mul_of_nonneg_right (by omega) (by omega)
    rw [Int.add_mul] at turns
    omega

/-- The instants strictly increase while 64 bits hold them, if the timer takes the interval for
    a second or more. -/
theorem instants_increasing (hstep : ticksPerSecond ≤ t.step)
    (haligned : t.mode = .executeAtMultiplesOfPeriod →
      t.multiple = t.interval ∧ 0 < t.interval ∧ t.step = t.interval * ticksPerSecond)
    {began finished : ℤ} (hbegan : 0 ≤ began) (hfinished : began ≤ finished) {n : ℕ}
    (hfits : finished + n * t.step < 2^63) : (t.instants began finished n).Pairwise (· < ·) := by
  unfold ticksPerSecond at hstep
  have armed : ∃ first, 0 ≤ first ∧ first ≤ finished + t.step ∧
      (t.mode = .executeAtStart → first = finished + t.step) ∧
      ticks (t.firstExpiry began finished) = ticks first := by
    by_cases hmode : t.mode = .executeAtMultiplesOfPeriod
    · obtain ⟨hmultiple, hpositive, hexact⟩ := haligned hmode
      refine ⟨_, firstExpiry_nonneg t hpositive (fun _ => hmultiple.symm ▸ hpositive) hbegan hfinished,
        ?_, fun hstart => ?_, rfl⟩
      · rw [hexact]
        exact firstExpiry_le t (fun _ => hmultiple) hpositive hbegan hfinished
      · rw [hmode] at hstart
        cases hstart
    · refine ⟨finished + t.step, by omega, Int.le_refl _, fun _ => rfl, ?_⟩
      rw [ScheduledTask.firstExpiry, if_neg hmode, ticks_step]
  obtain ⟨first, hnonneg, hle, hstart, hfirst⟩ := armed
  have nonneg (i : ℕ) : 0 ≤ (i : ℤ) * t.step := Int.mul_nonneg (by omega) (by omega)
  have instant (i : ℕ) (hi : i < n) :
      ticks (t.firstExpiry began finished + i * (t.interval * ticksPerSecond)) = first + i * t.step := by
    have turns : ((i : ℤ) + 1) * t.step ≤ n * t.step := Int.mul_le_mul_of_nonneg_right (by omega) (by omega)
    rw [Int.add_mul] at turns
    have later := nonneg i
    rw [← ticks_ticks_add, hfirst, ticks_ticks_add, ← ticks_add_mul]
    exact ticks_eq (by change -2^63 ≤ first + i * t.step; omega)
      (by change first + i * t.step < 2^63; omega)
  have divides (hmode : t.mode = .executeAtMultiplesOfPeriod) : t.multiple ≠ 0 := by
    obtain ⟨hmultiple, hpositive, _⟩ := haligned hmode
    rw [hmultiple]
    exact Int.ne_of_gt hpositive
  rw [instants_eq t divides]
  refine List.pairwise_append.mpr ⟨?_, ?_, ?_⟩
  · unfold ScheduledTask.extra
    split_ifs <;> simp
  · rw [List.pairwise_map]
    refine List.pairwise_lt_range.imp_of_mem fun {i j} hi hj hij => ?_
    have more : ((i : ℤ) + 1) * t.step ≤ j * t.step :=
      Int.mul_le_mul_of_nonneg_right (by omega) (by omega)
    rw [Int.add_mul] at more
    rw [instant i (List.mem_range.mp hi), instant j (List.mem_range.mp hj)]
    have later := nonneg i
    exact toSeconds_lt_of_le (by omega) (by unfold ticksPerSecond; omega)
  · intro extra hextra later hlater
    obtain ⟨i, hi, rfl⟩ := List.mem_map.mp hlater
    unfold ScheduledTask.extra at hextra
    split_ifs at hextra with hmode
    · rw [List.mem_singleton.mp hextra, instant i (List.mem_range.mp hi), hstart hmode]
      have more := nonneg i
      exact toSeconds_lt_of_le hbegan (by unfold ticksPerSecond; omega)
    · cases hextra

/-- A task whose instants increase from the first execution on has an interval that the timer
    takes for a second or more. -/
theorem step_of_increasing (hmode : t.mode = .executeAtStart)
    (h : (t.instants 0 0 1).Pairwise (· < ·)) : ticksPerSecond ≤ t.step := by
  have other : t.mode ≠ .executeAtMultiplesOfPeriod := by
    rw [hmode]
    decide
  have two : t.instants 0 0 1 = [0, toSeconds t.step] := by
    rw [instants_eq t (fun h => absurd h other), ScheduledTask.extra, if_pos hmode,
      ScheduledTask.firstExpiry, if_neg other]
    simp [ScheduledTask.step]
    rfl
  rw [two] at h
  have later : 0 < toSeconds t.step := by simpa using h
  by_contra hshort
  have early : toSeconds t.step ≤ toSeconds 999999999 :=
    toSeconds_mono (by unfold ticksPerSecond at hshort; omega)
  have zero : toSeconds 999999999 = 0 := rfl
  omega

end Instants

end ModbusCrawler.PeriodicScheduler
