import ModbusCrawler.EventLoop
import ModbusCrawler.PeriodicScheduler

set_option autoImplicit false

/-!
# The stamps a task is called with

Every task writes down the instants it is called with. The completions may come at
any time, in any order and aborted or not; only the clock of a start handler does
not go back while the handler runs.
-/
namespace ModbusCrawler.TaskTicks
open ModbusTypes PeriodicScheduler EventLoop

section Observed
variable {S ι : Type}

/-- The task with its calls written down beside the system, under the name `i`. -/
def observed (i : ι) (t : ScheduledTask S) : ScheduledTask (S × List (ι × ℤ)) where
  name := t.name
  interval := t.interval
  mode := t.mode
  task now := fun (system, log) =>
    match (t.task now).run system with
    | .ok _ system => .ok () (system, log ++ [(i, now)])
    | .error e system => .error e (system, log ++ [(i, now)])

variable [DecidableEq ι]

/-- The stamps of the calls of `i`, in their order. -/
def stamps (log : List (ι × ℤ)) (i : ι) : List ℤ :=
  (log.filter (fun call => call.1 = i)).map Prod.snd

/-- How often the timer of `i` has run its task. -/
def executions (history : List (Event ι)) (i : ι) : ℕ :=
  history.countP (fun event => match event with
    | .started _ _ _ => false
    | .expired j _ => j = i)

theorem stamps_append (log : List (ι × ℤ)) (i j : ι) (more : List ℤ) :
    stamps (log ++ more.map (Prod.mk i)) j = stamps log j ++ if i = j then more else [] := by
  unfold stamps
  rw [List.filter_append, List.map_append]
  congr 1
  induction more with
  | nil => simp
  | cons now more ih =>
    rw [List.map_cons, List.filter_cons]
    by_cases h : i = j
    · simpa [h] using ih
    · simp [h]

section Calls
variable {log log' : List (ι × ℤ)} {i j : ι} {more : List ℤ}

theorem stamps_own (hlog : log' = log ++ more.map (Prod.mk i)) :
    stamps log' i = stamps log i ++ more := by
  rw [hlog, stamps_append, if_pos rfl]

theorem stamps_other (hlog : log' = log ++ more.map (Prod.mk i)) (hj : i ≠ j) :
    stamps log' j = stamps log j := by
  rw [hlog, stamps_append, if_neg hj, List.append_nil]

end Calls

theorem executions_started (history : List (Event ι)) (i j : ι) (began finished : ℤ) :
    executions (history ++ [.started i began finished]) j = executions history j := by
  simp [executions]

theorem executions_expired (history : List (Event ι)) (i j : ι) (expiry : ℤ) :
    executions (history ++ [.expired i expiry]) j =
      executions history j + if i = j then 1 else 0 := by
  simp [executions, List.countP_cons]

omit [DecidableEq ι] in
theorem observed_log {i : ι} {t : ScheduledTask S} {now : ℤ} {state state' : S × List (ι × ℤ)}
    (h : ((observed i t).task now).run state = .ok () state') : state'.2 = state.2 ++ [(i, now)] := by
  obtain ⟨system, log⟩ := state
  change (match (t.task now).run system with
    | .ok _ system => .ok () (system, log ++ [(i, now)])
    | .error e system => .error e (system, log ++ [(i, now)]) : EStateM.Result _ _ _) = _ at h
  cases hrun : (t.task now).run system with
  | ok _ system' =>
    rw [hrun] at h
    cases h
    rfl
  | error e system' =>
    rw [hrun] at h
    cases h

end Observed

section Alignment

theorem roundedUp_least {val multiple : ℤ} (hval : 0 ≤ val) (hmultiple : 0 < multiple) :
    multiple ∣ roundedUp val multiple ∧ val ≤ roundedUp val multiple ∧
      ∀ m, multiple ∣ m → val ≤ m → roundedUp val multiple ≤ m := by
  have split : multiple * (val / multiple) + val % multiple = val := Int.mul_ediv_add_emod val multiple
  have nonneg := Int.emod_nonneg val (Int.ne_of_gt hmultiple)
  have below := Int.emod_lt_of_pos val hmultiple
  unfold roundedUp
  dsimp only
  rw [Int.tmod_eq_emod_of_nonneg hval]
  split_ifs with hrem
  · exact ⟨Int.dvd_of_emod_eq_zero hrem, Int.le_refl val, fun m _ hm => hm⟩
  · have up : val + multiple - val % multiple = multiple * (val / multiple + 1) := by
      rw [Int.mul_add, Int.mul_one]
      omega
    rw [up]
    refine ⟨Int.dvd_mul_right _ _, by rw [← up]; omega, ?_⟩
    rintro m ⟨c, rfl⟩ hm
    have more : val / multiple < c := by
      apply Int.lt_of_mul_lt_mul_left (a := multiple) _ (Int.le_of_lt hmultiple)
      omega
    exact Int.mul_le_mul_of_nonneg_left more (Int.le_of_lt hmultiple)

theorem toSeconds_add_periods {a : ℤ} (ha : 0 ≤ a) (seconds : ℤ) (hseconds : 0 ≤ seconds) :
    toSeconds (a + seconds * ticksPerSecond) = toSeconds a + seconds := by
  unfold toSeconds ticksPerSecond
  rw [Int.tdiv_eq_ediv_of_nonneg ha, Int.tdiv_eq_ediv_of_nonneg (by omega)]
  omega

end Alignment

section Runs
variable {S : Type} (tasks : Scheduler S)

abbrev Watched := Loop (Fin tasks.length) (S × List (Fin tasks.length × ℤ))

def watchedTask (i : Fin tasks.length) : ScheduledTask (S × List (Fin tasks.length × ℤ)) :=
  observed i (tasks.get i)

def posted (system : S) (clock : ℤ) : Watched tasks where
  system := (system, [])
  clock := clock
  posted := List.finRange tasks.length

variable {tasks}

/-- The loop after a start handler. -/
def startedBy (l : Watched tasks) (i : Fin tasks.length) (rest : List (Fin tasks.length))
    (began finished expiry : ℤ) (state : S × List (Fin tasks.length × ℤ)) : Watched tasks where
  system := state
  clock := finished
  posted := rest
  armed := Function.update l.armed i (some expiry)
  history := l.history ++ [.started i began finished]

/-- The loop after the completion of a wait. -/
def completedBy (l : Watched tasks) (i : Fin tasks.length) (aborted : Bool) (expiry finished : ℤ)
    (next : Option ℤ) (state : S × List (Fin tasks.length × ℤ)) : Watched tasks where
  system := state
  clock := finished
  posted := l.posted
  armed := Function.update l.armed i next
  history := if aborted then l.history else l.history ++ [.expired i expiry]

inductive Turn : Watched tasks → Watched tasks → Prop
  | start {l : Watched tasks} {i : Fin tasks.length} {rest : List (Fin tasks.length)}
      {began finished expiry : ℤ} {state : S × List (Fin tasks.length × ℤ)}
      (hposted : l.posted = i :: rest) (hbegan : 0 ≤ began) (hfinished : began ≤ finished)
      (hrun : ((watchedTask tasks i).start began finished).run l.system = .ok expiry state) :
      Turn l (startedBy l i rest began finished expiry state)
  | complete {l : Watched tasks} {i : Fin tasks.length} {aborted : Bool} {expiry finished : ℤ}
      {next : Option ℤ} {state : S × List (Fin tasks.length × ℤ)}
      (harmed : l.armed i = some expiry)
      (hrun : ((watchedTask tasks i).execute aborted expiry).run l.system = .ok next state) :
      Turn l (completedBy l i aborted expiry finished next state)

abbrev Turns : Watched tasks → Watched tasks → Prop := Relation.ReflTransGen Turn

theorem start_spec {i : Fin tasks.length} {began finished expiry : ℤ}
    {state state' : S × List (Fin tasks.length × ℤ)}
    (h : ((watchedTask tasks i).start began finished).run state = .ok expiry state') :
    expiry = ticks ((tasks.get i).firstExpiry began finished) ∧
      state'.2 = state.2 ++ ((tasks.get i).extra began).map (Prod.mk i) := by
  have hlog : state'.2 = state.2 ++ ((watchedTask tasks i).extra began).map (Prod.mk i) := by
    unfold ScheduledTask.extra
    rcases start_ok h with ⟨hmode, htask⟩ | ⟨hmode, rfl⟩
    · rw [if_pos hmode, observed_log htask]
      rfl
    · rw [if_neg hmode, List.map_nil, List.append_nil]
  have hexpiry : expiry = ticks ((watchedTask tasks i).firstExpiry began finished) := start_expiry h
  exact ⟨hexpiry, hlog⟩

theorem execute_spec {i : Fin tasks.length} {aborted : Bool} {expiry : ℤ} {next : Option ℤ}
    {state state' : S × List (Fin tasks.length × ℤ)}
    (h : ((watchedTask tasks i).execute aborted expiry).run state = .ok next state') :
    (aborted = true ∧ next = none ∧ state' = state) ∨
      (aborted = false ∧ next = some (ticks (expiry + (tasks.get i).interval * ticksPerSecond)) ∧
        state'.2 = state.2 ++ [toSeconds expiry].map (Prod.mk i)) := by
  cases aborted with
  | true =>
    cases h
    exact .inl ⟨rfl, rfl, rfl⟩
  | false =>
    obtain ⟨htask, hnext⟩ := execute_ok h
    exact .inr ⟨rfl, hnext, observed_log htask⟩

/-- What the timer holds of the first expiry and of the later ones, an interval apart. -/
structure Ticking (l : Watched tasks) (i : Fin tasks.length) (began finished : ℤ) : Prop where
  unposted : i ∉ l.posted
  started : .started i began finished ∈ l.history
  nonneg : 0 ≤ began
  ordered : began ≤ finished
  stamps_eq : stamps l.system.2 i = (tasks.get i).extra began ++
    (List.range (executions l.history i)).map (fun (k : ℕ) => toSeconds (ticks
      ((tasks.get i).firstExpiry began finished + k * ((tasks.get i).interval * ticksPerSecond))))
  armed_eq : ∀ expiry, l.armed i = some expiry →
    expiry = ticks ((tasks.get i).firstExpiry began finished +
      executions l.history i * ((tasks.get i).interval * ticksPerSecond))

structure Waiting (l : Watched tasks) (i : Fin tasks.length) : Prop where
  posted : i ∈ l.posted
  unarmed : l.armed i = none
  uncalled : stamps l.system.2 i = []
  unexpired : executions l.history i = 0

structure Good (l : Watched tasks) : Prop where
  nodup : l.posted.Nodup
  tasks : ∀ i, Waiting l i ∨ ∃ began finished, Ticking l i began finished

theorem Good.posted (system : S) (clock : ℤ) : Good (posted tasks system clock) where
  nodup := List.nodup_finRange _
  tasks i := .inl ⟨List.mem_finRange i, rfl, rfl, rfl⟩

/-- What the other tasks do does not show. -/
theorem frame {l l' : Watched tasks} {j : Fin tasks.length}
    (hposted : j ∈ l'.posted ↔ j ∈ l.posted) (harmed : l'.armed j = l.armed j)
    (hstamps : stamps l'.system.2 j = stamps l.system.2 j)
    (hexecutions : executions l'.history j = executions l.history j)
    (hhistory : l.history ⊆ l'.history)
    (h : Waiting l j ∨ ∃ began finished, Ticking l j began finished) :
    Waiting l' j ∨ ∃ began finished, Ticking l' j began finished := by
  rcases h with hwaiting | ⟨began, finished, hticking⟩
  · exact .inl ⟨hposted.mpr hwaiting.posted, harmed.trans hwaiting.unarmed,
      hstamps.trans hwaiting.uncalled, hexecutions.trans hwaiting.unexpired⟩
  · refine .inr ⟨began, finished, mt hposted.mp hticking.unposted, hhistory hticking.started,
      hticking.nonneg, hticking.ordered, ?_, ?_⟩
    · rw [hstamps, hexecutions]
      exact hticking.stamps_eq
    · rw [harmed, hexecutions]
      exact hticking.armed_eq

theorem Good.start {l : Watched tasks} (h : Good l) {i : Fin tasks.length}
    {rest : List (Fin tasks.length)} {began finished expiry : ℤ}
    {state : S × List (Fin tasks.length × ℤ)} (hposted : l.posted = i :: rest) (hbegan : 0 ≤ began)
    (hfinished : began ≤ finished)
    (hrun : ((watchedTask tasks i).start began finished).run l.system = .ok expiry state) :
    Good (startedBy l i rest began finished expiry state) := by
  obtain ⟨hexpiry, hlog⟩ := start_spec hrun
  have nodup : (i :: rest).Nodup := hposted ▸ h.nodup
  obtain ⟨hnot, hrest⟩ := List.nodup_cons.mp nodup
  refine ⟨hrest, fun j => ?_⟩
  by_cases hj : i = j
  · subst hj
    have waiting : Waiting l i := by
      rcases h.tasks i with hwaiting | ⟨_, _, hticking⟩
      · exact hwaiting
      · exact absurd (hposted ▸ List.mem_cons_self) hticking.unposted
    have none : executions (startedBy l i rest began finished expiry state).history i = 0 :=
      (executions_started l.history i i began finished).trans waiting.unexpired
    refine .inr ⟨began, finished, hnot, List.mem_append_right _ (List.mem_singleton_self _),
      hbegan, hfinished, ?_, ?_⟩
    · rw [none]
      change stamps state.2 i = _
      rw [stamps_own hlog, waiting.uncalled]
      simp
    · intro armed harmed
      change Function.update l.armed i (some expiry) i = some armed at harmed
      rw [Function.update_self] at harmed
      cases harmed
      rw [none, hexpiry]
      simp
  · refine frame (l := l) ?_ (Function.update_of_ne (Ne.symm hj) _ _) ?_
      (executions_started _ _ _ _ _) (List.subset_append_left _ _) (h.tasks j)
    · change j ∈ rest ↔ j ∈ l.posted
      rw [hposted, List.mem_cons]
      exact ⟨.inr, fun hmem => hmem.resolve_left (Ne.symm hj)⟩
    · exact stamps_other hlog hj

theorem Ticking.abort {l : Watched tasks} {i : Fin tasks.length} {began finished : ℤ}
    (h : Ticking l i began finished) (expiry later : ℤ) :
    Ticking (completedBy l i true expiry later none l.system) i began finished := by
  refine ⟨h.unposted, h.started, h.nonneg, h.ordered, h.stamps_eq, fun other hother => ?_⟩
  change Function.update l.armed i none i = some other at hother
  rw [Function.update_self] at hother
  cases hother

theorem Ticking.expire {l : Watched tasks} {i : Fin tasks.length} {began finished expiry : ℤ}
    (h : Ticking l i began finished) (harmed : l.armed i = some expiry) (later : ℤ)
    {state : S × List (Fin tasks.length × ℤ)}
    (hlog : state.2 = l.system.2 ++ [toSeconds expiry].map (Prod.mk i)) :
    Ticking (completedBy l i false expiry later
      (some (ticks (expiry + (tasks.get i).interval * ticksPerSecond))) state) i began finished := by
  have hexpiry := h.armed_eq expiry harmed
  have more : executions (completedBy l i false expiry later
      (some (ticks (expiry + (tasks.get i).interval * ticksPerSecond))) state).history i =
        executions l.history i + 1 := by
    refine (executions_expired l.history i i expiry).trans ?_
    rw [if_pos rfl]
  refine ⟨h.unposted, List.mem_append_left _ h.started, h.nonneg, h.ordered, ?_, ?_⟩
  · rw [more]
    change stamps state.2 i = _
    rw [stamps_own hlog, List.range_succ, List.map_append, h.stamps_eq, List.append_assoc, hexpiry]
    rfl
  · intro other hother
    change Function.update l.armed i (some _) i = some other at hother
    rw [Function.update_self] at hother
    cases hother
    rw [more, hexpiry, ticks_ticks_add, Int.natCast_succ, Int.add_mul, Int.one_mul, Int.add_assoc]

theorem Good.complete {l : Watched tasks} (h : Good l) {i : Fin tasks.length} {aborted : Bool}
    {expiry finished : ℤ} {next : Option ℤ} {state : S × List (Fin tasks.length × ℤ)}
    (harmed : l.armed i = some expiry)
    (hrun : ((watchedTask tasks i).execute aborted expiry).run l.system = .ok next state) :
    Good (completedBy l i aborted expiry finished next state) := by
  refine ⟨h.nodup, fun j => ?_⟩
  by_cases hj : i = j
  · subst hj
    rcases h.tasks i with hwaiting | ⟨began, finished', hticking⟩
    · rw [hwaiting.unarmed] at harmed
      cases harmed
    · refine .inr ⟨began, finished', ?_⟩
      rcases execute_spec hrun with ⟨rfl, rfl, rfl⟩ | ⟨rfl, rfl, hlog⟩
      · exact hticking.abort expiry finished
      · exact hticking.expire harmed finished hlog
  · have hunarmed := Function.update_of_ne (Ne.symm hj) next l.armed
    rcases execute_spec hrun with ⟨rfl, rfl, rfl⟩ | ⟨rfl, rfl, hlog⟩
    · exact frame (l := l) Iff.rfl hunarmed rfl rfl (List.Subset.refl _) (h.tasks j)
    · refine frame (l := l) Iff.rfl hunarmed ?_ ?_ (List.subset_append_left _ _) (h.tasks j)
      · exact stamps_other hlog hj
      · change executions (l.history ++ [_]) j = _
        rw [executions_expired, if_neg hj, Nat.add_zero]

theorem Good.turn {l l' : Watched tasks} (h : Good l) (hturn : Turn l l') : Good l' := by
  cases hturn with
  | start hposted hbegan hfinished hrun => exact h.start hposted hbegan hfinished hrun
  | complete harmed hrun => exact h.complete harmed hrun

theorem Good.turns {l l' : Watched tasks} (h : Good l) (hturns : Turns l l') : Good l' := by
  induction hturns with
  | refl => exact h
  | tail _ hturn ih => exact ih.turn hturn

/-- Neither waiting to be started nor armed: nothing runs the task again. -/
def Retired (l : Watched tasks) (i : Fin tasks.length) : Prop := i ∉ l.posted ∧ l.armed i = none

theorem Retired.turn {l l' : Watched tasks} {i : Fin tasks.length} (h : Retired l i)
    (hturn : Turn l l') : Retired l' i ∧ stamps l'.system.2 i = stamps l.system.2 i := by
  obtain ⟨hunposted, hunarmed⟩ := h
  cases hturn with
  | @start j rest began finished expiry state hposted _ _ hrun =>
    obtain ⟨_, hlog⟩ := start_spec hrun
    rw [hposted, List.mem_cons, not_or] at hunposted
    obtain ⟨hj, hrest⟩ := hunposted
    exact ⟨⟨hrest, (Function.update_of_ne hj _ _).trans hunarmed⟩, stamps_other hlog (Ne.symm hj)⟩
  | @complete j aborted expiry finished next state harmed hrun =>
    have hj : i ≠ j := by
      rintro rfl
      rw [hunarmed] at harmed
      cases harmed
    refine ⟨⟨hunposted, (Function.update_of_ne hj _ _).trans hunarmed⟩, ?_⟩
    change stamps state.2 i = _
    rcases execute_spec hrun with ⟨_, _, rfl⟩ | ⟨_, _, hlog⟩
    · rfl
    · exact stamps_other hlog (Ne.symm hj)

theorem Retired.turns {l l' : Watched tasks} {i : Fin tasks.length} (h : Retired l i)
    (hturns : Turns l l') : Retired l' i ∧ stamps l'.system.2 i = stamps l.system.2 i := by
  induction hturns with
  | refl => exact ⟨h, rfl⟩
  | tail _ hturn ih =>
    obtain ⟨hretired, hstamps⟩ := ih.1.turn hturn
    exact ⟨hretired, hstamps.trans ih.2⟩

/-- What `scheduler.run()` does with the watched tasks. -/
def watchedHandlers (tasks : Scheduler S) :
    Handlers (Fin tasks.length) Exception (S × List (Fin tasks.length × ℤ)) where
  start i began finished := (watchedTask tasks i).start began finished
  expire i expiry := (watchedTask tasks i).execute false expiry

theorem turn_of_step {l l' : Watched tasks} (hclock : 0 ≤ l.clock)
    (h : Step (watchedHandlers tasks) l l') : Turn l l' ∧ 0 ≤ l'.clock := by
  cases h with
  | start hposted hbegan hfinished hrun =>
    have nonneg := Int.le_trans hclock hbegan
    exact ⟨.start hposted nonneg hfinished hrun, Int.le_trans nonneg hfinished⟩
  | @expire i expiry _ finished next state hposted harmed hnow _ _ hfinished hrun =>
    have turn : Turn l (completedBy l i false expiry finished next state) := .complete harmed hrun
    rw [← hposted]
    exact ⟨turn, Int.le_trans (Int.le_trans hclock hnow) hfinished⟩

/-- A clock that never goes back makes such turns only. -/
theorem turns_of_reachable {l l' : Watched tasks} (hclock : 0 ≤ l.clock)
    (h : Reachable (watchedHandlers tasks) l l') : Turns l l' ∧ 0 ≤ l'.clock := by
  induction h with
  | refl => exact ⟨.refl, hclock⟩
  | tail _ hstep ih =>
    obtain ⟨hturns, hclock⟩ := ih
    obtain ⟨hturn, hlater⟩ := turn_of_step hclock hstep
    exact ⟨hturns.tail hturn, hlater⟩

/-- The expiry after all executions so far fits the 64 bits of the timer. -/
def InRange (l : Watched tasks) (i : Fin tasks.length) : Prop :=
  ∀ began finished, .started i began finished ∈ l.history →
    (tasks.get i).firstExpiry began finished +
      executions l.history i * ((tasks.get i).interval * ticksPerSecond) < 2^63

/-- Once the task is started, its timer calls it with `s`, `s + interval` and so on, and is
    armed for the next of them. -/
def TicksEvenly (l : Watched tasks) (i : Fin tasks.length) : Prop :=
  let t := tasks.get i
  (i ∈ l.posted ∧ stamps l.system.2 i = []) ∨
    ∃ began finished s, .started i began finished ∈ l.history ∧
      stamps l.system.2 i = t.extra began ++
        (List.range (executions l.history i)).map (fun (k : ℕ) => s + k * t.interval) ∧
      (∀ expiry, l.armed i = some expiry →
        toSeconds expiry = s + executions l.history i * t.interval) ∧
      (t.mode = .executeAtMultiplesOfPeriod → t.interval ∣ s ∧ toSeconds began ≤ s ∧
        ∀ m, t.interval ∣ m → toSeconds began ≤ m → s ≤ m) ∧
      (t.mode = .executeAtStart → toSeconds began + t.interval ≤ s)

/-- An aborted wait runs nothing, and nothing runs the task after it. -/
def StopsWhenAborted (l : Watched tasks) (i : Fin tasks.length) : Prop :=
  ∀ expiry, l.armed i = some expiry →
    ((watchedTask tasks i).execute true expiry).run l.system = .ok none l.system ∧
      ∀ finished l', Turns (completedBy l i true expiry finished none l.system) l' →
        l'.armed i = none ∧ stamps l'.system.2 i = stamps l.system.2 i

theorem Ticking.ticksEvenly {l : Watched tasks} {i : Fin tasks.length} {began finished : ℤ}
    (h : Ticking l i began finished) (hpositive : 0 < (tasks.get i).interval)
    (hint : (tasks.get i).mode = .executeAtMultiplesOfPeriod → (tasks.get i).interval < 2^31)
    (hrange : InRange l i) : TicksEvenly l i := by
  have multiple (hmode : (tasks.get i).mode = .executeAtMultiplesOfPeriod) :
      (tasks.get i).multiple = (tasks.get i).interval :=
    Int32.toInt_ofInt_of_le (by omega) (hint hmode)
  have nonneg : 0 ≤ (tasks.get i).firstExpiry began finished :=
    firstExpiry_nonneg _ hpositive (fun hmode => (multiple hmode).symm ▸ hpositive) h.nonneg h.ordered
  have last := hrange began finished h.started
  have tick (k : ℕ) (hk : k ≤ executions l.history i) :
      toSeconds (ticks ((tasks.get i).firstExpiry began finished +
        k * ((tasks.get i).interval * ticksPerSecond))) =
        toSeconds ((tasks.get i).firstExpiry began finished) + k * (tasks.get i).interval := by
    have period : 0 ≤ (tasks.get i).interval * ticksPerSecond :=
      Int.mul_nonneg (Int.le_of_lt hpositive) (by decide)
    have turns : (k : ℤ) * ((tasks.get i).interval * ticksPerSecond) ≤
        executions l.history i * ((tasks.get i).interval * ticksPerSecond) :=
      Int.mul_le_mul_of_nonneg_right (by omega) period
    have later : 0 ≤ (k : ℤ) * ((tasks.get i).interval * ticksPerSecond) :=
      Int.mul_nonneg (by omega) period
    rw [ticks_eq (by omega) (by omega), ← Int.mul_assoc]
    exact toSeconds_add_periods nonneg _ (Int.mul_nonneg (Int.natCast_nonneg k) (by omega))
  refine .inr ⟨began, finished, toSeconds ((tasks.get i).firstExpiry began finished), h.started,
    ?_, ?_, ?_, ?_⟩
  · rw [h.stamps_eq]
    congr 1
    exact List.map_congr_left fun k hk => tick k (Nat.le_of_lt (List.mem_range.mp hk))
  · intro expiry harmed
    rw [h.armed_eq expiry harmed, tick _ (Nat.le_refl _)]
  · intro hmode
    rw [ScheduledTask.firstExpiry, if_pos hmode, toSeconds_mul, multiple hmode]
    exact roundedUp_least (toSeconds_mono h.nonneg) hpositive
  · intro hmode
    have other : (tasks.get i).mode ≠ .executeAtMultiplesOfPeriod := by
      rw [hmode]
      decide
    have late := toSeconds_mono h.ordered
    rw [ScheduledTask.firstExpiry, if_neg other,
      toSeconds_add_periods (Int.le_trans h.nonneg h.ordered) _ (Int.le_of_lt hpositive)]
    omega

theorem Good.stopsWhenAborted {l : Watched tasks} (h : Good l) (i : Fin tasks.length) :
    StopsWhenAborted l i := by
  intro expiry harmed
  refine ⟨rfl, fun finished l' hturns => ?_⟩
  have unposted : i ∉ l.posted := by
    rcases h.tasks i with hwaiting | ⟨_, _, hticking⟩
    · rw [hwaiting.unarmed] at harmed
      cases harmed
    · exact hticking.unposted
  have retired : Retired (completedBy l i true expiry finished none l.system) i := by
    refine ⟨unposted, ?_⟩
    change Function.update l.armed i none i = none
    rw [Function.update_self]
  obtain ⟨hretired, hstamps⟩ := retired.turns hturns
  exact ⟨hretired.2, hstamps⟩

/-- While 64 bits hold its instants, no task drifts, skips a tick or repeats one, whatever the
    handlers take. -/
theorem scheduled_ticks {system : S} {clock : ℤ} {l : Watched tasks}
    (hrun : Turns (posted tasks system clock) l) {i : Fin tasks.length}
    (hpositive : 0 < (tasks.get i).interval)
    (hint : (tasks.get i).mode = .executeAtMultiplesOfPeriod → (tasks.get i).interval < 2^31)
    (hrange : InRange l i) : TicksEvenly l i ∧ StopsWhenAborted l i := by
  have good := (Good.posted system clock).turns hrun
  refine ⟨?_, good.stopsWhenAborted i⟩
  rcases good.tasks i with hwaiting | ⟨_, _, hticking⟩
  · exact .inl ⟨hwaiting.posted, hwaiting.uncalled⟩
  · exact hticking.ticksEvenly hpositive hint hrange

end Runs

def clockTasks : Scheduler Unit :=
  [⟨"clock", 10, fun _ => pure (), .executeAtMultiplesOfPeriod⟩]

theorem scheduled_ticks_clock : ∃ l : Watched clockTasks,
    Turns (posted clockTasks () 0) l ∧ stamps l.system.2 ⟨0, by decide⟩ = [20] ∧
      TicksEvenly l ⟨0, by decide⟩ ∧ StopsWhenAborted l ⟨0, by decide⟩ := by
  have run : Turns (posted clockTasks () 0) (completedBy (startedBy (posted clockTasks () 0)
      ⟨0, by decide⟩ [] 12000000000 12000000000 20000000000 ((), [])) ⟨0, by decide⟩ false
      20000000000 25000000000 (some 30000000000) ((), [(⟨0, by decide⟩, 20)])) :=
    .tail (.single (.start rfl (by decide) (by decide) rfl)) (.complete rfl rfl)
  refine ⟨_, run, rfl, scheduled_ticks run (by decide) (by decide) ?_⟩
  intro began finished hmem
  let i : Fin clockTasks.length := ⟨0, by decide⟩
  change Event.started i began finished ∈
    [.started i 12000000000 12000000000, .expired i 20000000000] at hmem
  obtain ⟨rfl, rfl⟩ : began = 12000000000 ∧ finished = 12000000000 := by simpa using hmem
  decide +kernel

/-- An interval of one second more than the timer can count. -/
def centuryTasks : Scheduler Unit := [⟨"century", 9223372037, fun _ => pure (), .executeAtStart⟩]

/-- Its timer goes back and forth between 1731 and 2024. -/
theorem scheduled_ticks_century_fail : ∃ l : Watched centuryTasks,
    Turns (posted centuryTasks () 0) l ∧
      stamps l.system.2 ⟨0, by decide⟩ = [1709210096, -7514161940, 1709210096] ∧
      ¬ TicksEvenly l ⟨0, by decide⟩ := by
  let i : Fin centuryTasks.length := ⟨0, by decide⟩
  have start : ((watchedTask centuryTasks i).start 1709210096000000000 1709210096000000000).run
      ((), []) = .ok (-7514161940709551616) ((), [(i, 1709210096)]) := rfl
  have back : ((watchedTask centuryTasks i).execute false (-7514161940709551616)).run
      ((), [(i, 1709210096)]) = .ok (some 1709210096290448384)
        ((), [(i, 1709210096), (i, -7514161940)]) := rfl
  have forth : ((watchedTask centuryTasks i).execute false 1709210096290448384).run
      ((), [(i, 1709210096), (i, -7514161940)]) = .ok (some (-7514161940419103232))
        ((), [(i, 1709210096), (i, -7514161940), (i, 1709210096)]) := rfl
  let l1 := startedBy (posted centuryTasks () 0) i [] 1709210096000000000 1709210096000000000
    (-7514161940709551616) ((), [(i, 1709210096)])
  let l2 := completedBy l1 i false (-7514161940709551616) 1709210096000000000
    (some 1709210096290448384) ((), [(i, 1709210096), (i, -7514161940)])
  let l3 := completedBy l2 i false 1709210096290448384 1709210097000000000
    (some (-7514161940419103232)) ((), [(i, 1709210096), (i, -7514161940), (i, 1709210096)])
  have run1 : Turns (posted centuryTasks () 0) l1 :=
    .single (.start rfl (by decide) (Int.le_refl _) start)
  have run2 : Turns (posted centuryTasks () 0) l2 := run1.tail (.complete rfl back)
  have run3 : Turns (posted centuryTasks () 0) l3 := run2.tail (.complete rfl forth)
  refine ⟨l3, run3, rfl, ?_⟩
  rintro (⟨hposted, _⟩ | ⟨began, _, s, _, hstamps, _⟩)
  · exact absurd hposted List.not_mem_nil
  · change [1709210096, -7514161940, 1709210096] =
      [toSeconds began, s + (0 : ℕ) * 9223372037, s + (1 : ℕ) * 9223372037] at hstamps
    simp only [List.cons.injEq] at hstamps
    omega

end ModbusCrawler.TaskTicks
