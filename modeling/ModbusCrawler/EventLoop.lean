import Mathlib.Data.Finset.Max
import Mathlib.Data.Fintype.Basic
import Mathlib.Data.Int.Notation
import Mathlib.Logic.Function.Basic
import Mathlib.Logic.Relation
import Mathlib.Tactic.Common

set_option autoImplicit false

/-!
# A single-threaded loop with timers

The posted handlers run first, in their order. Then the loop always runs the timer
with the earliest expiry among those that are due. A handler may take any time.
-/
namespace ModbusCrawler.EventLoop

variable {ι ε S : Type} [DecidableEq ι]

/-- What the handlers do; each returns the expiry that it leaves its timer with. -/
structure Handlers (ι ε S : Type) where
  start : ι → (began finished : ℤ) → EStateM ε S ℤ
  expire : ι → (expiry : ℤ) → EStateM ε S (Option ℤ)

inductive Event (ι : Type) where
  | started (i : ι) (began finished : ℤ)
  | expired (i : ι) (expiry : ℤ)

structure Loop (ι S : Type) where
  system : S
  clock : ℤ
  posted : List ι
  armed : ι → Option ℤ := fun _ => none
  history : List (Event ι) := []

inductive Step (h : Handlers ι ε S) : Loop ι S → Loop ι S → Prop where
  | start {l : Loop ι S} {i : ι} {rest : List ι} {began finished expiry : ℤ} {system : S}
      (hposted : l.posted = i :: rest) (hclock : l.clock ≤ began) (hfinished : began ≤ finished)
      (hrun : (h.start i began finished).run l.system = .ok expiry system) :
      Step h l
        { system := system
          clock := finished
          posted := rest
          armed := Function.update l.armed i (some expiry)
          history := l.history ++ [.started i began finished] }
  | expire {l : Loop ι S} {i : ι} {expiry now finished : ℤ} {next : Option ℤ} {system : S}
      (hposted : l.posted = []) (harmed : l.armed i = some expiry) (hclock : l.clock ≤ now)
      (hdue : expiry ≤ now)
      (hearliest : ∀ j other, l.armed j = some other → other ≤ now → expiry ≤ other)
      (hfinished : now ≤ finished)
      (hrun : (h.expire i expiry).run l.system = .ok next system) :
      Step h l
        { system := system
          clock := finished
          posted := []
          armed := Function.update l.armed i next
          history := l.history ++ [.expired i expiry] }

theorem Step.history {h : Handlers ι ε S} {l l' : Loop ι S} (hstep : Step h l l') :
    ∃ event, l'.history = l.history ++ [event] := by
  cases hstep with
  | start _ _ _ _ => exact ⟨_, rfl⟩
  | expire _ _ _ _ _ _ _ => exact ⟨_, rfl⟩

theorem Step.clock_le {h : Handlers ι ε S} {l l' : Loop ι S} (hstep : Step h l l') :
    l.clock ≤ l'.clock := by
  cases hstep with
  | start _ hclock hfinished _ => exact Int.le_trans hclock hfinished
  | expire _ _ hclock _ _ hfinished _ => exact Int.le_trans hclock hfinished

abbrev Reachable (h : Handlers ι ε S) : Loop ι S → Loop ι S → Prop := Relation.ReflTransGen (Step h)

/-- Up to an instant no timer is armed for an earlier time than the one it expired at. -/
def Forward (h : Handlers ι ε S) (latest : ℤ) : Prop :=
  ∀ i expiry system next system', expiry ≤ latest →
    (h.expire i expiry).run system = .ok (some next) system' → expiry ≤ next

/-- Once a timer has expired, nothing is posted and no timer is armed for an earlier time. -/
def Behind (l : Loop ι S) : Prop :=
  ∀ i expiry, .expired i expiry ∈ l.history →
    l.posted = [] ∧ ∀ j other, l.armed j = some other → expiry ≤ other

theorem Behind.step {h : Handlers ι ε S} {latest : ℤ} (hforward : Forward h latest)
    {l l' : Loop ι S} (hclock : l'.clock ≤ latest) (hbehind : Behind l) (hstep : Step h l l') :
    Behind l' := by
  cases hstep with
  | @start i rest began finished expiry system hposted _ _ hrun =>
    intro j past hpast
    rcases List.mem_append.mp hpast with hold | hnew
    · rw [(hbehind j past hold).1] at hposted
      cases hposted
    · cases List.mem_singleton.mp hnew
  | @expire i expiry now finished next system hposted harmed _ hdue hearliest hfinished hrun =>
    have passed : expiry ≤ latest := Int.le_trans hdue (Int.le_trans hfinished hclock)
    -- the timer that expires is the earliest of all, not only of those that are due
    have earliest (j : ι) (other : ℤ) (hother : l.armed j = some other) : expiry ≤ other := by
      rcases Int.le_total other now with hle | hle
      · exact hearliest j other hother hle
      · exact Int.le_trans hdue hle
    have after (past : ℤ) (hpast : past ≤ expiry) (j : ι) (other : ℤ)
        (hother : Function.update l.armed i next j = some other) : past ≤ other := by
      refine Int.le_trans hpast ?_
      by_cases hj : j = i
      · subst hj
        rw [Function.update_self] at hother
        subst hother
        exact hforward _ _ _ _ _ passed hrun
      · rw [Function.update_of_ne hj] at hother
        exact earliest j other hother
    intro j past hpast
    refine ⟨rfl, ?_⟩
    rcases List.mem_append.mp hpast with hold | hnew
    · exact after past ((hbehind j past hold).2 i expiry harmed)
    · cases List.mem_singleton.mp hnew
      exact after expiry (Int.le_refl _)

section Serial

/-- The handler of an event, for its effect on the system only. -/
def Handlers.replay (h : Handlers ι ε S) : Event ι → EStateM ε S Unit
  | .started i began finished => do let _ ← h.start i began finished
  | .expired i expiry => do let _ ← h.expire i expiry

omit [DecidableEq ι] in
theorem Handlers.replay_started {h : Handlers ι ε S} {i : ι} {began finished expiry : ℤ}
    {system system' : S} (hrun : (h.start i began finished).run system = .ok expiry system') :
    (h.replay (.started i began finished)).run system = .ok () system' := by
  unfold Handlers.replay
  rw [EStateM.run_bind, hrun]
  rfl

omit [DecidableEq ι] in
theorem Handlers.replay_expired {h : Handlers ι ε S} {i : ι} {expiry : ℤ} {next : Option ℤ}
    {system system' : S} (hrun : (h.expire i expiry).run system = .ok next system') :
    (h.replay (.expired i expiry)).run system = .ok () system' := by
  unfold Handlers.replay
  rw [EStateM.run_bind, hrun]
  rfl

/-- A run is its handlers one after the other: nothing of them interleaves. -/
theorem Reachable.serial {h : Handlers ι ε S} {l l' : Loop ι S} (hreach : Reachable h l l') :
    ∃ events, l'.history = l.history ++ events ∧
      (forM events h.replay).run l.system = .ok () l'.system := by
  induction hreach with
  | refl => exact ⟨[], (List.append_nil _).symm, rfl⟩
  | @tail l1 l2 _ hstep ih =>
    obtain ⟨events, hhistory, hrun⟩ := ih
    have extend {event : Event ι} (hnew : l2.history = l1.history ++ [event])
        (hevent : (h.replay event).run l1.system = .ok () l2.system) :
        ∃ events, l2.history = l.history ++ events ∧
          (forM events h.replay).run l.system = .ok () l2.system := by
      refine ⟨events ++ [event], ?_, ?_⟩
      · rw [hnew, hhistory, List.append_assoc]
      · rw [List.forM_append, EStateM.run_bind, hrun]
        change (forM [event] h.replay).run l1.system = _
        rw [List.forM_cons, EStateM.run_bind, hevent]
        rfl
    cases hstep with
    | start _ _ _ hrun => exact extend rfl (Handlers.replay_started hrun)
    | expire _ _ _ _ _ _ hrun => exact extend rfl (Handlers.replay_expired hrun)

end Serial

/-- A loop with something left to do can go on, if no handler fails. -/
theorem exists_step [Fintype ι] {h : Handlers ι ε S} {l : Loop ι S}
    (hstart : ∀ i began finished, i ∈ l.posted →
      ∃ expiry system, (h.start i began finished).run l.system = .ok expiry system)
    (hexpire : ∀ i expiry, l.armed i = some expiry →
      ∃ next system, (h.expire i expiry).run l.system = .ok next system)
    (hlive : l.posted ≠ [] ∨ ∃ i expiry, l.armed i = some expiry) : ∃ l', Step h l l' := by
  cases hposted : l.posted with
  | cons i rest =>
    obtain ⟨expiry, system, hrun⟩ := hstart i l.clock l.clock (by rw [hposted]; simp)
    exact ⟨_, .start hposted (Int.le_refl _) (Int.le_refl _) hrun⟩
  | nil =>
    obtain ⟨j, other, hother⟩ := hlive.resolve_left (fun hne => hne hposted)
    let armed : Finset ι := Finset.univ.filter (fun i => (l.armed i).isSome)
    have there : j ∈ armed := by simp [armed, hother]
    obtain ⟨i, hi, hleast⟩ := armed.exists_min_image (fun i => (l.armed i).getD 0) ⟨j, there⟩
    obtain ⟨expiry, hexpiry⟩ := Option.isSome_iff_exists.mp (Finset.mem_filter.mp hi).2
    obtain ⟨next, system, hrun⟩ := hexpire i expiry hexpiry
    have earliest (k : ι) (later : ℤ) (hlater : l.armed k = some later) : expiry ≤ later := by
      have least := hleast k (by simp [armed, hlater])
      rw [hexpiry, hlater] at least
      exact least
    have hclock : l.clock ≤ max l.clock expiry := Int.le_max_left _ _
    have hdue : expiry ≤ max l.clock expiry := Int.le_max_right _ _
    exact ⟨_, .expire hposted hexpiry hclock hdue (fun k later hlater _ => earliest k later hlater)
      (Int.le_refl _) hrun⟩

end ModbusCrawler.EventLoop
