import Mathlib.Algebra.BigOperators.Group.Finset.Basic
import Mathlib.Algebra.Order.Group.Int
import Mathlib.Data.Fintype.Basic
import Mathlib.Tactic.Ring
import ModbusCrawler.EventLoop

set_option autoImplicit false

/-!
# Timers that are always armed again

Where every expiry arms its timer one period later, a timer expires at even distances,
and none is starved: the number of expiries that can still come before its own one
goes down with each of them. A timer may hold only some of the instants.
-/
namespace ModbusCrawler.TimerWaiting
open EventLoop

variable {ι ε S : Type} [DecidableEq ι]

/-- Every handler is still to start, or its timer is armed. -/
def Live (l : Loop ι S) : Prop := ∀ i, i ∈ l.posted ∨ (l.armed i).isSome

/-- Every expiry arms its timer with what it holds of the instant one period later. -/
def Rearms (h : Handlers ι ε S) (holds : ℤ → ℤ) (period : ι → ℤ) : Prop :=
  ∀ i expiry system next system', (h.expire i expiry).run system = .ok next system' →
    next = some (holds (expiry + period i))

/-- Up to an instant the timer holds one that is not too early. -/
def Late (holds : ℤ → ℤ) (latest period : ℤ) : Prop :=
  ∀ expiry ≤ latest, expiry + period ≤ holds (expiry + period)

omit [DecidableEq ι] in
theorem Rearms.forward {h : Handlers ι ε S} {holds : ℤ → ℤ} {period : ι → ℤ} {latest : ℤ}
    (hrearms : Rearms h holds period) (hperiod : ∀ i, 0 ≤ period i)
    (hlate : ∀ i, Late holds latest (period i)) : Forward h latest := by
  intro i expiry system next system' hpassed hrun
  rw [Option.some_inj.mp (hrearms i expiry system _ system' hrun)]
  have later := hlate i expiry hpassed
  have nonneg := hperiod i
  omega

theorem Live.step {h : Handlers ι ε S} {holds : ℤ → ℤ} {period : ι → ℤ}
    (hrearms : Rearms h holds period) {l l' : Loop ι S} (hlive : Live l) (hstep : Step h l l') :
    Live l' := by
  intro j
  cases hstep with
  | @start i rest began finished expiry system hposted _ _ _ =>
    by_cases hj : j = i
    · subst hj
      refine .inr ?_
      change (Function.update l.armed j (some expiry) j).isSome
      rw [Function.update_self]
      rfl
    · refine (hlive j).imp (fun hmem => ?_) (fun harmed => ?_)
      · rw [hposted] at hmem
        exact (List.mem_cons.mp hmem).resolve_left hj
      · change (Function.update l.armed i (some expiry) j).isSome
        rw [Function.update_of_ne hj]
        exact harmed
  | @expire i expiry now finished next system hposted _ _ _ _ _ hrun =>
    refine .inr ?_
    change (Function.update l.armed i next j).isSome
    by_cases hj : j = i
    · subst hj
      rw [Function.update_self, hrearms _ _ _ _ _ hrun]
      rfl
    · rw [Function.update_of_ne hj]
      refine (hlive j).resolve_left (fun hmem => ?_)
      rw [hposted] at hmem
      cases hmem

theorem Live.reachable {h : Handlers ι ε S} {holds : ℤ → ℤ} {period : ι → ℤ}
    (hrearms : Rearms h holds period) {l l' : Loop ι S} (hlive : Live l)
    (hreach : Reachable h l l') : Live l' := by
  induction hreach with
  | refl => exact hlive
  | tail _ hstep ih => exact ih.step hrearms hstep

section Spaced

def expiries (history : List (Event ι)) (i : ι) : List ℤ :=
  history.filterMap (fun event => match event with
    | .expired j expiry => if j = i then some expiry else none
    | .started _ _ _ => none)

theorem expiries_started (history : List (Event ι)) (i j : ι) (began finished : ℤ) :
    expiries (history ++ [.started j began finished]) i = expiries history i := by
  simp [expiries]

theorem expiries_expired (history : List (Event ι)) (i j : ι) (expiry : ℤ) :
    expiries (history ++ [.expired j expiry]) i =
      expiries history i ++ if j = i then [expiry] else [] := by
  unfold expiries
  rw [List.filterMap_append]
  by_cases hj : j = i <;> simp [hj]

/-- Every timer has expired at what it holds of even distances so far, and it is armed for the
    next turn. -/
structure Spaced (holds : ℤ → ℤ) (period : ι → ℤ) (l : Loop ι S) : Prop where
  nodup : l.posted.Nodup
  waiting : ∀ i ∈ l.posted, expiries l.history i = []
  spaced : ∀ i ∉ l.posted, ∃ (first : ℤ) (n : ℕ),
    expiries l.history i = (List.range n).map (fun k : ℕ => holds (first + k * period i)) ∧
      l.armed i = some (holds (first + n * period i))

theorem Spaced.step {h : Handlers ι ε S} {holds : ℤ → ℤ} {period : ι → ℤ}
    (hrearms : Rearms h holds period) (hadd : ∀ a b, holds (holds a + b) = holds (a + b))
    (hstarts : ∀ i began finished expiry system system',
      (h.start i began finished).run system = .ok expiry system' → ∃ first, expiry = holds first)
    {l l' : Loop ι S} (hspaced : Spaced holds period l) (hstep : Step h l l') :
    Spaced holds period l' := by
  cases hstep with
  | @start i rest began finished expiry system hposted _ _ hrun =>
    have nodup := hspaced.nodup
    rw [hposted, List.nodup_cons] at nodup
    refine ⟨nodup.2, ?_, ?_⟩
    · intro j hj
      dsimp only
      rw [expiries_started]
      exact hspaced.waiting j (by rw [hposted]; exact List.mem_cons_of_mem _ hj)
    · intro j hj
      dsimp only
      rw [expiries_started]
      by_cases hji : j = i
      · subst hji
        obtain ⟨first, rfl⟩ := hstarts _ _ _ _ _ _ hrun
        refine ⟨first, 0, hspaced.waiting j (by rw [hposted]; exact List.mem_cons_self ..), ?_⟩
        rw [Function.update_self]
        simp
      · rw [Function.update_of_ne hji]
        refine hspaced.spaced j ?_
        rw [hposted, List.mem_cons]
        exact fun hmem => hmem.elim hji hj
  | @expire i expiry now finished next system hposted harmed _ _ _ _ hrun =>
    refine ⟨List.nodup_nil, fun j hj => (List.not_mem_nil hj).elim, ?_⟩
    intro j _
    dsimp only
    obtain ⟨first, n, hexpiries, hnext⟩ := hspaced.spaced j (by rw [hposted]; exact List.not_mem_nil)
    rw [expiries_expired, hexpiries]
    by_cases hji : i = j
    · subst hji
      rw [harmed, Option.some_inj] at hnext
      refine ⟨first, n + 1, ?_, ?_⟩
      · rw [if_pos rfl, List.range_succ, List.map_append, hnext]
        rfl
      · rw [Function.update_self, hrearms _ _ _ _ _ hrun, hnext, hadd]
        push_cast
        ring_nf
    · rw [if_neg hji, List.append_nil, Function.update_of_ne (Ne.symm hji)]
      exact ⟨first, n, rfl, hnext⟩

theorem Spaced.reachable {h : Handlers ι ε S} {holds : ℤ → ℤ} {period : ι → ℤ}
    (hrearms : Rearms h holds period) (hadd : ∀ a b, holds (holds a + b) = holds (a + b))
    (hstarts : ∀ i began finished expiry system system',
      (h.start i began finished).run system = .ok expiry system' → ∃ first, expiry = holds first)
    {l l' : Loop ι S} (hspaced : Spaced holds period l) (hreach : Reachable h l l') :
    Spaced holds period l' := by
  induction hreach with
  | refl => exact hspaced
  | tail _ hstep ih => exact ih.step hrearms hadd hstarts hstep

end Spaced

section Paced

/-- The instants at which a handler ran: its start, then its expiries. -/
def instants (history : List (Event ι)) (i : ι) : List ℤ :=
  history.filterMap (fun event => match event with
    | .started j began _ => if j = i then some began else none
    | .expired j expiry => if j = i then some expiry else none)

theorem instants_started (history : List (Event ι)) (i j : ι) (began finished : ℤ) :
    instants (history ++ [.started j began finished]) i =
      instants history i ++ if j = i then [began] else [] := by
  unfold instants
  rw [List.filterMap_append]
  by_cases hj : j = i <;> simp [hj]

theorem instants_expired (history : List (Event ι)) (i j : ι) (expiry : ℤ) :
    instants (history ++ [.expired j expiry]) i =
      instants history i ++ if j = i then [expiry] else [] := by
  unfold instants
  rw [List.filterMap_append]
  by_cases hj : j = i <;> simp [hj]

/-- One handler whose instants are at least a period apart, the one to come included. -/
structure Paced (period : ℤ) (i : ι) (l : Loop ι S) : Prop where
  nodup : l.posted.Nodup
  clock : 0 ≤ l.clock
  waiting : i ∈ l.posted → instants l.history i = []
  paced : i ∉ l.posted → ∃ next, l.armed i = some next ∧ 0 ≤ next ∧
    (instants l.history i).Pairwise (fun earlier later => earlier + period ≤ later) ∧
    ∀ past ∈ instants l.history i, 0 ≤ past ∧ past + period ≤ next

theorem Paced.step {h : Handlers ι ε S} {holds : ℤ → ℤ} {period : ι → ℤ} {latest : ℤ}
    (hrearms : Rearms h holds period) {i : ι} (hperiod : 0 ≤ period i)
    (hlate : Late holds latest (period i))
    (hstarts : ∀ began finished expiry system system', began ≤ finished → finished ≤ latest →
      (h.start i began finished).run system = .ok expiry system' → began + period i ≤ expiry)
    {l l' : Loop ι S} (hlatest : l'.clock ≤ latest) (hpaced : Paced (period i) i l)
    (hstep : Step h l l') : Paced (period i) i l' := by
  have clock := hpaced.clock
  cases hstep with
  | @start j rest began finished expiry system hposted hclock hfinished hrun =>
    have nodup := hpaced.nodup
    rw [hposted, List.nodup_cons] at nodup
    refine ⟨nodup.2, by dsimp only; omega, fun hi => ?_, fun hi => ?_⟩
    · dsimp only at hi ⊢
      have other : j ≠ i := by
        rintro rfl
        exact nodup.1 hi
      rw [instants_started, if_neg other, List.append_nil]
      exact hpaced.waiting (by rw [hposted]; exact List.mem_cons_of_mem _ hi)
    · dsimp only at hi ⊢
      rw [instants_started]
      by_cases hj : j = i
      · subst hj
        have first : instants l.history j = [] :=
          hpaced.waiting (by rw [hposted]; exact List.mem_cons_self ..)
        have after := hstarts began finished expiry _ _ hfinished hlatest hrun
        rw [first, if_pos rfl, Function.update_self]
        refine ⟨expiry, rfl, by omega, List.pairwise_singleton _ _, fun past hpast => ?_⟩
        rw [List.mem_singleton.mp hpast]
        omega
      · rw [if_neg hj, List.append_nil, Function.update_of_ne (Ne.symm hj)]
        refine hpaced.paced ?_
        rw [hposted, List.mem_cons]
        exact fun hmem => hmem.elim (Ne.symm hj) hi
  | @expire j expiry now finished next system hposted harmed hclock hdue _ hfinished hrun =>
    have passed : expiry ≤ latest := Int.le_trans hdue (Int.le_trans hfinished hlatest)
    refine ⟨List.nodup_nil, by dsimp only; omega, fun hi => absurd hi List.not_mem_nil, fun _ => ?_⟩
    dsimp only
    obtain ⟨due, harmed', hnonneg, hapart, hpast⟩ :=
      hpaced.paced (by rw [hposted]; exact List.not_mem_nil)
    rw [instants_expired]
    by_cases hj : j = i
    · subst hj
      rw [harmed, Option.some_inj] at harmed'
      subst harmed'
      have later := hlate expiry passed
      rw [if_pos rfl, Function.update_self, hrearms _ _ _ _ _ hrun]
      refine ⟨holds (expiry + period j), rfl, by omega, ?_, fun past hmem => ?_⟩
      · rw [List.pairwise_append]
        refine ⟨hapart, List.pairwise_singleton _ _, fun past hmem later hlater => ?_⟩
        rw [List.mem_singleton.mp hlater]
        exact (hpast past hmem).2
      · rcases List.mem_append.mp hmem with hold | hnew
        · have apart := hpast past hold
          omega
        · rw [List.mem_singleton.mp hnew]
          omega
    · rw [if_neg hj, List.append_nil, Function.update_of_ne (Ne.symm hj)]
      exact ⟨due, harmed', hnonneg, hapart, hpast⟩

theorem Paced.reachable {h : Handlers ι ε S} {holds : ℤ → ℤ} {period : ι → ℤ} {latest : ℤ}
    (hrearms : Rearms h holds period) {i : ι} (hperiod : 0 ≤ period i)
    (hlate : Late holds latest (period i))
    (hstarts : ∀ began finished expiry system system', began ≤ finished → finished ≤ latest →
      (h.start i began finished).run system = .ok expiry system' → began + period i ≤ expiry)
    {l l' : Loop ι S} (hlatest : l'.clock ≤ latest) (hpaced : Paced (period i) i l)
    (hreach : Reachable h l l') : Paced (period i) i l' := by
  induction hreach with
  | refl => exact hpaced
  | tail _ hstep ih =>
    exact (ih (Int.le_trans hstep.clock_le hlatest)).step hrearms hperiod hlate hstarts hlatest hstep

/-- All instants so far are at least a period apart, and none is negative. -/
theorem Paced.apart {period : ℤ} {i : ι} {l : Loop ι S} (h : Paced period i l) :
    (instants l.history i).Pairwise (fun earlier later => earlier + period ≤ later) ∧
      ∀ past ∈ instants l.history i, 0 ≤ past := by
  by_cases hi : i ∈ l.posted
  · rw [h.waiting hi]
    exact ⟨.nil, fun _ hpast => absurd hpast List.not_mem_nil⟩
  · obtain ⟨_, _, _, hapart, hpast⟩ := h.paced hi
    exact ⟨hapart, fun past hmem => (hpast past hmem).1⟩

end Paced

/-- How often a timer that is armed for `first` expires up to `last`. -/
def turns (last period first : ℤ) : ℕ :=
  if first ≤ last then ((last - first) / period + 1).toNat else 0

theorem turns_next {last period first next : ℤ} (hperiod : 0 < period) (h : first ≤ last)
    (hnext : first + period ≤ next) : turns last period next + 1 ≤ turns last period first := by
  have nonneg : 0 ≤ (last - first) / period := Int.ediv_nonneg (by omega) (by omega)
  unfold turns
  rw [if_pos h]
  split_ifs with hlast
  · have shifted : (last - next) / period ≤ (last - first) / period - 1 := by
      rw [← Int.ediv_self (Int.ne_of_gt hperiod), ← Int.sub_ediv_of_dvd _ (Int.dvd_refl period)]
      exact Int.ediv_le_ediv hperiod (by omega)
    have later : 0 ≤ (last - next) / period := Int.ediv_nonneg (by omega) (by omega)
    omega
  · omega

/-- The expiries of the other timers that can come before the one of `j` at `last`. -/
def ahead [Fintype ι] (period : ι → ℤ) (l : Loop ι S) (j : ι) (last : ℤ) : ℕ :=
  ∑ i, if i = j then 0 else ((l.armed i).map (turns last (period i))).getD 0

/-- A timer that waits for its expiry, and nothing is posted. -/
structure Waits (l : Loop ι S) (j : ι) (last : ℤ) : Prop where
  posted : l.posted = []
  armed : l.armed j = some last

section Waiting
variable [Fintype ι] {h : Handlers ι ε S} {holds : ℤ → ℤ} {period : ι → ℤ} {latest : ℤ}
  {l l' : Loop ι S} {j : ι} {last : ℤ}

/-- A step is the expiry that is waited for, or there is one less before it. -/
theorem Waits.step (hrearms : Rearms h holds period) (hperiod : ∀ i, 0 < period i)
    (hlate : ∀ i, Late holds latest (period i)) (hlatest : l'.clock ≤ latest)
    (hwaits : Waits l j last) (hstep : Step h l l') :
    ∃ event, l'.history = l.history ++ [event] ∧ (event = .expired j last ∨
      (Waits l' j last ∧ ahead period l' j last + 1 ≤ ahead period l j last)) := by
  cases hstep with
  | start hposted _ _ _ =>
    rw [hwaits.posted] at hposted
    cases hposted
  | @expire i expiry now finished next system hposted harmed _ hdue hearliest hfinished hrun =>
    refine ⟨_, rfl, ?_⟩
    by_cases hj : i = j
    · subst hj
      rw [hwaits.armed] at harmed
      cases harmed
      exact .inl rfl
    · have before : expiry ≤ last := by
        rcases Int.le_total last now with hle | hle
        · exact hearliest j last hwaits.armed hle
        · exact Int.le_trans hdue hle
      have passed : expiry ≤ latest := Int.le_trans hdue (Int.le_trans hfinished hlatest)
      refine .inr ⟨⟨rfl, ?_⟩, ?_⟩
      · change Function.update l.armed i next j = some last
        rw [Function.update_of_ne (Ne.symm hj)]
        exact hwaits.armed
      · unfold ahead
        rw [← Finset.add_sum_erase _ _ (Finset.mem_univ i), ← Finset.add_sum_erase _ _ (Finset.mem_univ i)]
        have others : ∀ k ∈ Finset.univ.erase i,
            (if k = j then 0 else ((Function.update l.armed i next k).map
              (turns last (period k))).getD 0) =
            if k = j then 0 else ((l.armed k).map (turns last (period k))).getD 0 := by
          intro k hk
          rw [Function.update_of_ne (Finset.ne_of_mem_erase hk)]
        dsimp only
        rw [Finset.sum_congr rfl others, if_neg hj, if_neg hj, Function.update_self, harmed,
          hrearms _ _ _ _ _ hrun]
        have next := turns_next (hperiod i) before (hlate i expiry passed)
        simp only [Option.map_some, Option.getD_some]
        omega

/-- In a run, the expiry that is waited for comes, or every expiry so far was one of those
    that can come before it. -/
theorem Waits.run (hrearms : Rearms h holds period) (hperiod : ∀ i, 0 < period i)
    (hlate : ∀ i, Late holds latest (period i)) (hlatest : l'.clock ≤ latest)
    (hwaits : Waits l j last) (hreach : Reachable h l l') :
    ∃ events, l'.history = l.history ++ events ∧ (.expired j last ∈ events ∨
      (Waits l' j last ∧ events.length + ahead period l' j last ≤ ahead period l j last)) := by
  induction hreach with
  | refl => exact ⟨[], (List.append_nil _).symm, .inr ⟨hwaits, Nat.le_of_eq (Nat.zero_add _)⟩⟩
  | tail _ hstep ih =>
    obtain ⟨events, hhistory, hcome | ⟨hwaiting, hcount⟩⟩ :=
      ih (Int.le_trans hstep.clock_le hlatest)
    · obtain ⟨event, hnew⟩ := hstep.history
      refine ⟨events ++ [event], ?_, .inl (List.mem_append_left _ hcome)⟩
      rw [hnew, hhistory, List.append_assoc]
    · obtain ⟨event, hnew, hevent⟩ := hwaiting.step hrearms hperiod hlate hlatest hstep
      refine ⟨events ++ [event], ?_, ?_⟩
      · rw [hnew, hhistory, List.append_assoc]
      · rcases hevent with rfl | ⟨hstill, hless⟩
        · exact .inl (List.mem_append_right _ (List.mem_singleton_self _))
        · refine .inr ⟨hstill, ?_⟩
          rw [List.length_append, List.length_singleton]
          omega

end Waiting

end ModbusCrawler.TimerWaiting
