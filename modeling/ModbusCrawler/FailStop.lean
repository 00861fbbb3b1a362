import Mathlib.Data.List.Forall2
import Mathlib.Tactic.Common

set_option autoImplicit false

/-!
# Scripts that put requests to a peer and stop at the first refused one

A peer answers each request from everything that was exchanged before it, so a
peer is also an arbitrary pattern of successes and failures. A script that
checks every answer sends a prefix of its requests, and it throws exactly when
the last answer it got was refused.
-/
namespace ModbusCrawler.FailStop

variable {Req Ans Err : Type}

abbrev Log (Req Ans : Type) := List (Req × Ans)

abbrev Peer (Req Ans : Type) := Log Req Ans → Req → Ans

/-- A program with exceptions: what was exchanged before a throw stays in the log. -/
abbrev Script (Req Ans Err : Type) := EStateM Err (Log Req Ans)

def ask (peer : Peer Req Ans) (request : Req) : Script Req Ans Err Ans := fun log =>
  .ok (peer log request) (log ++ [(request, peer log request)])

/-- One request with the test its answer has to pass. -/
structure Step (Req Ans Err : Type) where
  request : Req
  accepts : Ans → Bool
  failure : Ans → Err

def Step.run (peer : Peer Req Ans) (step : Step Req Ans Err) : Script Req Ans Err Unit := do
  let answer ← ask peer step.request
  if step.accepts answer then pure () else throw (step.failure answer)

def runAll (peer : Peer Req Ans) : List (Step Req Ans Err) → Script Req Ans Err Unit
  | [] => pure ()
  | step :: rest => do
    step.run peer
    runAll peer rest

def finalLog {α : Type} (script : Script Req Ans Err α) (log : Log Req Ans) : Log Req Ans :=
  match script.run log with
  | .ok _ log' | .error _ log' => log'

def Answered (step : Step Req Ans Err) (exchange : Req × Ans) : Prop :=
  exchange.1 = step.request ∧ step.accepts exchange.2 = true

def Refused (step : Step Req Ans Err) (exchange : Req × Ans) : Prop :=
  exchange.1 = step.request ∧ step.accepts exchange.2 = false

@[simp] theorem ask_run (peer : Peer Req Ans) (request : Req) (log : Log Req Ans) :
    (ask peer request : Script Req Ans Err Ans).run log =
      .ok (peer log request) (log ++ [(request, peer log request)]) := rfl

theorem step_run (peer : Peer Req Ans) (step : Step Req Ans Err) (log : Log Req Ans) :
    (step.run peer).run log =
      if step.accepts (peer log step.request) then
        .ok () (log ++ [(step.request, peer log step.request)])
      else .error (step.failure (peer log step.request))
        (log ++ [(step.request, peer log step.request)]) := by
  unfold Step.run
  rw [EStateM.run_bind, ask_run]
  dsimp only
  split_ifs <;> rfl

theorem runAll_cons (peer : Peer Req Ans) (step : Step Req Ans Err)
    (rest : List (Step Req Ans Err)) (log : Log Req Ans) :
    (runAll peer (step :: rest)).run log =
      if step.accepts (peer log step.request) then
        (runAll peer rest).run (log ++ [(step.request, peer log step.request)])
      else .error (step.failure (peer log step.request))
        (log ++ [(step.request, peer log step.request)]) := by
  change (step.run peer >>= fun _ => runAll peer rest).run log = _
  rw [EStateM.run_bind, step_run]
  split_ifs <;> rfl

@[simp] theorem runAll_singleton (peer : Peer Req Ans) (step : Step Req Ans Err) :
    runAll peer [step] = step.run peer := bind_pure _

theorem runAll_append (peer : Peer Req Ans) (first second : List (Step Req Ans Err)) :
    runAll peer (first ++ second) = (do runAll peer first; runAll peer second) := by
  induction first with
  | nil => exact (pure_bind _ _).symm
  | cons step rest ih =>
    change (step.run peer >>= fun _ => runAll peer (rest ++ second)) =
      (step.run peer >>= fun _ => runAll peer rest) >>= fun _ => runAll peer second
    rw [ih, bind_assoc]

/-- Everything a run can do: it gets every step answered, or it stops at the
    first refused one and sends nothing after it. -/
theorem runAll_cases (peer : Peer Req Ans) (steps : List (Step Req Ans Err))
    (log : Log Req Ans) :
    (∃ sent, List.Forall₂ Answered steps sent ∧
      (runAll peer steps).run log = .ok () (log ++ sent)) ∨
    (∃ before step after sent exchange, steps = before ++ step :: after ∧
      List.Forall₂ Answered before sent ∧ Refused step exchange ∧
      (runAll peer steps).run log =
        .error (step.failure exchange.2) (log ++ (sent ++ [exchange]))) := by
  induction steps generalizing log with
  | nil => exact .inl ⟨[], .nil, by simp [runAll]⟩
  | cons step rest ih =>
    rw [runAll_cons]
    cases ha : step.accepts (peer log step.request) with
    | false =>
      refine .inr ⟨[], step, rest, [], (step.request, peer log step.request), rfl, .nil,
        ⟨rfl, ha⟩, ?_⟩
      simp
    | true =>
      have head : Answered step (step.request, peer log step.request) := ⟨rfl, ha⟩
      rcases ih (log ++ [(step.request, peer log step.request)]) with
        ⟨sent, hsent, hrun⟩ | ⟨before, bad, after, sent, exchange, hsteps, hsent, hbad, hrun⟩
      · refine .inl ⟨_ :: sent, .cons head hsent, ?_⟩
        simpa using hrun
      · refine .inr ⟨step :: before, bad, after, _ :: sent, exchange, by rw [hsteps]; rfl,
          .cons head hsent, hbad, ?_⟩
        simpa using hrun

theorem answered_good {good : Req × Ans → Prop} {steps : List (Step Req Ans Err)}
    {sent : Log Req Ans} (h : List.Forall₂ Answered steps sent)
    (hgood : ∀ step ∈ steps, ∀ answer, step.accepts answer = true ↔ good (step.request, answer)) :
    ∀ exchange ∈ sent, good exchange := by
  induction h with
  | nil => intro exchange hmem; cases hmem
  | @cons step exchange _ _ head _ ih =>
    intro e he
    rcases List.mem_cons.mp he with rfl | htail
    · obtain ⟨request, answer⟩ := e
      obtain ⟨rfl, haccepts⟩ := head
      exact (hgood step (by simp) answer).mp haccepts
    · exact ih (fun s hs => hgood s (by simp [hs])) e htail

theorem answered_requests {steps : List (Step Req Ans Err)} {sent : Log Req Ans}
    (h : List.Forall₂ Answered steps sent) : sent.map Prod.fst = steps.map Step.request := by
  induction h with
  | nil => rfl
  | cons head _ ih => simp [head.1, ih]

theorem answered_forall {P : Req → Prop} {steps : List (Step Req Ans Err)} {sent : Log Req Ans}
    (h : List.Forall₂ Answered steps sent) (hP : ∀ step ∈ steps, P step.request) :
    ∀ exchange ∈ sent, P exchange.1 := by
  intro exchange hexchange
  have mem : exchange.1 ∈ sent.map Prod.fst := List.mem_map_of_mem hexchange
  rw [answered_requests h] at mem
  obtain ⟨step, hstep, hrequest⟩ := List.mem_map.mp mem
  rw [← hrequest]
  exact hP step hstep

theorem answered_append {first second : List (Step Req Ans Err)} {sent : Log Req Ans}
    (h : List.Forall₂ Answered (first ++ second) sent) : ∃ left right, sent = left ++ right ∧
      List.Forall₂ Answered first left ∧ List.Forall₂ Answered second right := by
  induction first generalizing sent with
  | nil => exact ⟨[], sent, rfl, .nil, h⟩
  | cons step rest ih =>
    obtain ⟨exchange, tail, head, htail, rfl⟩ := List.forall₂_cons_left_iff.mp h
    obtain ⟨left, right, rfl, hleft, hright⟩ := ih htail
    exact ⟨exchange :: left, right, rfl, .cons head hleft, hright⟩

/-- When the steps accept exactly the good exchanges, a run returns with all of them
    good, or it throws at the first bad one. -/
theorem runAll_checked (peer : Peer Req Ans) (steps : List (Step Req Ans Err))
    (log : Log Req Ans) (good : Req × Ans → Prop)
    (hgood : ∀ step ∈ steps, ∀ answer, step.accepts answer = true ↔ good (step.request, answer)) :
    (∃ sent, (runAll peer steps).run log = .ok () (log ++ sent) ∧
      sent.map Prod.fst = steps.map Step.request ∧ ∀ exchange ∈ sent, good exchange) ∨
    (∃ e sent bad, (runAll peer steps).run log = .error e (log ++ (sent ++ [bad])) ∧
      (sent ++ [bad]).map Prod.fst <+: steps.map Step.request ∧
      (∀ exchange ∈ sent, good exchange) ∧ ¬ good bad) := by
  rcases runAll_cases peer steps log with
    ⟨sent, hsent, hrun⟩ | ⟨before, step, after, sent, exchange, rfl, hsent, hbad, hrun⟩
  · exact .inl ⟨sent, hrun, answered_requests hsent, answered_good hsent hgood⟩
  · refine .inr ⟨_, sent, exchange, hrun, ?_, ?_, ?_⟩
    · refine ⟨after.map Step.request, ?_⟩
      simp [answered_requests hsent, hbad.1]
    · exact answered_good hsent (fun s hs => hgood s (by simp [hs]))
    · obtain ⟨request, answer⟩ := exchange
      obtain ⟨rfl, hrefuses⟩ := hbad
      rw [← hgood step (by simp) answer, hrefuses]
      decide

theorem runAll_accepted (peer : Peer Req Ans) (steps : List (Step Req Ans Err))
    (log : Log Req Ans)
    (h : ∀ step ∈ steps, ∀ log, step.accepts (peer log step.request) = true) :
    ∃ sent, List.Forall₂ Answered steps sent ∧
      (runAll peer steps).run log = .ok () (log ++ sent) := by
  induction steps generalizing log with
  | nil => exact ⟨[], .nil, by simp [runAll]⟩
  | cons step rest ih =>
    have head := h step (by simp) log
    obtain ⟨sent, hsent, hrun⟩ := ih (log ++ [(step.request, peer log step.request)])
      (fun s hs => h s (by simp [hs]))
    refine ⟨(step.request, peer log step.request) :: sent, .cons ⟨rfl, head⟩ hsent, ?_⟩
    rw [runAll_cons, if_pos head]
    simpa using hrun

theorem runAll_throws (peer : Peer Req Ans) (steps : List (Step Req Ans Err))
    (log : Log Req Ans) {bad : Step Req Ans Err} (hmem : bad ∈ steps)
    (hbad : ∀ log, bad.accepts (peer log bad.request) = false) :
    ∃ e log', (runAll peer steps).run log = .error e log' := by
  induction steps generalizing log with
  | nil => cases hmem
  | cons step rest ih =>
    rw [runAll_cons]
    by_cases ha : step.accepts (peer log step.request) = true
    · rw [if_pos ha]
      rcases List.mem_cons.mp hmem with rfl | htail
      · rw [hbad log] at ha
        cases ha
      · exact ih _ htail
    · rw [if_neg ha]
      exact ⟨_, _, rfl⟩

end ModbusCrawler.FailStop
