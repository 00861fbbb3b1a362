import ModbusCrawler.FailStop

set_option autoImplicit false

/-!
# Scripts that follow a plan

A plan is the list of requests that a script has to get through, with what it throws
when all of them went through. A script follows it from a log when it either gets
there or stops at the first request whose exchange is not good.
-/
namespace ModbusCrawler.ScriptPlans
open FailStop

variable {Req Ans Err α β : Type}

structure Plan (Req Err : Type) where
  requests : List Req
  thrown : Option Err := none

/-- What is good of an exchange, and what a script throws at one that is not. -/
structure Terms (Req Ans Err : Type) where
  good : Req × Ans → Prop
  unmet : Err → Prop

variable {terms : Terms Req Ans Err}

/-- The exchanges of a run that stopped before its plan was done. -/
def Broken (terms : Terms Req Ans Err) (requests : List Req) (sent : Log Req Ans) : Prop :=
  ∃ before bad, sent = before ++ [bad] ∧ sent.map Prod.fst <+: requests ∧
    (∀ exchange ∈ before, terms.good exchange) ∧ ¬ terms.good bad

def Follows (terms : Terms Req Ans Err) (log : Log Req Ans) (plan : Plan Req Err)
    (script : Script Req Ans Err α) : Prop :=
  (∃ sent, sent.map Prod.fst = plan.requests ∧ (∀ exchange ∈ sent, terms.good exchange) ∧
    match plan.thrown with
    | none => ∃ a, script.run log = .ok a (log ++ sent)
    | some e => script.run log = .error e (log ++ sent)) ∨
  ∃ sent e, Broken terms plan.requests sent ∧ terms.unmet e ∧
    script.run log = .error e (log ++ sent)

theorem Broken.cons {requests : List Req} {sent : Log Req Ans} {exchange : Req × Ans}
    (hgood : terms.good exchange) (h : Broken terms requests sent) :
    Broken terms (exchange.1 :: requests) (exchange :: sent) := by
  obtain ⟨before, bad, rfl, hprefix, hbefore, hbad⟩ := h
  refine ⟨exchange :: before, bad, rfl, ?_, ?_, hbad⟩
  · simpa using hprefix
  · simpa using ⟨hgood, fun request answer => hbefore (request, answer)⟩

theorem Follows.value (log : Log Req Ans) (a : α) :
    Follows terms log ⟨[], none⟩ (pure a : Script Req Ans Err α) := by
  refine .inl ⟨[], rfl, by simp, a, ?_⟩
  rw [List.append_nil]
  rfl

theorem Follows.throwing (log : Log Req Ans) (e : Err) :
    Follows terms log ⟨[], some e⟩ (throw e : Script Req Ans Err α) := by
  refine .inl ⟨[], rfl, by simp, ?_⟩
  rw [List.append_nil]
  rfl

/-- One request. What comes after it may depend on its answer. -/
theorem Follows.request (peer : Peer Req Ans) {log : Log Req Ans} {request : Req} (plan : Plan Req Err)
    {next : Ans → Script Req Ans Err α}
    (hgood : terms.good (request, peer log request) →
      Follows terms (log ++ [(request, peer log request)]) plan (next (peer log request)))
    (hbad : ¬ terms.good (request, peer log request) →
      ∃ e, terms.unmet e ∧ next (peer log request) = throw e) :
    Follows terms log ⟨request :: plan.requests, plan.thrown⟩ (ask peer request >>= next) := by
  have run : (ask peer request >>= next).run log =
      (next (peer log request)).run (log ++ [(request, peer log request)]) := rfl
  unfold Follows
  rw [run]
  by_cases h : terms.good (request, peer log request)
  · rcases hgood h with ⟨sent, hsent, hall, hrun⟩ | ⟨sent, e, hbroken, he, hrun⟩
    · refine .inl ⟨(request, peer log request) :: sent, by rw [List.map_cons, hsent], ?_, ?_⟩
      · simpa using ⟨h, fun request answer => hall (request, answer)⟩
      · simpa using hrun
    · refine .inr ⟨(request, peer log request) :: sent, e, hbroken.cons h, he, ?_⟩
      simpa using hrun
  · obtain ⟨e, he, hnext⟩ := hbad h
    refine .inr ⟨[(request, peer log request)], e, ⟨[], _, rfl, ?_, by simp, h⟩, he, ?_⟩
    · simp
    · rw [hnext]
      rfl

/-- A script without a throw of its own may go on with a value. -/
theorem Follows.map {log : Log Req Ans} {requests : List Req} {script : Script Req Ans Err α}
    (h : Follows terms log ⟨requests, none⟩ script) (f : α → β) :
    Follows terms log ⟨requests, none⟩ (script >>= fun a => pure (f a)) := by
  rcases h with ⟨sent, hsent, hall, a, hrun⟩ | ⟨sent, e, hbroken, he, hrun⟩
  · refine .inl ⟨sent, hsent, hall, f a, ?_⟩
    rw [EStateM.run_bind, hrun]
    rfl
  · refine .inr ⟨sent, e, hbroken, he, ?_⟩
    rw [EStateM.run_bind, hrun]

theorem Follows.steps (peer : Peer Req Ans) {steps : List (Step Req Ans Err)} (log : Log Req Ans)
    (hgood : ∀ step ∈ steps, ∀ answer, step.accepts answer = true ↔ terms.good (step.request, answer))
    (hfailure : ∀ step ∈ steps, ∀ answer, terms.unmet (step.failure answer)) :
    Follows terms log ⟨steps.map Step.request, none⟩ (runAll peer steps) := by
  rcases runAll_cases peer steps log with
    ⟨sent, hsent, hrun⟩ | ⟨before, step, after, sent, exchange, rfl, hsent, hbad, hrun⟩
  · exact .inl ⟨sent, answered_requests hsent, answered_good hsent hgood, (), hrun⟩
  · have stopped : step ∈ before ++ step :: after := by simp
    refine .inr ⟨_, _, ⟨sent, exchange, rfl, ?_, ?_, ?_⟩, hfailure step stopped exchange.2, hrun⟩
    · refine ⟨after.map Step.request, ?_⟩
      simp [answered_requests hsent, hbad.1]
    · exact answered_good hsent (fun s hs => hgood s (by simp [hs]))
    · obtain ⟨request, answer⟩ := exchange
      obtain ⟨rfl, hrefuses⟩ := hbad
      rw [← hgood step stopped answer, hrefuses]
      decide

end ModbusCrawler.ScriptPlans
