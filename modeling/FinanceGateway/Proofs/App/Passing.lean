import FinanceGateway.Proofs.App.Relaying
import FinanceGateway.Proofs.Dispatch.Admission

/-!
# A caller's service is passed on

Below a usable base, a handler that calls one service for a caller with a legal token sends the
request of that service and is done with whatever comes back (`App.relay_sendsOnce`,
`App.relaySilently_sendsOnce`).
-/

namespace FinanceGateway

/-- A plan that sends a request, and is done with any reply to it. -/
def Plan.SendsOnce {α : Type} (request : Outgoing) (plan : Plan α) : Prop :=
  ∃ next, plan = .send request next ∧ ∀ reply, ∃ result, next reply = .done result

/-- A plan that sends a request once sends nothing else. -/
theorem Plan.SendsOnce.onlySends {α : Type} {request : Outgoing} {plan : Plan α}
    (h : plan.SendsOnce request) : plan.OnlySends (· = request) := by
  obtain ⟨next, rfl, hdone⟩ := h
  refine ⟨rfl, fun reply => ?_⟩
  obtain ⟨result, hresult⟩ := hdone reply
  rw [hresult]
  trivial

/-- What is sent once is sent once when a result is made of the reply. -/
theorem Plan.SendsOnce.bind {α β : Type} {request : Outgoing} {plan : Plan α} {f : α → Plan β}
    (h : plan.SendsOnce request) (hf : ∀ value, ∃ result, f value = .done result) :
    (plan.bind f).SendsOnce request := by
  obtain ⟨next, rfl, hdone⟩ := h
  refine ⟨_, rfl, fun reply => ?_⟩
  obtain ⟨value, hvalue⟩ := hdone reply
  rw [hvalue]
  exact hf value

namespace App

variable {app : App} {token : String} {home : Url} {s : Service}

/-- The request of a service for a caller. -/
def IsRequestFor (app : App) (token : String) (s : Service) (request : Outgoing) : Prop :=
  ∃ call path, s.call = .ok call ∧ call.resolve = .ok path ∧
    call.request app.base path (TokenAnswer.token token).usable = .ok request

/-- A service that is called for a caller sends its request and nothing else. -/
theorem execute_caller_onlySends_request (s : Service) :
    (s.execute app.base (caller token)).OnlySends (app.IsRequestFor token s) := by
  refine Service.execute_onlySends fun call path told request hcall hpath htold hrequest _ => ?_
  cases htold
  exact ⟨call, path, hcall, hpath, hrequest⟩

/-- With a legal token, below a usable base, the request of a service is made and sent. -/
theorem execute_caller_sendsOnce (typed : s.HasMediaType) (usable : Url.IsUsable app.base home)
    (legal : isHeaderValue (Utf8.encode token) = true) :
    ∃ request, app.IsRequestFor token s request ∧
      (s.execute app.base (caller token)).SendsOnce request := by
  obtain ⟨call, hcall, -⟩ := s.exists_call
  have hpath := Service.resolve_eq hcall
  have hlegal : ∀ t, (TokenAnswer.token token).usable = some t →
      isHeaderValue (Utf8.encode t) = true := by
    intro t ht
    obtain ⟨heq, -⟩ := TokenAnswer.usable_eq_some_iff.1 ht
    cases heq
    exact legal
  obtain ⟨-, request, -, hrequest, hsendable⟩ :=
    Service.exists_request typed usable hcall hpath hlegal
  refine ⟨request, ⟨call, _, hcall, hpath, hrequest⟩,
    fun reply => .done (call.result s.codec request.url reply), ?_, fun reply => ⟨_, rfl⟩⟩
  rw [execute_caller hcall hpath, hrequest]
  exact if_pos hsendable

theorem relay_sendsOnce (status : Nat) (typed : s.HasMediaType)
    (usable : Url.IsUsable app.base home) (legal : isHeaderValue (Utf8.encode token) = true) :
    ∃ request, app.IsRequestFor token s request ∧
      (app.relay (caller token) status s).SendsOnce request := by
  obtain ⟨request, hrequest, hsends⟩ := execute_caller_sendsOnce typed usable legal
  refine ⟨request, hrequest, hsends.bind fun result => ?_⟩
  cases result <;> exact ⟨_, rfl⟩

theorem relaySilently_sendsOnce (typed : s.HasMediaType)
    (usable : Url.IsUsable app.base home) (legal : isHeaderValue (Utf8.encode token) = true) :
    ∃ request, app.IsRequestFor token s request ∧
      (app.relaySilently (caller token) s).SendsOnce request := by
  obtain ⟨request, hrequest, hsends⟩ := execute_caller_sendsOnce typed usable legal
  refine ⟨request, hrequest, hsends.bind fun result => ?_⟩
  cases result <;> exact ⟨_, rfl⟩

end App

end FinanceGateway
