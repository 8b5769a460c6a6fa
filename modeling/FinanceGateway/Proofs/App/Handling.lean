import FinanceGateway.App.Serve
import FinanceGateway.Proofs.Dispatch.Sending
import FinanceGateway.Proofs.Gate.Presented

/-!
# What the handlers send

Every data endpoint calls its services with the token of the caller's session and with nothing else:
`serveData_onlySends` bounds the requests of all of them at once, and `carries_bearer` says that
below a base that names no user such a request carries exactly that token.
-/

namespace FinanceGateway

/-- A token that is not blank goes along as it is. -/
theorem usable_token {token : String} (h : Text.isBlank token = false) :
    (TokenAnswer.token token).usable = some token := by
  rw [TokenAnswer.usable, h]
  rfl

namespace App

variable {app : App} {token : String} {kind : Outgoing → Prop}

/-- The requests of services with the usable token of a caller. -/
def IsCallerRequest (app : App) (token : String) (request : Outgoing) : Prop :=
  ∃ (service : Service) (call : Call) (path : String), service.call = .ok call ∧
    call.resolve = .ok path ∧
    call.request app.base path (TokenAnswer.token token).usable = .ok request ∧
    isSendable request.url = true

/-- Below a base that names no user, a request for a caller carries exactly the caller's token. -/
theorem carries_bearer {request : Outgoing} (hbase : Url.hasUserInfo app.base = false)
    (hblank : Text.isBlank token = false) (h : app.IsCallerRequest token request) :
    request.authorization = [bearer token] := by
  obtain ⟨service, call, path, hcall, hpath, hrequest, hsendable⟩ := h
  rw [Service.authorization_eq hbase hcall hpath hrequest hsendable, usable_token hblank]
  rfl

/-! ## Handlers -/

/-- A service that is called for a caller sends requests for that caller. -/
theorem execute_caller_onlySends (service : Service) :
    (service.execute app.base (caller token)).OnlySends (app.IsCallerRequest token) := by
  refine Service.execute_onlySends fun call path token' request hcall hpath htoken hrequest hs => ?_
  cases htoken
  exact ⟨service, call, path, hcall, hpath, hrequest, hs⟩

/-- A service that is relayed sends what it sends when it is called. -/
theorem relay_onlySends {provider : Option Provider} {service : Service} (status : Nat)
    (h : (service.execute app.base provider).OnlySends kind) :
    (app.relay provider status service).OnlySends kind := by
  refine h.bind fun result => ?_
  cases result <;> trivial

theorem relaySilently_onlySends {provider : Option Provider} {service : Service}
    (h : (service.execute app.base provider).OnlySends kind) :
    (app.relaySilently provider service).OnlySends kind := by
  refine h.bind fun result => ?_
  cases result <;> trivial

theorem relay_caller_onlySends (status : Nat) (service : Service) :
    (app.relay (caller token) status service).OnlySends (app.IsCallerRequest token) :=
  relay_onlySends status (execute_caller_onlySends service)

theorem taking_onlySends {α : Type} {extracted : Extracted α} {next : α → Plan Response}
    (h : ∀ value, (next value).OnlySends kind) : (taking extracted next).OnlySends kind := by
  cases extracted with
  | ok value => exact h value
  | error => trivial

/-- What is prepared for a service is the request of its call, if that can be sent. -/
theorem prepare_eq_ok_iff {service : Service} {prepared : Prepared} :
    app.prepare token service = .ok prepared ↔
      ∃ call path request, service.call = .ok call ∧ call.resolve = .ok path ∧
        call.request app.base path (TokenAnswer.token token).usable = .ok request ∧
        isSendable request.url = true ∧
        prepared = ⟨request, fun reply =>
          (call.result service.codec request.url reply).map service.codec.encode⟩ := by
  simp only [prepare, bind_eq_ok_iff, mapError_eq_ok_iff]
  constructor
  · rintro ⟨call, hcall, path, hpath, request, hrequest, h⟩
    split at h
    · next hsendable =>
      cases h
      exact ⟨call, path, request, hcall, hpath, hrequest, hsendable, rfl⟩
    · cases h
  · rintro ⟨call, path, request, hcall, hpath, hrequest, hsendable, rfl⟩
    exact ⟨call, hcall, path, hpath, request, hrequest, if_pos hsendable⟩

/-- A request that is made for several at once is made for the caller. -/
theorem isCallerRequest_of_prepare {service : Service} {prepared : Prepared}
    (h : app.prepare token service = .ok prepared) :
    app.IsCallerRequest token prepared.request := by
  obtain ⟨call, path, request, hcall, hpath, hrequest, hsendable, rfl⟩ := prepare_eq_ok_iff.1 h
  exact ⟨service, call, path, hcall, hpath, hrequest, hsendable⟩

theorem gather_onlySends (services : List (String × Service)) :
    (app.gather token services).OnlySends (app.IsCallerRequest token) := by
  unfold gather
  split
  · trivial
  · next prepared hprepared =>
    refine ⟨fun request hrequest => ?_, fun _ => trivial⟩
    obtain ⟨p, hp, rfl⟩ := List.mem_map.1 hrequest
    obtain ⟨s, -, hs⟩ := mem_of_mapM_eq_ok hprepared p hp
    exact isCallerRequest_of_prepare hs

/-- A data endpoint sends requests for its caller only. -/
theorem serveData_onlySends (parameter : String) (request : Incoming) (endpoint : DataEndpoint) :
    (app.serveData token parameter request endpoint).OnlySends (app.IsCallerRequest token) := by
  cases endpoint with
  | overview | reference => exact gather_onlySends _
  | listAccounts | listSms | profile => exact relay_caller_onlySends _ _
  | updateGoal =>
    exact taking_onlySends fun _ => taking_onlySends fun _ => relay_caller_onlySends _ _
  | deleteTransactions =>
    exact taking_onlySends fun _ => relaySilently_onlySends (execute_caller_onlySends _)
  | _ => exact taking_onlySends fun _ => relay_caller_onlySends _ _

end App

end FinanceGateway
