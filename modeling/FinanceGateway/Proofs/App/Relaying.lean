import FinanceGateway.Proofs.App.Handling
import FinanceGateway.Proofs.Dispatch.Outcomes

/-!
# What a handler makes of the backend's answers

An accepted request needs some services of the backend (`App.Needs`): one, or three that are called
at once. The turns of a handler are shared out among them, so that each has its own dispatch
(`share`), and `Relayed` says what a response makes of these dispatches: it is a success exactly
when every service is fulfilled, and reports the failure of one that is not. A handler relays what
it needs (`backend_failure_never_relayed_as_success`), whatever status the backend claims in the
body of an error.
-/

namespace FinanceGateway

/-! ## Shares -/

/-- The share of the request at an index in a turn: of requests sent at once, that one with the
first reply to it. -/
def Turn.share (index : Nat) : Turn → List Turn
  | sentAll requests arrivals =>
    match requests[index]?, arrivals.find? (·.index == index) with
    | some request, some arrival => [.sent request arrival.reply]
    | _, _ => []
  | turn => [turn]

/-- The share of the request at an index in some turns. -/
def share (index : Nat) (turns : List Turn) : List Turn :=
  turns.flatMap (Turn.share index)

/-- The replies to requests that are sent at once are waited for: each request has one at most, and
all have one unless a reply that has come does not fulfil its service. -/
structure Awaited (services : List Service) (turns : List Turn) : Prop where
  once : ∀ requests arrivals, .sentAll requests arrivals ∈ turns →
    (arrivals.map Arrival.index).Nodup
  settled : ∀ requests arrivals, .sentAll requests arrivals ∈ turns →
    (∀ index < requests.length, index ∈ arrivals.map Arrival.index) ∨
    ∃ index ∈ arrivals.map Arrival.index, ∃ s, services[index]? = some s ∧
      ¬ s.IsFulfilled (share index turns)

/-- An outside replies to requests that are sent at once one by one. -/
theorem Plan.map_index_replies (outside : Outside Id) (first : Nat) (requests : List Outgoing) :
    List.map Arrival.index (replies outside first requests) =
      List.range' first requests.length := by
  induction requests generalizing first with
  | nil => rfl
  | cons request rest ih => exact congrArg (first :: ·) (ih (first + 1))

/-- An outside that replies to every request lets none wait. -/
theorem Awaited.of_given {services : List Service} {outside : Plan.Outside Id} {turns : List Turn}
    (h : ∀ turn ∈ turns, turn.IsGivenBy outside) : Awaited services turns where
  once requests arrivals hmem := by
    have harrivals : arrivals = Plan.replies outside 0 requests := h _ hmem
    rw [harrivals, Plan.map_index_replies]
    exact List.nodup_range'
  settled requests arrivals hmem := by
    have harrivals : arrivals = Plan.replies outside 0 requests := h _ hmem
    rw [harrivals, Plan.map_index_replies]
    exact .inl fun index hindex => List.mem_range'_1.2 ⟨Nat.zero_le _, by omega⟩

/-- The first reply to a request is the only one. -/
theorem find?_index_of_mem {arrivals : List Arrival} {arrival : Arrival}
    (h : (arrivals.map Arrival.index).Nodup) (hmem : arrival ∈ arrivals) :
    arrivals.find? (·.index == arrival.index) = some arrival := by
  induction arrivals with
  | nil => cases hmem
  | cons first rest ih =>
    rw [List.map_cons, List.nodup_cons] at h
    rcases List.mem_cons.1 hmem with rfl | hmem
    · exact List.find?_cons_of_pos (beq_self_eq_true _)
    · have hne : first.index ≠ arrival.index := fun heq =>
        h.1 (heq ▸ List.mem_map_of_mem hmem)
      rw [List.find?_cons_of_neg (by simpa using hne)]
      exact ih h.2 hmem

/-- All of what a call does is its own share. -/
theorem Ends.share_eq {α : Type} {base : String} {provider : Option Provider} {call : Call}
    {codec : Json.Codec α} {turns : List Turn} {result : Except ApiError α}
    (h : Ends base provider call codec turns result) : share 0 turns = turns := by
  have htells {turns : List Turn} {token : Option String} (h : Tells provider turns token) :
      share 0 turns = turns := by
    cases h <;> rfl
  cases h with
  | unresolved => rfl
  | unmade _ h _ => exact htells h
  | unsendable _ h _ _ => exact htells h
  | replied _ _ h _ _ => exact (List.flatMap_append).trans (congrArg (· ++ _) (htells h))

/-- What is related to an element of a list stands at the same index. -/
theorem forall₂_getElem? {α β : Type} {R : α → β → Prop} {as : List α} {bs : List β}
    (h : List.Forall₂ R as bs) {index : Nat} {a : α} (ha : as[index]? = some a) :
    ∃ b, bs[index]? = some b ∧ R a b := by
  induction h generalizing index with
  | nil => cases ha
  | @cons a' b' _ _ hab _ ih =>
    cases index with
    | zero =>
      cases ha
      exact ⟨b', rfl, hab⟩
    | succ index => exact ih ha

/-! ## Responses -/

namespace Response

/-- A failure is reported under the status of a failure. -/
theorem isFailure_failureStatus (status : Nat) : Http.isFailure (failureStatus status) = true := by
  unfold failureStatus
  split
  · assumption
  · rfl

/-- A failure is not reported as a success. -/
theorem isSuccess_failure (e : ApiError) : Http.isSuccess (failure e).status = false := by
  have h := isFailure_failureStatus e.details.status
  change Http.isSuccess (failureStatus e.details.status) = false
  simp only [Http.isFailure, Http.isSuccess, Bool.and_eq_true, decide_eq_true_eq,
    Bool.and_eq_false_iff, decide_eq_false_iff_not] at *
  omega

end Response

/-- A response is made of the dispatches of some services: it is a success exactly when all of them
are fulfilled, which is then how each dispatch ends, and otherwise the failure of one of them. -/
structure Relayed (base : String) (provider : Option Provider) (services : List Service)
    (turns : List Turn) (response : Response) : Prop where
  success_iff : Http.isSuccess response.status = true ↔
    ∀ (index : Nat) (s : Service), services[index]? = some s → s.IsFulfilled (share index turns)
  success : Http.isSuccess response.status = true →
    ∀ (index : Nat) (s : Service), services[index]? = some s →
      ∃ value, (s.execute base provider).Reaches (share index turns) (.done (.ok value))
  failure : Http.isSuccess response.status = false →
    ∃ (index : Nat) (s : Service) (e : ApiError), services[index]? = some s ∧
    (s.execute base provider).Reaches (share index turns) (.done (.error e)) ∧
    response = .failure e

namespace Relayed

variable {base : String} {provider : Option Provider} {services : List Service}
  {turns : List Turn} {response : Response}

/-- The failure of a service is relayed as such. -/
theorem of_failure {index : Nat} {s : Service} {e : ApiError} (hs : services[index]? = some s)
    (h : (s.execute base provider).Reaches (share index turns) (.done (.error e))) :
    Relayed base provider services turns (.failure e) where
  success_iff := by
    refine iff_of_false (Bool.eq_false_iff.1 (Response.isSuccess_failure e)) fun hall => ?_
    obtain ⟨value, hvalue⟩ := (Service.exists_ok_iff h).2 (hall index s hs)
    cases hvalue
  success hsuccess := absurd hsuccess (Bool.eq_false_iff.1 (Response.isSuccess_failure e))
  failure _ := ⟨index, s, e, hs, h, rfl⟩

/-- A success is relayed when every service ends with a value. -/
theorem of_success (hstatus : Http.isSuccess response.status = true)
    (h : ∀ (index : Nat) (s : Service), services[index]? = some s →
      ∃ value, (s.execute base provider).Reaches (share index turns) (.done (.ok value))) :
    Relayed base provider services turns response where
  success_iff := iff_of_true hstatus fun index s hs => by
    obtain ⟨value, hvalue⟩ := h index s hs
    exact (Service.exists_ok_iff hvalue).1 ⟨value, rfl⟩
  success _ := h
  failure hfailure := absurd (hfailure.symm.trans hstatus) Bool.false_ne_true

end Relayed

namespace App

variable {app : App} {token : String} {turns : List Turn} {response : Response}

/-! ## One service -/

/-- A service whose value becomes a success and whose failure is reported is relayed. -/
theorem relayed_of_bind {provider : Option Provider} {s : Service}
    {respond : Except ApiError s.Answer → Plan Response}
    (hok : ∀ value, ∃ r, respond (.ok value) = .done r ∧ Http.isSuccess r.status = true)
    (herror : ∀ e, respond (.error e) = .done (.failure e))
    (h : ((s.execute app.base provider).bind respond).Reaches turns (.done response)) :
    Relayed app.base provider [s] turns response := by
  obtain ⟨result, before, after, rfl, hs, h⟩ := Plan.reaches_bind_done_iff.1 h
  obtain ⟨call, -, hends⟩ := Service.exists_ends hs
  cases result with
  | ok value =>
    obtain ⟨r, hr, hstatus⟩ := hok value
    rw [hr] at h
    obtain ⟨rfl, h⟩ := Plan.reaches_done_iff.1 h
    cases h
    rw [List.append_nil]
    refine .of_success hstatus fun index s' hs' => ?_
    obtain ⟨rfl, rfl⟩ : index = 0 ∧ s = s' := by simpa [List.getElem?_singleton] using hs'
    exact ⟨value, hends.share_eq.symm ▸ hs⟩
  | error e =>
    rw [herror] at h
    obtain ⟨rfl, h⟩ := Plan.reaches_done_iff.1 h
    cases h
    rw [List.append_nil]
    exact .of_failure (List.getElem?_cons_zero) (hends.share_eq.symm ▸ hs)

/-- A service is relayed with a status of success. -/
theorem relayed_of_relay {provider : Option Provider} {status : Nat} {s : Service}
    (hstatus : Http.isSuccess status = true)
    (h : (app.relay provider status s).Reaches turns (.done response)) :
    Relayed app.base provider [s] turns response :=
  relayed_of_bind (fun _ => ⟨_, rfl, hstatus⟩) (fun _ => rfl) h

/-- A service is relayed without its value. -/
theorem relayed_of_relaySilently {provider : Option Provider} {s : Service}
    (h : (app.relaySilently provider s).Reaches turns (.done response)) :
    Relayed app.base provider [s] turns response :=
  relayed_of_bind (fun _ => ⟨_, rfl, rfl⟩) (fun _ => rfl) h

/-! ## Several services at once -/

/-- A caller's service with its path resolved sends what its call makes with the caller's token. -/
theorem execute_caller {s : Service} {call : Call} {path : String} (hcall : s.call = .ok call)
    (hpath : call.resolve = .ok path) :
    s.execute app.base (caller token) =
      match call.request app.base path (TokenAnswer.token token).usable with
      | .error cause => .done (.error (.invalidRequest cause))
      | .ok request => transmit call s.codec request := by
  rw [Service.execute_eq hcall, FinanceGateway.execute, hpath]
  rfl

/-- A service for which no request is prepared has failed. -/
theorem execute_of_prepare_error {s : Service} {e : ApiError}
    (h : app.prepare token s = .error e) :
    s.execute app.base (caller token) = .done (.error e) := by
  simp only [prepare, bind_eq_error_iff, mapError_eq_error_iff, mapError_eq_ok_iff] at h
  rcases h with ⟨cause, hcall, rfl⟩ | ⟨call, hcall, ⟨cause, hpath, rfl⟩ | ⟨path, hpath,
    ⟨cause, hrequest, rfl⟩ | ⟨request, hrequest, h⟩⟩⟩
  · rw [Service.execute, hcall]
  · rw [Service.execute_eq hcall, FinanceGateway.execute, hpath]
  · rw [execute_caller hcall hpath, hrequest]
  · rw [execute_caller hcall hpath, hrequest]
    split at h
    · cases h
    · next hsendable =>
      cases h
      exact if_neg hsendable

/-- A service sends the request that is prepared for it, and takes the reply as it is read there. -/
theorem execute_of_prepare {s : Service} {p : Prepared} (h : app.prepare token s = .ok p) :
    ∃ read : Reply → Except ApiError s.Answer,
      (s.execute app.base (caller token) = .send p.request fun reply => .done (read reply)) ∧
      ∀ reply, p.read reply = (read reply).map s.codec.encode := by
  obtain ⟨call, path, request, hcall, hpath, hrequest, hsendable, rfl⟩ := prepare_eq_ok_iff.1 h
  refine ⟨call.result s.codec request.url, ?_, fun reply => rfl⟩
  rw [execute_caller hcall hpath, hrequest]
  exact if_pos hsendable

/-- What a service that is prepared makes of a reply is what is read from it. -/
theorem reaches_of_prepare {s : Service} {p : Prepared} (h : app.prepare token s = .ok p)
    (reply : Reply) :
    (∀ e, p.read reply = .error e →
      (s.execute app.base (caller token)).Reaches [.sent p.request reply] (.done (.error e))) ∧
    (∀ json, p.read reply = .ok json → ∃ value,
      (s.execute app.base (caller token)).Reaches [.sent p.request reply] (.done (.ok value))) := by
  obtain ⟨read, hexecute, hread⟩ := execute_of_prepare h
  have hrun : (s.execute app.base (caller token)).Reaches [.sent p.request reply]
      (.done (read reply)) := by
    rw [hexecute]
    exact .send .start
  refine ⟨fun e he => ?_, fun json hjson => ?_⟩
  · rw [hread, map_eq_error_iff] at he
    exact he ▸ hrun
  · rw [hread, map_eq_ok_iff] at hjson
    obtain ⟨value, hvalue, -⟩ := hjson
    exact ⟨value, hvalue ▸ hrun⟩

/-- The first failure is that of a reply that came for a prepared request. -/
theorem exists_of_firstFailure {prepared : List Prepared} {arrivals : List Arrival} {e : ApiError}
    (h : firstFailure? prepared arrivals = some e) :
    ∃ arrival ∈ arrivals, ∃ p, prepared[arrival.index]? = some p ∧
      p.read arrival.reply = .error e := by
  obtain ⟨arrival, hmem, h⟩ := List.exists_of_findSome?_eq_some h
  cases hp : prepared[arrival.index]? with
  | none => simp [hp] at h
  | some p =>
    cases hread : p.read arrival.reply with
    | ok json => simp [hp, hread] at h
    | error e' =>
      simp only [hp, Option.map_some, hread, Option.some.injEq] at h
      exact ⟨arrival, hmem, p, hp, h ▸ hread⟩

/-- Without a failure, every reply that came for a prepared request is read. -/
theorem read_of_firstFailure_eq_none {prepared : List Prepared} {arrivals : List Arrival}
    (h : firstFailure? prepared arrivals = none) {arrival : Arrival} (hmem : arrival ∈ arrivals)
    {p : Prepared} (hp : prepared[arrival.index]? = some p) :
    ∃ json, p.read arrival.reply = .ok json := by
  have hnone := List.findSome?_eq_none_iff.1 h arrival hmem
  cases hread : p.read arrival.reply with
  | ok json => exact ⟨json, rfl⟩
  | error e => simp [hp, hread] at hnone

section Together

variable {services : List Service} {prepared : List Prepared} {arrivals : List Arrival}
  (hall : List.Forall₂ (fun s p => app.prepare token s = .ok p) services prepared)
  (honce : (arrivals.map Arrival.index).Nodup)

include honce

/-- The share of a request to which a reply came. -/
theorem share_of_arrival {arrival : Arrival} (hmem : arrival ∈ arrivals) {p : Prepared}
    (hp : prepared[arrival.index]? = some p) :
    share arrival.index [.sentAll (prepared.map (·.request)) arrivals] =
      [.sent p.request arrival.reply] := by
  simp [share, Turn.share, hp, find?_index_of_mem honce hmem]

include hall

/-- Without a failure, every service to which a reply came ends with a value. -/
theorem reaches_of_firstFailure_eq_none (hnone : firstFailure? prepared arrivals = none)
    {arrival : Arrival} (hmem : arrival ∈ arrivals) {s : Service}
    (hs : services[arrival.index]? = some s) :
    ∃ value, (s.execute app.base (caller token)).Reaches
      (share arrival.index [.sentAll (prepared.map (·.request)) arrivals]) (.done (.ok value)) := by
  obtain ⟨p, hp, hprepare⟩ := forall₂_getElem? hall hs
  obtain ⟨json, hread⟩ := read_of_firstFailure_eq_none hnone hmem hp
  rw [share_of_arrival honce hmem hp]
  exact (reaches_of_prepare hprepare _).2 json hread

omit honce in
/-- What is assembled from the replies that were waited for relays the services. -/
theorem relayed_assemble (names : List String)
    (hawaited : Awaited services [.sentAll (prepared.map (·.request)) arrivals]) :
    Relayed app.base (caller token) services [.sentAll (prepared.map (·.request)) arrivals]
      (assemble names prepared arrivals) := by
  have hturn := List.mem_singleton_self (Turn.sentAll (prepared.map (·.request)) arrivals)
  have honce := hawaited.once _ _ hturn
  unfold assemble
  split
  · next e hfailure =>
    obtain ⟨arrival, hmem, p, hp, hread⟩ := exists_of_firstFailure hfailure
    obtain ⟨s, hs, hprepare⟩ := forall₂_getElem? hall.flip hp
    refine .of_failure hs ?_
    rw [share_of_arrival honce hmem hp]
    exact (reaches_of_prepare hprepare _).1 e hread
  · next hnone =>
    refine .of_success rfl fun index s hs => ?_
    -- No reply that has come is a failure, so the wait has not been cut short.
    rcases hawaited.settled _ _ hturn with hcomplete | ⟨index', hindex', s', hs', hunfulfilled⟩
    · obtain ⟨p, hp, -⟩ := forall₂_getElem? hall hs
      obtain ⟨hlength, -⟩ := List.getElem?_eq_some_iff.1 hp
      obtain ⟨arrival, hmem, rfl⟩ := List.mem_map.1 (hcomplete index (by rwa [List.length_map]))
      exact reaches_of_firstFailure_eq_none hall honce hnone hmem hs
    · obtain ⟨arrival, hmem, rfl⟩ := List.mem_map.1 hindex'
      obtain ⟨value, hvalue⟩ := reaches_of_firstFailure_eq_none hall honce hnone hmem hs'
      exact absurd ((Service.exists_ok_iff hvalue).1 ⟨value, rfl⟩) hunfulfilled

end Together

/-- Services that are called at once for a caller are relayed, if their replies are waited for. -/
theorem relayed_of_gather {services : List (String × Service)}
    (h : (app.gather token services).Reaches turns (.done response))
    (hawaited : Awaited (services.map (·.2)) turns) :
    Relayed app.base (caller token) (services.map (·.2)) turns response := by
  unfold gather at h
  split at h
  · next e hprepared =>
    obtain ⟨rfl, hresponse⟩ := Plan.reaches_done_iff.1 h
    obtain ⟨s, hs, he⟩ := exists_of_mapM_eq_error hprepared
    obtain ⟨index, hindex⟩ := List.mem_iff_getElem?.1 (List.mem_map_of_mem hs)
    rw [Plan.done.inj hresponse]
    refine .of_failure hindex ?_
    rw [execute_of_prepare_error he]
    exact .start
  · next prepared hprepared =>
    cases h with
    | sendAll h =>
      obtain ⟨rfl, hresponse⟩ := Plan.reaches_done_iff.1 h
      rw [Plan.done.inj hresponse]
      exact relayed_assemble (List.forall₂_map_left_iff.2 (forall₂_of_mapM_eq_ok hprepared)) _
        hawaited

end App

/-! ## Endpoints -/

/-- The services that a data endpoint needs for a request that it accepts. -/
def DataEndpoint.needs (others : Charset.Others) (parameter : String) (request : Incoming) :
    DataEndpoint → Extracted (List Service)
  | overview => .ok [.getProfile, .listAccounts, .listGoals {}]
  | reference => .ok [.listBanks, .listCategories, .listMerchants]
  | listAccounts => .ok [.listAccounts]
  | listSms => .ok [.listSms]
  | profile => .ok [.getProfile]
  | getAccount => (extractParameter "account_id" parameter).map fun id => [.getAccount id]
  | getSms => (extractParameter "id" parameter).map fun id => [.getSms id]
  | getGoal => (extractParameter "id" parameter).map fun id => [.getGoal id]
  | listTransactions =>
    (extractQuery TransactionFilter.queryFields {} request).map fun filter =>
      [.listTransactions filter]
  | listGoals =>
    (extractQuery GoalFilter.queryFields {} request).map fun filter => [.listGoals filter]
  | createAccount =>
    (extractJson NewAccount.record.codec request).map fun account => [.createAccount account]
  | updateAccount =>
    (extractJson AccountUpdate.record.codec request).map fun changes => [.updateAccount changes]
  | createTransaction =>
    (extractJson NewTransaction.record.codec request).map fun t => [.createTransaction t]
  | deleteTransactions =>
    (extractJson TransactionDeletion.record.codec request).map fun d => [.deleteTransactions d]
  | createSms => (extractJson NewSms.record.codec request).map fun sms => [.createSms sms]
  | createGoal => (extractJson NewGoal.record.codec request).map fun goal => [.createGoal goal]
  | updateGoal => do
    let id ← extractParameter "id" parameter
    let changes ← extractJson GoalUpdate.record.codec request
    .ok [.updateGoal id changes]
  | updateProfile =>
    (extractJson UserUpdate.record.codec request).map fun changes => [.updateUser changes]
  | parseReceipt => (extractReceipt others request).map fun image =>
      [.parseReceipt image.bytes (some image.fileName) image.contentType]
  | uploadStatement =>
    (extractStatement others request).map fun upload => [.uploadStatement upload]

namespace App

/-- The services that an endpoint needs, and the credential with which it calls them: its own for
the health check, the caller's for data, if the caller has a session and the request is accepted. -/
inductive Needs (app : App) (parameter : String) (request : Incoming) :
    Option Session → Endpoint → Option Provider → List Service → Prop
  | health {session} : Needs app parameter request session .health app.service [.getHealth]
  | data {session endpoint services} :
      endpoint.needs app.charsets parameter request = .ok services →
      Needs app parameter request (some session) (.data endpoint) (caller session.token) services

variable {app : App} {token parameter : String} {request : Incoming} {turns : List Turn}
  {response : Response}

/-- One service that is taken from a request is relayed. -/
theorem relayed_of_taking {α : Type} {extracted : Extracted α} {service : α → Service}
    {services : List Service} {next : α → Plan Response}
    (hneeds : (extracted.map fun value => [service value]) = .ok services)
    (h : (taking extracted next).Reaches turns (.done response))
    (hnext : ∀ value, (next value).Reaches turns (.done response) →
      Relayed app.base (caller token) [service value] turns response) :
    Relayed app.base (caller token) services turns response := by
  obtain ⟨value, rfl, rfl⟩ := map_eq_ok_iff.1 hneeds
  exact hnext value h

/-- A data endpoint relays the services that it needs. -/
theorem relayed_of_serveData {endpoint : DataEndpoint} {services : List Service}
    (hneeds : endpoint.needs app.charsets parameter request = .ok services)
    (h : (app.serveData token parameter request endpoint).Reaches turns (.done response))
    (hawaited : Awaited services turns) :
    Relayed app.base (caller token) services turns response := by
  cases endpoint with
  | overview | reference =>
    cases hneeds
    exact relayed_of_gather h hawaited
  | listAccounts | listSms | profile =>
    cases hneeds
    exact relayed_of_relay rfl h
  | deleteTransactions => exact relayed_of_taking hneeds h fun _ => relayed_of_relaySilently
  | updateGoal =>
    simp only [DataEndpoint.needs, bind_eq_ok_iff] at hneeds
    obtain ⟨id, hid, changes, hchanges, hservices⟩ := hneeds
    cases hservices
    simp only [serveData, hid, hchanges, taking] at h
    exact relayed_of_relay rfl h
  | _ => exact relayed_of_taking hneeds h fun _ => relayed_of_relay rfl

/-- An endpoint relays the services that it needs. -/
theorem relayed_of_serveEndpoint {session : Option Session} {endpoint : Endpoint}
    {provider : Option Provider} {services : List Service}
    (hneeds : app.Needs parameter request session endpoint provider services)
    (h : (app.serveEndpoint session parameter request endpoint).Reaches turns (.done response))
    (hawaited : Awaited services turns) :
    Relayed app.base provider services turns response := by
  cases hneeds with
  | health => exact relayed_of_relay rfl h
  | data hservices => exact relayed_of_serveData hservices h hawaited

/-- The handler of an accepted request always answers. It answers with a status of success exactly
when each service that it needs got a complete answer of success with a body that decodes, and then
the dispatch of each ends with a value. Otherwise its status is one of a failure, and its content
the details with which the dispatch of one of these services failed. -/
theorem backend_failure_never_relayed_as_success {session : Option Session} {endpoint : Endpoint}
    {provider : Option Provider} {services : List Service}
    (hneeds : app.Needs parameter request session endpoint provider services) :
    (∀ outside : Plan.Outside Id, ∃ turns, (∀ turn ∈ turns, turn.IsGivenBy outside) ∧
      Awaited services turns ∧
      (app.serveEndpoint session parameter request endpoint).Reaches turns
        (.done (Id.run ((app.serveEndpoint session parameter request endpoint).run outside)))) ∧
    ∀ turns response,
      (app.serveEndpoint session parameter request endpoint).Reaches turns (.done response) →
      Awaited services turns →
      (Http.isSuccess response.status = true ↔
        ∀ (index : Nat) (s : Service), services[index]? = some s →
          s.IsFulfilled (share index turns)) ∧
      (Http.isSuccess response.status = true →
        ∀ (index : Nat) (s : Service), services[index]? = some s →
          ∃ value, (s.execute app.base provider).Reaches (share index turns) (.done (.ok value))) ∧
      (Http.isSuccess response.status = false → Http.isFailure response.status = true ∧
        ∃ (index : Nat) (s : Service) (e : ApiError), services[index]? = some s ∧
          (s.execute app.base provider).Reaches (share index turns) (.done (.error e)) ∧
          response.content = .json e.details.toJson) := by
  refine ⟨fun outside => ?_, fun turns response h hawaited => ?_⟩
  · obtain ⟨turns, hgiven, h⟩ := Plan.reaches_run outside
      (app.serveEndpoint session parameter request endpoint)
    exact ⟨turns, hgiven, .of_given hgiven, h⟩
  · have hrelayed := relayed_of_serveEndpoint hneeds h hawaited
    refine ⟨hrelayed.success_iff, hrelayed.success, fun hstatus => ?_⟩
    obtain ⟨index, s, e, hs, herror, rfl⟩ := hrelayed.failure hstatus
    exact ⟨Response.isFailure_failureStatus _, index, s, e, hs, herror, rfl⟩

/-- Errors that claim to be successes are relayed as a bad gateway. -/
theorem claimed_success_is_bad_gateway :
    let app : App := { base := "http://backend.test", validator := .fixed "tok" }
    let request : Incoming :=
      { method := "GET", path := "/dashboard", query := none, headers := [], body := [] }
    let services : List Service := [.getProfile, .listAccounts, .listGoals {}]
    let body := Utf8.encode "\x7b\"message\":\"m\",\"status\":200\x7d"
    let plan := app.serveEndpoint (some { token := "tok" }) "" request (.data .overview)
    let response := Id.run (plan.run ⟨fun _ => .anonymous, fun _ => .answer 500 body⟩)
    app.Needs "" request (some { token := "tok" }) (.data .overview) (caller "tok") services ∧
      response.status = 502 ∧
      ∃ turns, Awaited services turns ∧ plan.Reaches turns (.done response) ∧
        ∃ (index : Nat) (s : Service) (e : ApiError), services[index]? = some s ∧
          (s.execute app.base (caller "tok")).Reaches (share index turns) (.done (.error e)) ∧
          response.content = .json e.details.toJson := by
  intro app request services body plan response
  have hneeds : app.Needs "" request (some { token := "tok" }) (.data .overview) (caller "tok")
      services := .data rfl
  have hstatus : response.status = 502 := by decide +kernel
  obtain ⟨hanswers, hruns⟩ := backend_failure_never_relayed_as_success hneeds
  obtain ⟨turns, -, hawaited, h⟩ := hanswers ⟨fun _ => .anonymous, fun _ => .answer 500 body⟩
  obtain ⟨-, -, hfailure⟩ := hruns turns response h hawaited
  obtain ⟨-, hdetails⟩ := hfailure (by rw [hstatus]; rfl)
  exact ⟨hneeds, hstatus, turns, hawaited, h, hdetails⟩

end App

end FinanceGateway
