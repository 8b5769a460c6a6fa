import FinanceGateway.Proofs.App.Access
import FinanceGateway.Proofs.App.Relaying
import FinanceGateway.Proofs.Dispatch.Interleaving

/-!
# Services called at once, and the order of their answers

Each of several services is a dispatch of its own (`App.dispatch`), and the handler that calls them
at once goes through these side by side, in the order in which the replies arrive (`movesOf`). What
it assembles from the replies depends on how the dispatches end and on nothing else: on their values
when all have one (`assemble_of_values`), on one that failed otherwise (`hasFailed_iff`). So the
order does not matter unless something fails (`App.fan_out_does_not_depend_on_order`).
-/

namespace FinanceGateway

/-! ## The moves of a handler -/

/-- What goes on side by side in a turn: each request that is answered, in the order of the
replies. -/
def Turn.moves : Turn → List Move
  | sentAll requests arrivals => arrivals.filterMap fun arrival =>
      (requests[arrival.index]?).map fun request => ⟨arrival.index, .sent request arrival.reply⟩
  | turn => [⟨0, turn⟩]

/-- What goes on side by side in some turns. -/
def movesOf (turns : List Turn) : List Move :=
  turns.flatMap Turn.moves

@[simp] theorem movesOf_nil : movesOf [] = [] := rfl

/-- A request has the replies that came to it. -/
theorem turnsOf_movesOf {requests : List Outgoing} {index : Nat} {request : Outgoing}
    (h : requests[index]? = some request) (arrivals : List Arrival) :
    turnsOf index (movesOf [.sentAll requests arrivals]) =
      (arrivals.filter (·.index == index)).map fun arrival => .sent request arrival.reply := by
  simp only [movesOf, List.flatMap_singleton, Turn.moves, turnsOf]
  induction arrivals with
  | nil => rfl
  | cons arrival arrivals ih =>
    by_cases hindex : arrival.index = index
    · simp [hindex, h, ih]
    · cases hother : requests[arrival.index]? <;> simp [hindex, hother, ih]

/-- Moves that are answers to some requests come from replies in that order. -/
theorem exists_arrivals {requests : List Outgoing} {moves : List Move}
    (h : ∀ move ∈ moves, ∃ request reply, requests[move.index]? = some request ∧
      move.turn = .sent request reply) :
    ∃ arrivals, movesOf [.sentAll requests arrivals] = moves := by
  induction moves with
  | nil => exact ⟨[], rfl⟩
  | cons move moves ih =>
    obtain ⟨⟨request, reply, hrequest, hturn⟩, hmoves⟩ := List.forall_mem_cons.1 h
    obtain ⟨arrivals, harrivals⟩ := ih hmoves
    refine ⟨⟨move.index, reply⟩ :: arrivals, ?_⟩
    rw [movesOf, List.flatMap_singleton, Turn.moves] at harrivals ⊢
    simp only [List.filterMap_cons, hrequest, Option.map_some, harrivals, ← hturn]

namespace App

/-- What a service does for a caller, with its answer as JSON. -/
def dispatch (app : App) (token : String) (s : Service) : Plan (Except ApiError Json) :=
  (s.execute app.base (caller token)).bind fun answer => .done (answer.map s.codec.encode)

/-- What a prepared request does. -/
def Prepared.plan (p : Prepared) : Plan (Except ApiError Json) :=
  .send p.request fun reply => .done (p.read reply)

variable {app : App} {token : String} {prepared : List Prepared} {arrivals : List Arrival}

/-- A prepared request waits for its reply, or has read it. -/
theorem Prepared.reaches_plan_iff {p : Prepared} {turns : List Turn}
    {rest : Plan (Except ApiError Json)} :
    p.plan.Reaches turns rest ↔ (turns = [] ∧ rest = p.plan) ∨
      ∃ reply, turns = [.sent p.request reply] ∧ rest = .done (p.read reply) := by
  constructor
  · intro h
    cases h with
    | start => exact .inl ⟨rfl, rfl⟩
    | send h =>
      obtain ⟨rfl, rfl⟩ := Plan.reaches_done_iff.1 h
      exact .inr ⟨_, rfl, rfl⟩
  · rintro (⟨rfl, rfl⟩ | ⟨reply, rfl, rfl⟩)
    · exact .start
    · exact .send .start

/-- A service for which a request is prepared does what that request does. -/
theorem dispatch_of_prepare {s : Service} {p : Prepared} (h : app.prepare token s = .ok p) :
    app.dispatch token s = p.plan := by
  obtain ⟨read, hexecute, hread⟩ := execute_of_prepare h
  rw [dispatch, hexecute]
  exact congrArg (Plan.send p.request) (funext fun reply => congrArg Plan.done (hread reply).symm)

/-- A service for which no request is prepared has failed. -/
theorem dispatch_of_prepare_error {s : Service} {e : ApiError}
    (h : app.prepare token s = .error e) : app.dispatch token s = .done (.error e) := by
  rw [dispatch, execute_of_prepare_error h]
  rfl

theorem map_dispatch_of_prepare {services : List Service}
    (h : List.Forall₂ (fun s p => app.prepare token s = .ok p) services prepared) :
    services.map (app.dispatch token) = prepared.map Prepared.plan := by
  induction h with
  | nil => rfl
  | cons hp _ ih => rw [List.map_cons, List.map_cons, dispatch_of_prepare hp, ih]

/-- The moves of prepared requests come from replies in that order. -/
theorem exists_arrivals_of_interleaves {moves : List Move}
    {rests : List (Plan (Except ApiError Json))}
    (hruns : Plan.Interleaves (prepared.map Prepared.plan) moves rests) :
    ∃ arrivals, movesOf [.sentAll (prepared.map (·.request)) arrivals] = moves := by
  refine exists_arrivals fun move hmem => ?_
  have hlt : move.index < prepared.length := by simpa using hruns.index_lt move hmem
  have hp : prepared[move.index]? = some prepared[move.index] := List.getElem?_eq_getElem hlt
  have hplan : (prepared.map Prepared.plan)[move.index]? = some prepared[move.index].plan := by
    simp [hp]
  obtain ⟨rest, -, hreaches⟩ := hruns.reaches hplan
  have hturn : move.turn ∈ turnsOf move.index moves := mem_turnsOf hmem
  rcases Prepared.reaches_plan_iff.1 hreaches with ⟨hnone, -⟩ | ⟨reply, hone, -⟩
  · rw [hnone] at hturn
    cases hturn
  · rw [hone, List.mem_singleton] at hturn
    exact ⟨_, reply, by simp [hp], hturn⟩

/-! ## What is assembled -/

section Assembled

variable {rests : List (Plan (Except ApiError Json))}
  (hruns : Plan.Interleaves (prepared.map Prepared.plan)
    (movesOf [.sentAll (prepared.map (·.request)) arrivals]) rests)

include hruns

/-- Either no reply came to a prepared request, which then waits, or one, which is read. -/
theorem arrivals_of_interleaves {index : Nat} {p : Prepared} (hp : prepared[index]? = some p) :
    (arrivals.filter (·.index == index) = [] ∧ rests[index]? = some p.plan) ∨
      ∃ reply, arrivals.filter (·.index == index) = [⟨index, reply⟩] ∧
        rests[index]? = some (.done (p.read reply)) := by
  have hplan : (prepared.map Prepared.plan)[index]? = some p.plan := by simp [hp]
  have hrequest : (prepared.map (·.request))[index]? = some p.request := by simp [hp]
  obtain ⟨rest, hrest, hreaches⟩ := hruns.reaches hplan
  rw [turnsOf_movesOf hrequest] at hreaches
  rcases Prepared.reaches_plan_iff.1 hreaches with ⟨hnone, rfl⟩ | ⟨reply, hone, rfl⟩
  · exact .inl ⟨List.map_eq_nil_iff.1 hnone, hrest⟩
  · obtain ⟨arrival, hfilter, hreply⟩ := List.map_eq_singleton_iff.1 hone
    cases hreply
    have hindex : arrival.index = index := by
      have hmem := List.mem_filter.1 (hfilter ▸ List.mem_singleton_self arrival)
      exact beq_iff_eq.1 hmem.2
    subst hindex
    exact .inr ⟨arrival.reply, hfilter, hrest⟩

/-- The plan of a request to which a reply came ends with what is read from it. -/
theorem rest_of_arrival {arrival : Arrival} (hmem : arrival ∈ arrivals) {p : Prepared}
    (hp : prepared[arrival.index]? = some p) :
    rests[arrival.index]? = some (.done (p.read arrival.reply)) := by
  have hfilter : arrival ∈ arrivals.filter (·.index == arrival.index) := by simpa using hmem
  rcases arrivals_of_interleaves hruns hp with ⟨hnone, -⟩ | ⟨reply, hone, hrest⟩
  · rw [hnone] at hfilter
    cases hfilter
  · rw [hone, List.mem_singleton] at hfilter
    rw [hrest, hfilter]

/-- A plan that is over has read the reply to its request. -/
theorem arrival_of_rest {index : Nat} {result : Except ApiError Json}
    (hrest : rests[index]? = some (.done result)) :
    ∃ p reply, prepared[index]? = some p ∧ p.read reply = result ∧
      arrivals.find? (·.index == index) = some ⟨index, reply⟩ := by
  obtain ⟨plan, hplan, -⟩ := hruns.exists_of_rest hrest
  rw [List.getElem?_map] at hplan
  obtain ⟨p, hp, -⟩ := Option.map_eq_some_iff.1 hplan
  rcases arrivals_of_interleaves hruns hp with ⟨-, hwaits⟩ | ⟨reply, hone, hread⟩
  · cases hwaits.symm.trans hrest
  · refine ⟨p, reply, hp, ?_, ?_⟩
    · exact Plan.done.inj (Option.some.inj (hread.symm.trans hrest))
    · rw [← List.head?_filter, hone]
      rfl

/-- A plan has failed exactly when a failure has arrived. -/
theorem hasFailed_iff : Plan.HasFailed rests ↔ (firstFailure? prepared arrivals).isSome = true := by
  constructor
  · rintro ⟨e, hmem⟩
    obtain ⟨index, hrest⟩ := List.mem_iff_getElem?.1 hmem
    obtain ⟨p, reply, hp, hread, hfind⟩ := arrival_of_rest hruns hrest
    by_contra hnone
    rw [Bool.not_eq_true, Option.isSome_eq_false_iff, Option.isNone_iff_eq_none] at hnone
    obtain ⟨json, hjson⟩ :=
      read_of_firstFailure_eq_none hnone (List.mem_of_find?_eq_some hfind) hp
    cases hread.symm.trans hjson
  · intro h
    obtain ⟨e, he⟩ := Option.isSome_iff_exists.1 h
    obtain ⟨arrival, hmem, p, hp, hread⟩ := exists_of_firstFailure he
    exact ⟨e, hread ▸ List.mem_of_getElem? (rest_of_arrival hruns hmem hp)⟩

/-- The section of a plan that has a value is that value. -/
theorem section?_of_rest {index : Nat} {json : Json}
    (hrest : rests[index]? = some (.done (.ok json))) :
    (section? prepared arrivals index) = some json := by
  obtain ⟨p, reply, hp, hread, hfind⟩ := arrival_of_rest hruns hrest
  simp [section?, hp, hfind, hread]

/-- When all plans have a value, these are the sections of the answer. -/
theorem assemble_of_values {names : List String} {values : List Json}
    (hvalues : rests = values.map fun json => .done (.ok json))
    (hlength : names.length = values.length) :
    assemble names prepared arrivals = .json 200 (.object (names.zip values)) := by
  have hnone : firstFailure? prepared arrivals = none := by
    rw [← Option.not_isSome_iff_eq_none, ← hasFailed_iff hruns, hvalues]
    exact Plan.not_hasFailed_of_values values
  rw [assemble, hnone]
  refine congrArg (Response.json 200 ∘ Json.object) (List.ext_getElem (by simp [hlength]) ?_)
  intro index hindex _
  have hlt : index < values.length := by simpa [hlength] using hindex
  have hrest : rests[index]? = some (.done (.ok values[index])) := by simp [hvalues, hlt]
  simp [section?_of_rest hruns hrest]

end Assembled

/-! ## Several services at once -/

variable {services : List (String × Service)} {turns : List Turn} {response : Response}

/-- A service got an answer of success to its request, and this is its decoded value as JSON. -/
def Fulfils (app : App) (token : String) (s : Service) (turns : List Turn) (json : Json) : Prop :=
  ∃ out status body value, (app.dispatch token s).waiting = [out] ∧
    turns = [.sent out (.answer status body)] ∧ Http.isSuccess status = true ∧
    Call.decodeBody s.codec body = .ok value ∧ json = s.codec.encode value

/-- A service whose dispatch has a value is fulfilled. -/
theorem fulfils_of_reaches {s : Service} {json : Json}
    (h : (app.dispatch token s).Reaches turns (.done (.ok json))) :
    app.Fulfils token s turns json := by
  cases hprepare : app.prepare token s with
  | error e =>
    rw [dispatch_of_prepare_error hprepare] at h
    cases (Plan.reaches_done_iff.1 h).2
  | ok p =>
    have hdispatch := dispatch_of_prepare hprepare
    rw [hdispatch, Prepared.reaches_plan_iff] at h
    rcases h with ⟨-, hwaits⟩ | ⟨reply, rfl, hread⟩
    · cases hwaits
    · obtain ⟨call, path, request, -, -, -, -, rfl⟩ := prepare_eq_ok_iff.1 hprepare
      obtain ⟨value, hvalue, hjson⟩ := map_eq_ok_iff.1 (Plan.done.inj hread).symm
      cases reply with
      | unreached | truncated => cases hvalue
      | answer status body =>
        rw [Call.result] at hvalue
        split at hvalue
        · next hstatus =>
          exact ⟨request, status, body, value, by rw [hdispatch]; rfl, rfl, hstatus, hvalue,
            hjson.symm⟩
        · cases hvalue

/-- The dispatches of some services. -/
def dispatches (app : App) (token : String) (services : List (String × Service)) :
    List (Plan (Except ApiError Json)) :=
  services.map fun s => app.dispatch token s.2

theorem getElem?_dispatches_eq_some_iff {services : List (String × Service)} {index : Nat}
    {plan : Plan (Except ApiError Json)} :
    (app.dispatches token services)[index]? = some plan ↔
      ∃ s, services[index]? = some s ∧ app.dispatch token s.2 = plan := by
  rw [dispatches, List.getElem?_map, Option.map_eq_some_iff]

/-- Services are called at once, unless the dispatch of one fails before anything is sent. -/
theorem gather_cases (app : App) (token : String) (services : List (String × Service)) :
    (∃ e, .done (.error e) ∈ app.dispatches token services ∧
      app.gather token services = .done (.failure e)) ∨
    ∃ prepared : List Prepared, app.dispatches token services = prepared.map Prepared.plan ∧
      app.gather token services = .sendAll (prepared.map (·.request)) fun arrivals =>
        .done (assemble (services.map (·.1)) prepared arrivals) := by
  cases hprepared : services.mapM fun s => app.prepare token s.2 with
  | error e =>
    obtain ⟨s, hs, he⟩ := exists_of_mapM_eq_error hprepared
    have hmem : app.dispatch token s.2 ∈ app.dispatches token services :=
      List.mem_map_of_mem hs
    exact .inl ⟨e, dispatch_of_prepare_error he ▸ hmem, by rw [gather, hprepared]⟩
  | ok prepared =>
    have hall : List.Forall₂ (fun s p => app.prepare token s = .ok p) (services.map (·.2))
        prepared := List.forall₂_map_left_iff.2 (forall₂_of_mapM_eq_ok hprepared)
    refine .inr ⟨prepared, ?_, by rw [gather, hprepared]⟩
    rw [← map_dispatch_of_prepare hall, List.map_map]
    rfl

/-- A service that sends its request ends with the next turn, whatever the outside replies. -/
theorem exists_turn_of_waiting {s : Service} (outside : Plan.Outside Id)
    (hwaits : (app.dispatch token s).waiting ≠ []) :
    ∃ turn, (app.dispatch token s).Reaches [turn]
      (.done (Id.run ((app.dispatch token s).run outside))) := by
  cases hprepare : app.prepare token s with
  | error e => exact absurd (by rw [dispatch_of_prepare_error hprepare]; rfl) hwaits
  | ok p =>
    rw [dispatch_of_prepare hprepare]
    exact ⟨_, .send .start⟩

section Gathered

variable {rests : List (Plan (Except ApiError Json))} {moves : List Move}

/-- Whatever the order in which the dispatches go on, a run of the handler follows it. -/
theorem exists_gather_run
    (hruns : Plan.Interleaves (app.dispatches token services) moves rests) :
    ∃ turns response, (app.gather token services).Reaches turns (.done response) ∧
      (Plan.HasFailed (app.dispatches token services) ∨ movesOf turns = moves) := by
  rcases gather_cases app token services with
    ⟨e, hmem, hgather⟩ | ⟨prepared, hplans, hgather⟩
  · rw [hgather]
    exact ⟨[], _, .start, .inl ⟨e, hmem⟩⟩
  · obtain ⟨arrivals, harrivals⟩ := exists_arrivals_of_interleaves (hplans ▸ hruns)
    rw [hgather]
    exact ⟨_, _, .sendAll .start, .inr harrivals⟩

/-- When all dispatches have a value, the answer is made of these values. -/
theorem gather_of_values {values : List Json}
    (h : (app.gather token services).Reaches turns (.done response))
    (hruns : Plan.Interleaves (app.dispatches token services) (movesOf turns)
      (values.map fun json => .done (.ok json))) :
    response = .json 200 (.object ((services.map (·.1)).zip values)) := by
  rcases gather_cases app token services with
    ⟨e, hmem, -⟩ | ⟨prepared, hplans, hgather⟩
  · have hstart : Plan.HasFailed (app.dispatches token services) := ⟨e, hmem⟩
    exact absurd (hstart.of_interleaves hruns) (Plan.not_hasFailed_of_values values)
  · have hlength : (services.map (·.1)).length = values.length := by
      simpa [dispatches] using hruns.length_eq.symm
    rw [hgather] at h
    cases h with
    | sendAll h =>
      obtain ⟨rfl, hresponse⟩ := Plan.reaches_done_iff.1 h
      rw [Plan.done.inj hresponse]
      exact assemble_of_values (hplans ▸ hruns) rfl hlength

/-- When all dispatches have a value, each is in the section of its service. -/
theorem exists_fields_of_values {values : List Json}
    (h : (app.gather token services).Reaches turns (.done response))
    (hruns : Plan.Interleaves (app.dispatches token services) (movesOf turns)
      (values.map fun json => .done (.ok json))) :
    ∃ fields, response = .json 200 (.object fields) ∧ fields.length = services.length ∧
      ∀ (index : Nat) (s : String × Service), services[index]? = some s →
        ∃ json, fields[index]? = some (s.1, json) ∧
          app.Fulfils token s.2 (turnsOf index (movesOf turns)) json := by
  have hlength : values.length = services.length := by
    simpa [dispatches] using hruns.length_eq
  refine ⟨_, gather_of_values h hruns, by simp [hlength], fun index s hs => ?_⟩
  obtain ⟨rest, hrest, hreaches⟩ :=
    hruns.reaches (getElem?_dispatches_eq_some_iff.2 ⟨s, hs, rfl⟩)
  rw [List.getElem?_map] at hrest
  obtain ⟨json, hjson, rfl⟩ := Option.map_eq_some_iff.1 hrest
  refine ⟨json, ?_, fulfils_of_reaches hreaches⟩
  rw [List.getElem?_zip_eq_some, List.getElem?_map, hs]
  exact ⟨rfl, hjson⟩

/-- When all dispatches have a value, every other order is possible and gives the same answer. -/
theorem gather_reorder {values : List Json}
    (h : (app.gather token services).Reaches turns (.done response))
    (hruns : Plan.Interleaves (app.dispatches token services) (movesOf turns)
      (values.map fun json => .done (.ok json)))
    (hturns : ∀ index, turnsOf index moves = turnsOf index (movesOf turns)) :
    (∃ turns', (app.gather token services).Reaches turns' (.done response) ∧
      movesOf turns' = moves) ∧
    ∀ turns' response', (app.gather token services).Reaches turns' (.done response') →
      movesOf turns' = moves → response' = response := by
  have hruns' := hruns.reorder hturns
  have hsame (turns' : List Turn) (response' : Response)
      (h' : (app.gather token services).Reaches turns' (.done response'))
      (hmoves : movesOf turns' = moves) : response' = response := by
    rw [gather_of_values h hruns, gather_of_values h' (hmoves ▸ hruns')]
  obtain ⟨turns', response', h', hfailed | hmoves⟩ := exists_gather_run hruns'
  · exact absurd (hfailed.of_interleaves hruns) (Plan.not_hasFailed_of_values values)
  · exact ⟨⟨turns', hsame turns' response' h' hmoves ▸ h', hmoves⟩, hsame⟩

/-- When a dispatch has failed, the failure of one that has is reported. -/
theorem gather_of_hasFailed (h : (app.gather token services).Reaches turns (.done response))
    (hruns : Plan.Interleaves (app.dispatches token services) (movesOf turns) rests)
    (hfailed : Plan.HasFailed rests) :
    ∃ (index : Nat) (s : String × Service) (e : ApiError), services[index]? = some s ∧
      (app.dispatch token s.2).Reaches (turnsOf index (movesOf turns)) (.done (.error e)) ∧
      response = .failure e := by
  rcases gather_cases app token services with
    ⟨e, hmem, hgather⟩ | ⟨prepared, hplans, hgather⟩
  · rw [hgather] at h
    obtain ⟨rfl, hresponse⟩ := Plan.reaches_done_iff.1 h
    obtain ⟨index, hindex⟩ := List.mem_iff_getElem?.1 hmem
    obtain ⟨s, hs, hstart⟩ := getElem?_dispatches_eq_some_iff.1 hindex
    exact ⟨index, s, e, hs, hstart ▸ .start, Plan.done.inj hresponse⟩
  · rw [hgather] at h
    cases h with
    | sendAll h =>
      obtain ⟨rfl, hresponse⟩ := Plan.reaches_done_iff.1 h
      have hplan := hplans ▸ hruns
      obtain ⟨e, he⟩ := Option.isSome_iff_exists.1 ((hasFailed_iff hplan).1 hfailed)
      obtain ⟨arrival, hmem, p, hp, hread⟩ := exists_of_firstFailure he
      obtain ⟨plan, hdispatch, hreaches⟩ :=
        hruns.exists_of_rest (hread ▸ rest_of_arrival hplan hmem hp)
      obtain ⟨s, hs, rfl⟩ := getElem?_dispatches_eq_some_iff.1 hdispatch
      refine ⟨arrival.index, s, e, hs, hreaches, ?_⟩
      rw [Plan.done.inj hresponse, assemble, he]

/-- What is sent is one request for each of the services, unless one has failed before. -/
theorem sent_of_gather {rest : Plan Response}
    (h : (app.gather token services).Reaches turns rest) :
    Plan.sent turns rest = [] ∨ List.Forall₂ (fun plan out => plan.waiting = [out])
      (app.dispatches token services) (Plan.sent turns rest) := by
  rcases gather_cases app token services with
    ⟨e, hmem, hgather⟩ | ⟨prepared, hplans, hgather⟩
  · rw [hgather] at h
    obtain ⟨rfl, rfl⟩ := Plan.reaches_done_iff.1 h
    exact .inl rfl
  · have hsent : Plan.sent turns rest = prepared.map (·.request) := by
      rw [hgather] at h
      cases h with
      | start => rfl
      | sendAll h =>
        obtain ⟨rfl, rfl⟩ := Plan.reaches_done_iff.1 h
        simp [Plan.sent, Turn.requests, Plan.waiting]
    rw [hsent, hplans, List.forall₂_map_left_iff, List.forall₂_map_right_iff]
    exact .inr (List.forall₂_same.2 fun _ _ => rfl)

end Gathered

/-! ## The overview and the reference data -/

/-- A request is for data that several services give, each a section of the answer. -/
inductive FansOut (request : Incoming) : List (String × Service) → Prop
  | overview : request.method = "GET" → request.path = "/dashboard" →
      FansOut request overviewSections
  | reference : request.method = "GET" → request.path = "/dashboard/reference" →
      FansOut request referenceSections

variable {request : Incoming} {session : Session} {sections : List (String × Service)}

/-- Such a request leads to an endpoint that gathers the sections. -/
theorem FansOut.exists_endpoint (h : FansOut request sections) :
    request.method = "GET" ∧ ∃ endpoint,
      Route.target request.method request.path = .endpoint (.data endpoint) "" ∧
      ∀ (app : App) (token : String),
        app.serveData token "" request endpoint = app.gather token sections := by
  cases h with
  | overview hmethod hpath =>
    refine ⟨hmethod, .overview, ?_, fun _ _ => rfl⟩
    rw [hmethod, hpath]
    decide +kernel
  | reference hmethod hpath =>
    refine ⟨hmethod, .reference, ?_, fun _ _ => rfl⟩
    rw [hmethod, hpath]
    decide +kernel

/-- A request that the guard allows is answered as its sections are gathered. -/
theorem handle_of_fansOut (hfan : FansOut request sections)
    (hallow : app.decision request (some session) = .allow) :
    app.handle request (some session) =
      (app.gather session.token sections).bind fun response => .done (.ok response) := by
  obtain ⟨hmethod, endpoint, htarget, hserve⟩ := hfan.exists_endpoint
  have hroute : app.serveRoute (some session) request = app.gather session.token sections := by
    rw [serveRoute, htarget]
    exact hserve app session.token
  have hfinish (response : Response) : finish request response = response := by
    rw [finish_of_endpoint htarget, hmethod]
    rfl
  rw [handle, hallow, decide, hroute, Plan.bind_assoc]
  exact congrArg _ (funext fun response => congrArg (Plan.done ∘ Except.ok) (hfinish response))

/-- The answer to a request that the guard allows is what its sections are gathered to. -/
theorem handle_reaches_done_iff (hfan : FansOut request sections)
    (hallow : app.decision request (some session) = .allow) {outcome : Except Abort Response} :
    (app.handle request (some session)).Reaches turns (.done outcome) ↔
      ∃ response, outcome = .ok response ∧
        (app.gather session.token sections).Reaches turns (.done response) := by
  rw [handle_of_fansOut hfan hallow, Plan.reaches_bind_done_iff]
  constructor
  · rintro ⟨response, before, after, rfl, h, hdone⟩
    obtain ⟨rfl, houtcome⟩ := Plan.reaches_done_iff.1 hdone
    rw [List.append_nil]
    exact ⟨response, Plan.done.inj houtcome, h⟩
  · rintro ⟨response, rfl, h⟩
    exact ⟨response, turns, [], (List.append_nil turns).symm, h, .start⟩

/-- A request for a caller carries the caller's token. -/
theorem bearer_mem_authorization {out : Outgoing} (hblank : Text.isBlank token = false)
    (h : app.IsCallerRequest token out) : bearer token ∈ out.authorization := by
  obtain ⟨service, call, path, -, -, hrequest, -⟩ := h
  exact Call.bearer_mem_of_request (usable_token hblank ▸ hrequest)

/-- Services that are called at once for a signed-in caller may answer in any order. Whatever it is,
the handler goes through it, and when all have a value, the answer has a section for each, with the
decoded answer to its own request, and is the same in every other order. When some fail, the failure
of one of them is the answer. What is sent is one request for each service at most, all with the
caller's token. -/
theorem fan_out_does_not_depend_on_order {before : List Turn} (hfan : FansOut request sections)
    (hsession : (app.identify request).Reaches before (.done (some session)))
    (hallow : app.decision request (some session) = .allow) :
    (∀ moves rests, Plan.Interleaves (app.dispatches session.token sections) moves rests →
      Plan.AreOver rests → ∃ turns response,
        (app.handle request (some session)).Reaches turns (.done (.ok response)) ∧
        (Plan.HasFailed (app.dispatches session.token sections) ∨ movesOf turns = moves)) ∧
    (∀ turns outcome (values : List Json),
      (app.handle request (some session)).Reaches turns (.done outcome) →
      Plan.Interleaves (app.dispatches session.token sections) (movesOf turns)
        (values.map fun json => .done (.ok json)) →
      (∃ fields, outcome = .ok (.json 200 (.object fields)) ∧ fields.length = sections.length ∧
        ∀ (index : Nat) (s : String × Service), sections[index]? = some s →
          ∃ json, fields[index]? = some (s.1, json) ∧
            app.Fulfils session.token s.2 (turnsOf index (movesOf turns)) json) ∧
      ∀ moves, (∀ index, turnsOf index moves = turnsOf index (movesOf turns)) →
        (∃ turns', (app.handle request (some session)).Reaches turns' (.done outcome) ∧
          movesOf turns' = moves) ∧
        ∀ turns' outcome', (app.handle request (some session)).Reaches turns' (.done outcome') →
          movesOf turns' = moves → outcome' = outcome) ∧
    (∀ turns outcome rests,
      (app.handle request (some session)).Reaches turns (.done outcome) →
      Plan.Interleaves (app.dispatches session.token sections) (movesOf turns) rests →
      Plan.HasFailed rests →
      ∃ (index : Nat) (s : String × Service) (e : ApiError), sections[index]? = some s ∧
        (app.dispatch session.token s.2).Reaches (turnsOf index (movesOf turns))
          (.done (.error e)) ∧
        outcome = .ok (.failure e)) ∧
    ∀ turns rest, (app.handle request (some session)).Reaches turns rest →
      (Plan.sent turns rest = [] ∨ List.Forall₂ (fun plan out => plan.waiting = [out])
        (app.dispatches session.token sections) (Plan.sent turns rest)) ∧
      ∀ out ∈ Plan.sent turns rest, bearer session.token ∈ out.authorization ∧
        (Url.hasUserInfo app.base = false → out.authorization = [bearer session.token]) := by
  have hhandle (turns : List Turn) (outcome : Except Abort Response) :
      (app.handle request (some session)).Reaches turns (.done outcome) ↔ _ :=
    handle_reaches_done_iff hfan hallow
  refine ⟨fun moves rests hruns _ => ?_, fun turns outcome values h hruns => ?_,
    fun turns outcome rests h hruns hfailed => ?_, fun turns rest h => ?_⟩
  · obtain ⟨turns, response, hgather, hmoves⟩ := exists_gather_run hruns
    exact ⟨turns, response, (hhandle turns _).2 ⟨response, rfl, hgather⟩, hmoves⟩
  · obtain ⟨response, rfl, hgather⟩ := (hhandle turns outcome).1 h
    refine ⟨?_, fun moves hturns => ?_⟩
    · obtain ⟨fields, rfl, hfields⟩ := exists_fields_of_values hgather hruns
      exact ⟨fields, rfl, hfields⟩
    · obtain ⟨⟨turns', h', hmoves⟩, hsame⟩ := gather_reorder hgather hruns hturns
      refine ⟨⟨turns', (hhandle turns' _).2 ⟨response, rfl, h'⟩, hmoves⟩, ?_⟩
      intro turns' outcome' h' hmoves
      obtain ⟨response', rfl, hgather'⟩ := (hhandle turns' outcome').1 h'
      rw [hsame turns' response' hgather' hmoves]
  · obtain ⟨response, rfl, hgather⟩ := (hhandle turns outcome).1 h
    obtain ⟨index, s, e, hs, hreaches, rfl⟩ := gather_of_hasFailed hgather hruns hfailed
    exact ⟨index, s, e, hs, hreaches, rfl⟩
  · rw [handle_of_fansOut hfan hallow] at h
    obtain ⟨stop, hgather, hsent⟩ := Plan.Reaches.of_bind_done (fun _ => ⟨_, rfl⟩) h
    have hblank := isBlank_presentedToken (signedIn_of_identify hsession).1
    rw [← hsent]
    refine ⟨sent_of_gather hgather, fun out hout => ?_⟩
    have hcaller := (gather_onlySends sections).of_sent hgather out hout
    exact ⟨bearer_mem_authorization hblank hcaller,
      fun hbase => carries_bearer hbase hblank hcaller⟩

/-- Of the three sections of the overview the last may come first; and when the second fails first,
the others are not waited for. -/
theorem overview_answers_out_of_order :
    let app : App := { base := "http://api.test", validator := .fixed "tok" }
    let request : Incoming :=
      { method := "GET", path := "/dashboard", query := none,
        headers := [("cookie", Utf8.encode "__session=tok")], body := [] }
    let handler := app.handle request (some { token := "tok" })
    (∃ turns fields, handler.Reaches turns (.done (.ok (.json 200 (.object fields)))) ∧
      (movesOf turns).map Move.index = [2, 0, 1] ∧ fields.length = 3) ∧
    (∃ turns e, handler.Reaches turns (.done (.ok (.failure e))) ∧
      (movesOf turns).map Move.index = [1]) ∧
    ∀ out ∈ handler.waiting, out.authorization = [bearer "tok"] := by
  intro app request handler
  have hskips : app.patterns.skips request.path = false := by decide +kernel
  have htoken : presentedToken request.headers app.settings.sessionCookie = some "tok" := by
    decide +kernel
  have hsession : (app.identify request).Reaches [] (.done (some { token := "tok" })) := by
    simp only [identify, resolveSession, Validator.resolve, hskips, htoken]
    exact .start
  obtain ⟨horders, hvalues, hfailures, hsent⟩ := fan_out_does_not_depend_on_order
    (.overview rfl rfl) hsession (by decide +kernel)
  let plan (s : Service) : Plan (Except ApiError Json) := app.dispatch "tok" s
  let replying (reply : Reply) : Plan.Outside Id := ⟨fun _ => .anonymous, fun _ => reply⟩
  have hturn (s : Service) (reply : Reply) (isOk : Bool) (hwaits : (plan s).waiting ≠ [])
      (hanswer : (Id.run ((plan s).run (replying reply))).isOk = isOk) :
      ∃ turn answer, (plan s).Reaches [turn] (.done answer) ∧ answer.isOk = isOk := by
    obtain ⟨turn, h⟩ := exists_turn_of_waiting (replying reply) hwaits
    exact ⟨turn, _, h, hanswer⟩
  obtain ⟨first, - | user, hfirst, ⟨⟩⟩ := hturn .getProfile
    (.answer 200 (Utf8.encode "\x7b\x7d")) true (by decide +kernel) (by decide +kernel)
  obtain ⟨second, - | accounts, hsecond, ⟨⟩⟩ := hturn .listAccounts
    (.answer 200 (Utf8.encode "[]")) true (by decide +kernel) (by decide +kernel)
  obtain ⟨third, - | goals, hthird, ⟨⟩⟩ := hturn (.listGoals {})
    (.answer 200 (Utf8.encode "[]")) true (by decide +kernel) (by decide +kernel)
  obtain ⟨lost, e | -, hlost, ⟨⟩⟩ := hturn .listAccounts .unreached false (by decide +kernel)
    (by decide +kernel)
  have hruns : Plan.Interleaves (app.dispatches "tok" overviewSections)
      [⟨2, third⟩, ⟨0, first⟩, ⟨1, second⟩]
      ([user, accounts, goals].map fun json => .done (.ok json)) :=
    .move rfl hthird (.move rfl hfirst (.move rfl hsecond .start))
  have hstart : ¬ Plan.HasFailed (app.dispatches "tok" overviewSections) := fun h =>
    absurd (h.of_interleaves hruns) (Plan.not_hasFailed_of_values _)
  refine ⟨?_, ?_, fun out hout => ?_⟩
  · obtain ⟨turns, response, h, hfailed | hmoves⟩ := horders _ _ hruns (.inr ⟨_, rfl⟩)
    · exact absurd hfailed hstart
    · obtain ⟨⟨fields, hfields, hlength, -⟩, -⟩ := hvalues turns _ _ h (hmoves ▸ hruns)
      exact ⟨turns, fields, hfields ▸ h, by rw [hmoves]; rfl, hlength⟩
  · have hruns : Plan.Interleaves (app.dispatches "tok" overviewSections) [⟨1, lost⟩]
        [plan .getProfile, .done (.error e), plan (.listGoals {})] := .move rfl hlost .start
    have hfailed : Plan.HasFailed [plan .getProfile, .done (.error e), plan (.listGoals {})] :=
      ⟨e, .tail _ (.head _)⟩
    obtain ⟨turns, response, h, hstarts | hmoves⟩ := horders _ _ hruns (.inl hfailed)
    · exact absurd hstarts hstart
    · obtain ⟨-, -, e', -, -, he'⟩ := hfailures turns _ _ h (hmoves ▸ hruns) hfailed
      exact ⟨turns, e', he' ▸ h, by rw [hmoves]; rfl⟩
  · exact ((hsent [] handler .start).2 out hout).2 (by decide +kernel)

end App

end FinanceGateway
