import FinanceGateway.Proofs.App.Access
import FinanceGateway.Proofs.App.Routing
import FinanceGateway.Proofs.Dispatch.Outcomes

/-!
# The application's own credential and those of its callers

The application has a credential of its own, for the health check alone. What it does at any other
path is the same plan whatever that credential is (`App.serve_withService`). At the path of the
health check, the request for the health of the backend is fixed by the base and by the token that
the application's own provider tells (`IsHealthRequest.unique`), so no header of the caller gets
into it. `service_and_caller_credentials_never_mix` has both.
-/

namespace FinanceGateway

/-! ## The request for the health of the backend -/

/-- A request for the health of the backend below a base, with a token or without. -/
structure IsHealthRequest (base : String) (token : Option String) (request : Outgoing) : Prop where
  method : request.method = "GET"
  url : Url.read (base ++ "/health") = some (.address request.url)
  authorization : request.authorization = Call.authorization request.url token
  payload : request.payload = .empty

/-- The request for the health of the backend is made of its address and the token. -/
theorem IsHealthRequest.eq {base : String} {token : Option String} {out : Outgoing}
    (h : IsHealthRequest base token out) :
    out = ⟨"GET", out.url, Call.authorization out.url token, .empty⟩ := by
  rw [← h.method, ← h.authorization, ← h.payload]

/-- Base and token fix the request for the health of the backend. -/
theorem IsHealthRequest.unique {base : String} {token : Option String} {out out' : Outgoing}
    (h : IsHealthRequest base token out) (h' : IsHealthRequest base token out') : out = out' := by
  have hurl : out.url = out'.url := by simpa using h.url.symm.trans h'.url
  rw [h.eq, h'.eq, hurl]

/-- The call for the health of the backend. -/
theorem Service.exists_health_call :
    ∃ call, getHealth.call = .ok call ∧ call.resolve = .ok "/health" ∧ call.method = "GET" ∧
      call.queryPairs = [] ∧ call.payload = .ok .empty :=
  ⟨_, rfl, by decide, rfl, rfl, rfl⟩

/-- What a provider tells somewhere at the start of these turns. -/
def ToldIn (provider : Option Provider) (turns : List Turn) (token : Option String) : Prop :=
  ∃ heard, heard <+: turns ∧ Tells provider heard token

/-- Asked for the health of the backend, the application sends the request for it, with the token
that its provider has told. -/
theorem isHealthRequest_of_sent {base : String} {provider : Option Provider} {turns : List Turn}
    {rest : Plan (Except ApiError Health)} {out : Outgoing}
    (h : (Service.getHealth.execute base provider).Reaches turns rest)
    (hout : out ∈ Plan.sent turns rest) :
    ∃ token, ToldIn provider turns token ∧ IsHealthRequest base token out ∧
      (Url.hasUserInfo base = false → out.authorization = (token.map bearer).toList) := by
  obtain ⟨call, hcall, hpath, hmethod, hquery, hpayload⟩ := Service.exists_health_call
  rw [Service.execute_eq hcall] at h
  obtain ⟨path, token, heard, after, rfl, htells, hpath', hrequest, hs, -⟩ :=
    exists_token_of_mem_sent h hout
  obtain rfl : path = "/health" := Except.ok.inj (hpath'.symm.trans hpath)
  refine ⟨token, ⟨heard, List.prefix_append _ _, htells⟩, ?_,
    fun hbase => Service.authorization_eq hbase hcall hpath hrequest hs⟩
  obtain ⟨payload, url, hpayload', hurl, -, rfl⟩ := Call.request_eq_ok_iff.1 hrequest
  obtain rfl : payload = .empty := Except.ok.inj (hpayload'.symm.trans hpayload)
  rw [hquery, Url.addQuery_nil]
  exact ⟨hmethod, Url.read_of_address hurl, rfl, rfl⟩

/-- A validator of one fixed token asks nobody. -/
theorem Validator.resolve_fixed (expected : String) (headers : Headers) (cookieName : String) :
    (Validator.fixed expected).resolve headers cookieName =
      .done ((presentedToken headers cookieName).bind (checkFixed expected)) := by
  rw [resolve]
  cases presentedToken headers cookieName <;> rfl

namespace App

variable {app : App} {request : Incoming} {out : Outgoing}

/-! ## Paths other than that of the health check -/

/-- The application with another credential of its own. -/
def withService (app : App) (service : Option Provider) : App :=
  { app with service }

/-- A data endpoint has no use for the application's own credential. -/
theorem serveData_withService (app : App) (service : Option Provider) (token parameter : String)
    (request : Incoming) (endpoint : DataEndpoint) :
    (app.withService service).serveData token parameter request endpoint =
      app.serveData token parameter request endpoint := by
  cases endpoint <;> rfl

/-- No route but that of the health check has a use for the application's own credential. -/
theorem serveRoute_withService (service : Option Provider) (session : Option Session)
    (hpath : request.path ≠ "/api/health") :
    (app.withService service).serveRoute session request = app.serveRoute session request := by
  unfold serveRoute
  split
  · rfl
  · rfl
  · next endpoint parameter htarget =>
    cases endpoint with
    | session => rfl
    | health => exact absurd (Route.path_of_health htarget) hpath
    | data endpoint =>
      cases session with
      | none => rfl
      | some s => exact serveData_withService app service s.token parameter request endpoint

/-- At any path but that of the health check, all that the application does is the same whatever its
own credential. -/
theorem serve_withService (service : Option Provider) (hpath : request.path ≠ "/api/health") :
    (app.withService service).serve request = app.serve request := by
  -- Who the caller is and what the guard decides is settled without that credential.
  have hidentify : (app.withService service).identify request = app.identify request := rfl
  have hhandle : (app.withService service).handle request = app.handle request := by
    funext session
    have hdecision : (app.withService service).decision request session =
        app.decision request session := rfl
    rw [handle, handle, hdecision]
    cases app.decision request session with
    | allow => simp only [decide, serveRoute_withService service session hpath]
    | toDashboard | toSignIn => rfl
  rw [serve_eq, serve_eq, hidentify, hhandle]

/-! ## The path of the health check -/

/-- Nothing but the health check answers at its path. -/
theorem endpoint_of_health_path {method parameter : String} {endpoint : Endpoint}
    (h : Route.target method "/api/health" = .endpoint endpoint parameter) :
    endpoint = .health := by
  have hall : ∀ route ∈ Route.all,
      (Route.matches? route.pattern (Route.segments "/api/health")).isSome = true →
      ∀ m ∈ route.methods, m.2 = .health := by
    decide
  obtain ⟨route, hroute, ⟨m, hm, rfl⟩, hmatch⟩ := Route.exists_route_of_target h
  exact hall route hroute (by rw [hmatch]; rfl) m hm

/-- Once it was identified, the handler of a request has taken these turns and sent a request. -/
def HandlerSends (app : App) (request : Incoming) (turns : List Turn) (out : Outgoing) : Prop :=
  ∃ session before rest, (app.identify request).Reaches before (.done session) ∧
    (app.handle request session).Reaches turns rest ∧ out ∈ Plan.sent turns rest

/-- Whatever is sent for a request is sent to identify it, or by its handler. -/
theorem sent_cases {turns : List Turn} {rest : Plan (Except Abort Response)}
    (h : (app.serve request).Reaches turns rest) (hout : out ∈ Plan.sent turns rest) :
    (∃ before stop, (app.identify request).Reaches before stop ∧ out ∈ Plan.sent before stop) ∨
      ∃ after, app.HandlerSends request after out := by
  rw [serve_eq] at h
  rcases Plan.reaches_bind_iff.1 h with
    ⟨stop, hstop, hu, rfl⟩ | ⟨session, before, after, rfl, hs, hhandle⟩
  · rw [Plan.sent, hu.waiting_bind] at hout
    exact .inl ⟨turns, stop, hstop, hout⟩
  · rw [Plan.sent_append] at hout
    rcases List.mem_append.1 hout with hout | hout
    · exact .inl ⟨before, .done session, hs, by simpa [Plan.sent, Plan.waiting] using hout⟩
    · exact .inr ⟨after, session, before, rest, hs, hhandle, hout⟩

/-- What the handler of the health check sends is the request for the health of the backend. -/
theorem isHealthRequest_of_handlerSends {turns : List Turn} (hpath : request.path = "/api/health")
    (h : app.HandlerSends request turns out) :
    ∃ token, ToldIn app.service turns token ∧ IsHealthRequest app.base token out ∧
      (Url.hasUserInfo app.base = false → out.authorization = (token.map bearer).toList) := by
  obtain ⟨session, -, rest, -, hhandle, hout⟩ := h
  obtain ⟨decided, hdecided, hsent⟩ := hhandle.of_bind_done fun _ => ⟨_, rfl⟩
  rw [← hsent] at hout
  cases hdecision : app.decision request session with
  | toDashboard | toSignIn =>
    rw [hdecision] at hdecided
    obtain ⟨rfl, rfl⟩ := Plan.reaches_done_iff.1 hdecided
    cases hout
  | allow =>
    rw [hdecision] at hdecided
    obtain ⟨routed, hrouted, hsent⟩ := hdecided.of_bind_done fun _ => ⟨_, rfl⟩
    rw [← hsent] at hout
    unfold serveRoute at hrouted
    split at hrouted
    · obtain ⟨rfl, rfl⟩ := Plan.reaches_done_iff.1 hrouted
      cases hout
    · obtain ⟨rfl, rfl⟩ := Plan.reaches_done_iff.1 hrouted
      cases hout
    · next endpoint parameter htarget =>
      rw [hpath] at htarget
      obtain rfl := endpoint_of_health_path htarget
      obtain ⟨called, hcalled, hsent⟩ := hrouted.of_bind_done fun result => by
        cases result <;> exact ⟨_, rfl⟩
      rw [← hsent] at hout
      exact isHealthRequest_of_sent hcalled hout

/-! ## Both -/

/-- At any path but that of the health check, whatever is asked of providers, sent to the backend
and answered is the same for any two credentials of the application. At that path, all that the
handler sends is the request for the health of the backend with the token of the application's own
credential; two requests of callers, whatever their headers, make it send the same one whenever that
credential tells the same token. -/
theorem service_and_caller_credentials_never_mix (app : App) :
    (∀ (request : Incoming) (service service' : Option Provider), request.path ≠ "/api/health" →
      (app.withService service).serve request = (app.withService service').serve request) ∧
    ∀ request : Incoming, request.path = "/api/health" →
      (∀ turns rest out, (app.serve request).Reaches turns rest → out ∈ Plan.sent turns rest →
        (∃ before stop, (app.identify request).Reaches before stop ∧
          out ∈ Plan.sent before stop) ∨
        ∃ after, app.HandlerSends request after out) ∧
      ∀ turns out, app.HandlerSends request turns out →
        (∃ token, ToldIn app.service turns token ∧ IsHealthRequest app.base token out ∧
          (Url.hasUserInfo app.base = false →
            out.authorization = (token.map bearer).toList)) ∧
        ∀ (headers : Headers) (turns' : List Turn) (out' : Outgoing),
          app.HandlerSends { request with headers } turns' out' →
          (∀ token token', ToldIn app.service turns token → ToldIn app.service turns' token' →
            token = token') →
          out' = out := by
  refine ⟨fun request service service' hpath => ?_, fun request hpath =>
    ⟨fun turns rest out h hout => sent_cases h hout, fun turns out h => ?_⟩⟩
  · rw [serve_withService service hpath, serve_withService service' hpath]
  · obtain ⟨token, htold, hout, hcarries⟩ := isHealthRequest_of_handlerSends hpath h
    refine ⟨⟨token, htold, hout, hcarries⟩, fun headers turns' out' h' hsame => ?_⟩
    have hpath' : ({ request with headers } : Incoming).path = "/api/health" := hpath
    obtain ⟨token', htold', hout', -⟩ := isHealthRequest_of_handlerSends hpath' h'
    obtain rfl := hsame token token' htold htold'
    exact hout'.unique hout

/-- A caller who presents a token of their own asks for the health of the backend, as does one who
presents nothing. -/
theorem health_check_carries_service_token :
    let app : App :=
      { base := "http://api.test", service := some (.fixed 0 (some "svc")),
        validator := .fixed "tok" }
    let health : Incoming :=
      { method := "GET", path := "/api/health", query := none,
        headers := [("cookie", Utf8.encode "__session=tok")], body := [] }
    let message : Incoming := { health with path := "/dashboard/sms/7" }
    (app.withService none).serve message = app.serve message ∧
      ∃ out out', app.HandlerSends health [] out ∧
        app.HandlerSends { health with headers := [] } [] out' ∧
        out.authorization = [bearer "svc"] ∧ out' = out := by
  intro app health message
  obtain ⟨hothers, hhealth⟩ := service_and_caller_credentials_never_mix app
  -- The token told by a fixed provider is the fixed one.
  have htold : ∀ token, ToldIn app.service [] token → token = some "svc" := by
    rintro token ⟨heard, -, ht⟩
    cases ht
    decide
  have hskips : app.patterns.skips health.path = false := by decide
  have hsends : ∀ headers, (app.handle { health with headers }
      ((presentedToken headers "__session").bind (Validator.checkFixed "tok"))).waiting ≠ [] →
      ∃ out, app.HandlerSends { health with headers } [] out := by
    intro headers hwaiting
    obtain ⟨out, hout⟩ := List.exists_mem_of_ne_nil _ hwaiting
    have hidentify : app.identify { health with headers } = .done _ :=
      (if_neg (by rw [hskips]; nofun)).trans (Validator.resolve_fixed _ _ _)
    exact ⟨out, _, [], _, hidentify ▸ .start, .start, hout⟩
  obtain ⟨out, hout⟩ := hsends health.headers (by decide +kernel)
  obtain ⟨out', hout'⟩ := hsends [] (by decide +kernel)
  obtain ⟨⟨token, ht, -, hcarries⟩, hsame⟩ := (hhealth health rfl).2 [] out hout
  refine ⟨hothers message none app.service (by decide), out, out', hout, hout', ?_,
    hsame [] [] out' hout' fun token token' h h' => (htold token h).trans (htold token' h').symm⟩
  rw [hcarries (by decide), htold token ht]
  rfl

end App

end FinanceGateway
