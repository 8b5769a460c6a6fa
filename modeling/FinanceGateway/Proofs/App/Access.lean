import FinanceGateway.Proofs.App.Handling

/-!
# Nothing is sent for a caller without a session

Access control of the whole application. A request is identified, then handled (`serve_eq`). A
handler other than the health check sends requests only when this very request presented a token
that the validator accepted, and they carry that token (`handler_requests_carry_session_token`); a
data route without a session is answered without a look at parameter, query or body.
-/

namespace FinanceGateway

namespace Validator

/-- The session that a validator gives is that of the token. -/
theorem token_of_validate {v : Validator} {token : String} {turns : List Turn} {session : Session}
    (h : (v.validate token).Reaches turns (.done (.ok (some session)))) :
    session.token = token := by
  cases v with
  | fixed expected =>
    obtain ⟨-, h⟩ := Plan.reaches_done_iff.1 h
    simp only [checkFixed, Plan.done.injEq, Except.ok.injEq] at h
    split at h
    · cases h
    · cases h
      rfl
  | remote base =>
    obtain ⟨profile, before, after, -, -, h⟩ := Plan.reaches_bind_done_iff.1 h
    obtain ⟨-, h⟩ := Plan.reaches_done_iff.1 h
    cases profile with
    | ok profile =>
      cases h
      rfl
    | error e =>
      simp only [verdict, Plan.done.injEq] at h
      split at h <;> cases h

/-- A session is resolved only for a token that is presented and accepted. -/
theorem resolve_eq_some {v : Validator} {headers : Headers} {cookieName : String}
    {turns : List Turn} {session : Session}
    (h : (v.resolve headers cookieName).Reaches turns (.done (some session))) :
    presentedToken headers cookieName = some session.token ∧
      (v.validate session.token).Reaches turns (.done (.ok (some session))) := by
  rw [resolve] at h
  split at h
  · cases (Plan.reaches_done_iff.1 h).2
  · next token htoken =>
    obtain ⟨verdict, before, after, rfl, hv, h⟩ := Plan.reaches_bind_done_iff.1 h
    cases verdict with
    | error => cases (Plan.reaches_done_iff.1 h).2
    | ok found =>
      obtain ⟨rfl, hfound⟩ := Plan.reaches_done_iff.1 h
      cases hfound
      rw [List.append_nil, token_of_validate hv]
      exact ⟨htoken, hv⟩

end Validator

namespace App

variable {app : App} {request : Incoming}

/-- The turns made the validator accept a token that the request presents. -/
def SignedIn (app : App) (request : Incoming) (turns : List Turn) (token : String) : Prop :=
  presentedToken request.headers app.settings.sessionCookie = some token ∧
    ∃ session, (app.validator.validate token).Reaches turns (.done (.ok (some session)))

/-- The session with which a request goes on to its handler; none is resolved for an asset. -/
def identify (app : App) (request : Incoming) : Plan (Option Session) :=
  if app.patterns.skips request.path then .done none else app.resolveSession request

/-- Who is identified has signed in with the token of the session. -/
theorem signedIn_of_identify {turns : List Turn} {session : Session}
    (h : (app.identify request).Reaches turns (.done (some session))) :
    app.SignedIn request turns session.token := by
  unfold identify at h
  split at h
  · cases (Plan.reaches_done_iff.1 h).2
  · obtain ⟨htoken, hv⟩ := Validator.resolve_eq_some h
    exact ⟨htoken, session, hv⟩

/-- The guard's decision on a request with or without a session. -/
def decision (app : App) (request : Incoming) (session : Option Session) : Decision :=
  if app.patterns.skips request.path then .allow
  else app.patterns.evaluate request.path session.isSome

/-- What follows when it is known with which session a request goes on. -/
def handle (app : App) (request : Incoming) (session : Option Session) :
    Plan (Except Abort Response) :=
  (app.decide session request (app.decision request session)).bind fun outcome =>
    .done (outcome.map (finish request))

/-- A request is identified, then handled. -/
theorem serve_eq (app : App) (request : Incoming) :
    app.serve request = (app.identify request).bind (app.handle request) := by
  unfold serve identify handle decision
  split
  · rfl
  · rw [serveGuarded, Plan.bind_assoc]

/-! ## Handlers -/

/-- A handler other than the health check sends requests for the session's caller only. -/
theorem serveRoute_onlySends (session : Option Session)
    (h : ∀ parameter, Route.target request.method request.path ≠ .endpoint .health parameter) :
    (app.serveRoute session request).OnlySends
      fun out => ∃ s, session = some s ∧ app.IsCallerRequest s.token out := by
  unfold serveRoute
  split
  · trivial
  · trivial
  · next endpoint parameter htarget =>
    cases endpoint with
    | session => trivial
    | health => exact absurd htarget (h parameter)
    | data endpoint =>
      cases session with
      | none => trivial
      | some s =>
        refine (serveData_onlySends parameter request endpoint).imp fun out hout => ?_
        exact ⟨s, rfl, hout⟩

/-- What is sent once a request is identified is sent by its handler. -/
theorem handle_onlySends {kind : Outgoing → Prop} {session : Option Session}
    (h : (app.serveRoute session request).OnlySends kind) :
    (app.handle request session).OnlySends kind := by
  refine Plan.OnlySends.bind ?_ fun _ => trivial
  cases app.decision request session with
  | allow => exact h.bind fun _ => trivial
  | toDashboard | toSignIn => trivial

/-- At a path that has the method, only a HEAD request is answered otherwise than its handler
does. -/
theorem finish_of_endpoint {endpoint : Endpoint} {parameter : String} {response : Response}
    (h : Route.target request.method request.path = .endpoint endpoint parameter) :
    finish request response = if request.method == "HEAD" then response.headOnly else response := by
  rw [finish, h]
  rfl

/-- Whoever lacks a session is answered at a data route without a look at parameter, query or
body. -/
theorem handle_none {endpoint : DataEndpoint} {parameter : String}
    (hlegal : isHeaderValue (Utf8.encode app.settings.signInUrl) = true)
    (htarget : Route.target request.method request.path = .endpoint (.data endpoint) parameter) :
    app.handle request none =
      .done (.ok (finish request (if app.decision request none = .toSignIn
        then .redirect app.settings.signInUrl else .unauthorized))) := by
  have hdashboard : app.decision request none ≠ .toDashboard := by
    unfold decision RoutePatterns.evaluate
    split
    · nofun
    · split <;> simp
  unfold handle
  cases hd : app.decision request none with
  | allow =>
    simp only [decide, serveRoute, htarget]
    rfl
  | toDashboard => exact absurd hd hdashboard
  | toSignIn =>
    simp only [decide, redirectTo, hlegal]
    rfl

/-- A run stops while the request is identified, or goes on to its handler. There, other than for
the health check, all that is sent carries the token with which this request has signed in, and
nothing else. Without a session nothing is sent for data, and the answer is the sign-in redirect or
the one for the unauthorized: it takes the same turns for any request that the guard classifies
alike, whatever its parameter, query and body, and whichever data it asks for. -/
theorem handler_requests_carry_session_token {turns : List Turn}
    {rest : Plan (Except Abort Response)}
    (hbase : Url.hasUserInfo app.base = false)
    (hlegal : isHeaderValue (Utf8.encode app.settings.signInUrl) = true)
    (hrun : (app.serve request).Reaches turns rest) :
    (∃ stop, (app.identify request).Reaches turns stop ∧ stop.IsUnfinished ∧
      rest = stop.bind (app.handle request)) ∨
    ∃ session before after, turns = before ++ after ∧
      (app.identify request).Reaches before (.done session) ∧
      (app.handle request session).Reaches after rest ∧
      ((∀ parameter, Route.target request.method request.path ≠ .endpoint .health parameter) →
        ∀ out ∈ Plan.sent after rest, ∃ token, app.SignedIn request before token ∧
          out.authorization = [bearer token]) ∧
      (session = none → ∀ endpoint parameter,
        Route.target request.method request.path = .endpoint (.data endpoint) parameter →
          after = [] ∧
          rest = .done (.ok (finish request (if app.decision request none = .toSignIn
            then .redirect app.settings.signInUrl else .unauthorized))) ∧
          ∀ (other : Incoming) (endpoint' : DataEndpoint) (parameter' : String),
            other.headers = request.headers → other.method = request.method →
            app.patterns.skips other.path = app.patterns.skips request.path →
            app.patterns.classify other.path = app.patterns.classify request.path →
            Route.target other.method other.path = .endpoint (.data endpoint') parameter' →
            (app.serve other).Reaches turns rest) := by
  rw [serve_eq] at hrun
  rcases Plan.reaches_bind_iff.1 hrun with
    ⟨stop, hstop, hu, rfl⟩ | ⟨session, before, after, rfl, hs, h⟩
  · exact .inl ⟨stop, hstop, hu, rfl⟩
  · refine .inr ⟨session, before, after, rfl, hs, h, fun hhealth out hout => ?_, ?_⟩
    · have honly : (app.handle request session).OnlySends _ :=
        handle_onlySends (serveRoute_onlySends session hhealth)
      obtain ⟨s, rfl, hcaller⟩ := honly.of_sent h out hout
      have hsigned := signedIn_of_identify hs
      have hblank := isBlank_presentedToken hsigned.1
      exact ⟨s.token, hsigned, carries_bearer hbase hblank hcaller⟩
    · rintro rfl endpoint parameter htarget
      rw [handle_none hlegal htarget] at h
      obtain ⟨rfl, rfl⟩ := Plan.reaches_done_iff.1 h
      refine ⟨rfl, rfl,
        fun other endpoint' parameter' hheaders hmethod hskips hclass htarget' => ?_⟩
      have hidentify : app.identify other = app.identify request := by
        simp only [identify, resolveSession, hskips, hheaders]
      have hdecision : app.decision other none = app.decision request none := by
        simp only [decision, RoutePatterns.evaluate, hskips, hclass, Option.isSome_none,
          Bool.false_and]
      have hfinish : finish other = finish request := by
        funext response
        rw [finish_of_endpoint htarget, finish_of_endpoint htarget', hmethod]
      rw [serve_eq, hidentify]
      refine (hs.bind _).trans ?_
      rw [Plan.done_bind, handle_none hlegal htarget', hdecision, hfinish]
      exact .start

/-- A caller with the expected token in the session cookie asks for a message. -/
theorem sms_request_carries_session_token :
    let app : App := { base := "http://api.test", validator := .fixed "tok" }
    let request : Incoming :=
      { method := "GET", path := "/dashboard/sms/7", query := none,
        headers := [("cookie", Utf8.encode "__session=tok")], body := [] }
    Url.hasUserInfo app.base = false ∧
      isHeaderValue (Utf8.encode app.settings.signInUrl) = true ∧
      (app.serve request).Reaches [] (app.serve request) ∧
      (app.serve request).waiting.map (·.authorization) = [[bearer "tok"]] ∧
      ∀ out ∈ Plan.sent [] (app.serve request),
        ∃ token, app.SignedIn request [] token ∧ out.authorization = [bearer token] := by
  intro app request
  have hbase : Url.hasUserInfo app.base = false := by decide +kernel
  have hlegal : isHeaderValue (Utf8.encode app.settings.signInUrl) = true := by decide +kernel
  have hwaiting : (app.serve request).waiting.map (·.authorization) = [[bearer "tok"]] := by
    decide +kernel
  refine ⟨hbase, hlegal, .start, hwaiting, ?_⟩
  rcases handler_requests_carry_session_token hbase hlegal .start with
    ⟨stop, hstop, hu, -⟩ | ⟨session, before, after, hturns, -, -, hsent, -⟩
  · have hskips : app.patterns.skips request.path = false := by decide +kernel
    have htoken : presentedToken request.headers app.settings.sessionCookie = some "tok" := by
      decide +kernel
    have hdone : app.identify request = .done (some { token := "tok" }) := by
      simp only [identify, resolveSession, Validator.resolve, hskips, htoken]
      rfl
    rw [hdone, Plan.reaches_done_iff] at hstop
    exact absurd hu (hstop.2 ▸ id)
  · obtain ⟨rfl, rfl⟩ := List.nil_eq_append_iff.1 hturns
    have htarget : Route.target request.method request.path = .endpoint (.data .getSms) "7" := by
      decide +kernel
    refine hsent fun parameter => ?_
    rw [htarget]
    nofun

end App

end FinanceGateway
