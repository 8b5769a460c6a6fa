import FinanceGateway.Proofs.App.Access
import FinanceGateway.Proofs.Gate.Verdict

/-!
# Who is signed out

A validator that asks the backend sends one request at most, for the profile that belongs to the
token that the caller presents (`IsProfileRequest`). A session comes of it only when a profile comes
back (`Vouched`), and is that of the token. Whoever is not vouched for is signed out, whatever has
gone wrong: a guarded path leads to the sign-in page, and the session endpoint says that nobody is
signed in (`session_only_when_vouched`).
-/

namespace FinanceGateway

/-! ## The request for a profile -/

/-- A request for the profile that belongs to a token: it goes to the place of profiles below the
base, and carries the token, beside nothing but the login that the base may name. -/
structure IsProfileRequest (base token : String) (request : Outgoing) : Prop where
  method : request.method = "GET"
  url : Url.read (base ++ "/auth/user") = some (.address request.url)
  bears : bearer token ∈ request.authorization
  alone : Url.hasUserInfo base = false → request.authorization = [bearer token]

/-- A request of the profile service with a token that is not blank is one for the profile that
belongs to it. -/
theorem isProfileRequest_of_request {base path token : String} {call : Call} {request : Outgoing}
    (hcall : Service.getProfile.call = .ok call) (hpath : call.resolve = .ok path)
    (hrequest : call.request base path (some token) = .ok request)
    (hsendable : isSendable request.url = true) : IsProfileRequest base token request := by
  obtain ⟨call', hcall', hpath', hmethod, hquery, -⟩ := Service.exists_profile_call
  obtain rfl := Except.ok.inj (hcall'.symm.trans hcall)
  obtain rfl := Except.ok.inj (hpath'.symm.trans hpath)
  have halone : Url.hasUserInfo base = false → request.authorization = [bearer token] :=
    fun hbase => Service.authorization_eq hbase hcall hpath hrequest hsendable
  have hbears : bearer token ∈ request.authorization := Call.bearer_mem_of_request hrequest
  obtain ⟨payload, url, -, hurl, -, rfl⟩ := Call.request_eq_ok_iff.1 hrequest
  refine ⟨hmethod, ?_, hbears, halone⟩
  rw [hquery, Url.addQuery_nil]
  exact Url.read_of_address hurl

/-- The backend vouches for a token: these turns are a request for the profile that belongs to it,
and an answer of success with a profile. -/
def Vouched (base : String) (turns : List Turn) (token : String) : Prop :=
  ∃ request status body, turns = [.sent request (.answer status body)] ∧
    IsProfileRequest base token request ∧ Http.isSuccess status = true ∧
    ∃ profile, Call.decodeBody Profile.record.codec body = .ok profile

namespace Validator

variable {base token cookieName : String} {headers : Headers} {turns : List Turn}

/-- What a fixed provider yields when its token is not blank. -/
theorem usable_of_yields {told : Option String} (hblank : Text.isBlank token = false)
    (h : Yields (some (.fixed 0 (some token))) told) : told = some token :=
  h.trans (usable_token hblank)

/-- The question about a token that is not blank is a request for its profile, and one at most. -/
theorem validate_sends (base : String) (hblank : Text.isBlank token = false) :
    ((remote base).validate token).OnlySends (IsProfileRequest base token) ∧
      ((remote base).validate token).SendsAtMost 1 := by
  constructor
  · refine Plan.OnlySends.bind ?_ fun _ => trivial
    refine Service.execute_onlySends fun call path told request hcall hpath htold hrequest hs => ?_
    rw [usable_of_yields hblank htold] at hrequest
    exact isProfileRequest_of_request hcall hpath hrequest hs
  · obtain ⟨call, hcall, -⟩ := Service.exists_profile_call
    rw [validate, Service.execute_eq hcall]
    exact execute_sendsAtMost.bind (m := 0) fun _ => trivial

/-- To resolve a session, what is presented is asked about, once at most. -/
theorem resolve_sends (base : String) (headers : Headers) (cookieName : String) :
    ((remote base).resolve headers cookieName).OnlySends
        (fun request => ∃ token, presentedToken headers cookieName = some token ∧
          IsProfileRequest base token request) ∧
      ((remote base).resolve headers cookieName).SendsAtMost 1 := by
  rw [resolve]
  split
  · exact ⟨trivial, trivial⟩
  · next token htoken =>
    obtain ⟨honly, hmost⟩ := validate_sends base (isBlank_presentedToken htoken)
    constructor
    · refine (honly.imp fun request h => ⟨token, htoken, h⟩).bind fun judged => ?_
      cases judged <;> trivial
    · refine hmost.bind (m := 0) fun judged => ?_
      cases judged <;> trivial

/-- The call for the profile of a token ends with one exactly when the backend vouches for it. -/
theorem exists_profile_iff_vouched {result : Except ApiError Profile}
    (hblank : Text.isBlank token = false)
    (h : (Service.getProfile.execute base (some (.fixed 0 (some token)))).Reaches turns
      (.done result)) :
    (∃ profile, result = .ok profile) ↔ Vouched base turns token := by
  rw [Service.exists_ok_iff h]
  constructor
  · rintro ⟨status, body, hcame, hstatus, hbody⟩
    obtain ⟨call, hcall, hends⟩ := Service.exists_ends h
    obtain ⟨path, before, told, request, hpath, htells, hrequest, hs, rfl, -⟩ :=
      hends.exists_request hcame
    cases htells
    rw [usable_of_yields hblank rfl] at hrequest
    exact ⟨request, status, body, rfl, isProfileRequest_of_request hcall hpath hrequest hs,
      hstatus, hbody⟩
  · rintro ⟨request, status, body, rfl, -, hstatus, hbody⟩
    exact ⟨status, body, ⟨request, .head _⟩, hstatus, hbody⟩

/-- A session is resolved exactly when the backend vouches for the token that is presented, and is
that of the token. -/
theorem resolve_reaches_iff {session : Option Session}
    (h : ((remote base).resolve headers cookieName).Reaches turns (.done session)) :
    session.map (·.token) = some token ↔
      presentedToken headers cookieName = some token ∧ Vouched base turns token := by
  constructor
  · intro hsession
    obtain ⟨s, rfl, rfl⟩ := Option.map_eq_some_iff.1 hsession
    obtain ⟨htoken, hvalid⟩ := resolve_eq_some h
    obtain ⟨result, hresult, hverdict⟩ := remote_reaches_done_iff.1 hvalid
    have hprofile := exists_session_iff.1 ⟨s, hverdict.symm⟩
    exact ⟨htoken, (exists_profile_iff_vouched (isBlank_presentedToken htoken) hresult).1 hprofile⟩
  · rintro ⟨htoken, hvouched⟩
    rw [resolve, htoken] at h
    obtain ⟨judged, before, after, rfl, hvalid, h⟩ := Plan.reaches_bind_done_iff.1 h
    -- A verdict that cannot be given counts as none.
    obtain ⟨rfl, hsession⟩ : after = [] ∧ session = judged.toOption.join := by
      cases judged <;> exact (Plan.reaches_done_iff.1 h).imp_right fun h => Plan.done.inj h
    rw [List.append_nil] at hvouched
    obtain ⟨result, hresult, rfl⟩ := remote_reaches_done_iff.1 hvalid
    obtain ⟨profile, rfl⟩ :=
      (exists_profile_iff_vouched (isBlank_presentedToken htoken) hresult).2 hvouched
    rw [hsession]
    rfl

end Validator

namespace App

variable {app : App} {request : Incoming} {base : String} {turns : List Turn}

/-- The backend vouches at the start of these turns for the token that a request presents. -/
def VouchedFirst (app : App) (base : String) (request : Incoming) (turns : List Turn) : Prop :=
  ∃ before after token, turns = before ++ after ∧
    presentedToken request.headers app.settings.sessionCookie = some token ∧
    Vouched base before token

/-! ## Signed out -/

/-- A request for which nobody vouches is handled without a session. -/
theorem handle_of_not_vouched (hremote : app.validator = .remote base)
    {outcome : Except Abort Response} (h : (app.serve request).Reaches turns (.done outcome))
    (hnone : ¬ app.VouchedFirst base request turns) :
    ∃ after, (app.handle request none).Reaches after (.done outcome) := by
  rw [serve_eq] at h
  obtain ⟨session, before, after, rfl, hidentify, h⟩ := Plan.reaches_bind_done_iff.1 h
  cases session with
  | none => exact ⟨after, h⟩
  | some s =>
    unfold identify at hidentify
    split at hidentify
    · cases (Plan.reaches_done_iff.1 hidentify).2
    · rw [resolveSession, hremote] at hidentify
      obtain ⟨htoken, hvouched⟩ := (Validator.resolve_reaches_iff hidentify).1 rfl
      exact absurd ⟨before, after, s.token, rfl, htoken, hvouched⟩ hnone

/-- What is finished keeps its status, its content and its location. -/
theorem finish_eq (request : Incoming) (response : Response) :
    (finish request response).status = response.status ∧
      (finish request response).content = response.content ∧
      (finish request response).location = response.location := by
  unfold finish
  cases (Route.target request.method request.path).advertised? <;>
    cases request.method == "HEAD" <;> exact ⟨rfl, rfl, rfl⟩

/-- Without a session a guarded path leads to the sign-in page. -/
theorem handle_guarded (hlegal : isHeaderValue (Utf8.encode app.settings.signInUrl) = true)
    (hguarded : app.patterns.classify request.path = .guarded) :
    app.handle request none = .done (.ok (finish request (.redirect app.settings.signInUrl))) := by
  have hdecision : app.decision request none = .toSignIn := by
    simp [decision, RoutePatterns.skips, RoutePatterns.evaluate, hguarded]
  rw [handle, hdecision]
  simp only [decide, redirectTo, hlegal]
  rfl

/-- Without a session the session endpoint says that nobody is signed in. -/
theorem handle_session (hpatterns : app.patterns = {}) (hmethod : request.method = "GET")
    (hpath : request.path = "/api/session") :
    app.handle request none = .done (.ok (.json 200 (app.sessionInfo none))) := by
  have hdecision : app.decision request none = .allow := by
    rw [decision, hpatterns, hpath]
    decide +kernel
  have htarget : Route.target request.method request.path = .endpoint .session "" := by
    rw [hmethod, hpath]
    decide +kernel
  have hfinish (response : Response) : finish request response = response := by
    rw [finish_of_endpoint htarget, hmethod]
    rfl
  simp only [handle, hdecision, decide, serveRoute, htarget, serveEndpoint, Plan.done_bind,
    Except.map, hfinish]

/-- To resolve the session of a request, one request at most is sent, and only when a token is
presented: the one for the profile that belongs to it. There is a session exactly when the answer to
it is a success with a profile, and it is that of the token. Whatever comes back otherwise, if
anything does, the request is handled for someone who is signed out: at a guarded path it is
redirected to the sign-in page, and the session endpoint answers that nobody is signed in. -/
theorem session_only_when_vouched (hremote : app.validator = .remote base) (request : Incoming) :
    (∀ outside : Plan.Outside Id, ∃ turns, (∀ turn ∈ turns, turn.IsGivenBy outside) ∧
      (app.serve request).Reaches turns (.done (Id.run ((app.serve request).run outside)))) ∧
    (∀ turns rest, (app.resolveSession request).Reaches turns rest →
      (Plan.sent turns rest).length ≤ 1 ∧
      ∀ out ∈ Plan.sent turns rest, ∃ token,
        presentedToken request.headers app.settings.sessionCookie = some token ∧
        IsProfileRequest base token out) ∧
    (∀ turns session, (app.resolveSession request).Reaches turns (.done session) →
      ∀ token, session.map (·.token) = some token ↔
        presentedToken request.headers app.settings.sessionCookie = some token ∧
        Vouched base turns token) ∧
    ∀ turns outcome, (app.serve request).Reaches turns (.done outcome) →
      ¬ app.VouchedFirst base request turns →
      (∃ after, (app.handle request none).Reaches after (.done outcome)) ∧
      (app.settings = {} → app.patterns.classify request.path = .guarded →
        ∃ response, outcome = .ok response ∧ response.status = 307 ∧
          response.location = some "/sign-in") ∧
      (app.patterns = {} → request.method = "GET" → request.path = "/api/session" →
        ∃ info, outcome = .ok (.json 200 info) ∧
          info.get? "authenticated" = some (.bool false)) := by
  have hresolve : app.resolveSession request =
      (Validator.remote base).resolve request.headers app.settings.sessionCookie := by
    rw [resolveSession, hremote]
  obtain ⟨honly, hmost⟩ :=
    Validator.resolve_sends base request.headers app.settings.sessionCookie
  refine ⟨fun outside => Plan.reaches_run outside _, fun turns rest h => ?_,
    fun turns session h token => ?_, fun turns outcome h hnone => ?_⟩
  · rw [hresolve] at h
    exact ⟨hmost.length_sent h, honly.of_sent h⟩
  · rw [hresolve] at h
    exact Validator.resolve_reaches_iff h
  · obtain ⟨after, hhandle⟩ := handle_of_not_vouched hremote h hnone
    refine ⟨⟨after, hhandle⟩, fun hsettings hguarded => ?_, fun hpatterns hmethod hpath => ?_⟩
    · rw [handle_guarded (by rw [hsettings]; decide +kernel) hguarded] at hhandle
      obtain ⟨hstatus, -, hlocation⟩ := finish_eq request (.redirect app.settings.signInUrl)
      refine ⟨_, Plan.done.inj (Plan.reaches_done_iff.1 hhandle).2, hstatus, ?_⟩
      rw [hlocation, hsettings]
      rfl
    · rw [handle_session hpatterns hmethod hpath] at hhandle
      exact ⟨_, Plan.done.inj (Plan.reaches_done_iff.1 hhandle).2, rfl⟩

/-- A blank answer of success signs nobody in: whoever asks for the overview is sent to sign in. -/
theorem blank_success_signs_nobody_in :
    let app : App := { base := "http://backend.test", validator := .remote "http://backend.test" }
    let request : Incoming :=
      { method := "GET", path := "/dashboard", query := none,
        headers := [("cookie", Utf8.encode "__session=tok")], body := [] }
    let outside : Plan.Outside Id := ⟨fun _ => .anonymous, fun _ => .answer 200 []⟩
    (app.resolveSession request).waiting.map (·.authorization) = [[bearer "tok"]] ∧
      ∃ turns outcome response, (app.serve request).Reaches turns (.done outcome) ∧
        (∀ turn ∈ turns, turn.IsGivenBy outside) ∧
        ¬ app.VouchedFirst "http://backend.test" request turns ∧
        outcome = .ok response ∧ response.status = 307 ∧ response.location = some "/sign-in" := by
  intro app request outside
  have hwaiting : (app.resolveSession request).waiting.map (·.authorization) =
      [[bearer "tok"]] := by
    decide +kernel
  obtain ⟨hanswers, -, -, hserved⟩ :=
    session_only_when_vouched (rfl : app.validator = .remote "http://backend.test") request
  obtain ⟨turns, hgiven, h⟩ := hanswers outside
  have hnone : ¬ app.VouchedFirst "http://backend.test" request turns := by
    rintro ⟨before, after, token, rfl, -, out, status, body, rfl, -, -, profile, hprofile⟩
    obtain ⟨-, rfl⟩ : status = 200 ∧ body = [] := by
      simpa [Turn.IsGivenBy, outside] using hgiven _ (List.mem_append_left _ (.head _))
    have hblank : (Call.decodeBody Profile.record.codec []).isOk = false := by decide +kernel
    rw [hprofile] at hblank
    cases hblank
  obtain ⟨-, hguarded, -⟩ := hserved turns _ h hnone
  obtain ⟨response, hresponse, hstatus, hlocation⟩ := hguarded rfl (by decide +kernel)
  exact ⟨hwaiting, turns, _, response, h, hgiven, hnone, hresponse, hstatus, hlocation⟩

end App

end FinanceGateway
