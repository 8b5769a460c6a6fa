import FinanceGateway.Proofs.App.Access
import FinanceGateway.Proofs.App.Routing
import FinanceGateway.Proofs.Call.Landing

/-!
# Where requests about one thing go

A request about one thing goes to the segment of its id below the literal segments of its template,
whether a service is called or a caller names the id in a path of the application. It does so for
every id but one dot and two: these get no codes, and are resolved away when base and path are read
as one address (`ids_reach_their_thing_unless_dots`).
-/

namespace FinanceGateway

open Url

/-! ## Services -/

namespace Service

variable {s : Service} {id : String}

/-- The call of a service about one thing has no query, and always a payload. -/
theorem payload_of_id {call : Call} (hid : s.place.id = some id) (hcall : s.call = .ok call) :
    call.queryPairs = [] ∧ ∃ payload, call.payload = .ok payload := by
  cases s with
  | getAccount | getGoal | updateGoal | getSms =>
    cases hcall
    exact ⟨rfl, _, rfl⟩
  | _ => cases hid

/-- A request about one thing goes to where its place leads. -/
theorem url_of_request (b : Base) (hid : s.place.id = some id) {call : Call} {path : String}
    {token : Option String} {out : Outgoing} (hcall : s.call = .ok call)
    (hpath : call.resolve = .ok path) (hout : call.request b.text path token = .ok out) :
    out.url = b.below s.place.landing := by
  obtain ⟨payload, url, -, hurl, -, rfl⟩ := Call.request_eq_ok_iff.1 hout
  rw [address_eq b hcall hpath] at hurl
  cases hurl
  rw [(payload_of_id hid hcall).1, addQuery_nil]

/-- Whatever a service about one thing sends goes to where its place leads. -/
theorem execute_lands (b : Base) (hid : s.place.id = some id) (provider : Option Provider) :
    (s.execute b.text provider).OnlySends fun out => out.url = b.below s.place.landing :=
  execute_onlySends fun _ _ _ _ hcall hpath _ hout _ => url_of_request b hid hcall hpath hout

/-- With a legal token, or none, a service about one thing sends a request. -/
theorem exists_sent (b : Base) (hid : s.place.id = some id) {provider : Option Provider}
    {token : Option String} (htoken : Yields provider token)
    (hlegal : ∀ t, token = some t → isHeaderValue (bearer t) = true) :
    ∃ turns rest, (s.execute b.text provider).Reaches turns rest ∧
      (Plan.sent turns rest).map (·.url) = [b.below s.place.landing] := by
  obtain ⟨call, hcall, -, -⟩ := s.exists_call
  have hpath := resolve_eq hcall
  obtain ⟨-, payload, hpayload⟩ := payload_of_id hid hcall
  obtain ⟨out, hout⟩ : ∃ out, call.request b.text _ token = .ok out :=
    ⟨_, Call.request_eq_ok_iff.2 ⟨payload, _, hpayload, address_eq b hcall hpath, hlegal, rfl⟩⟩
  have hurl := url_of_request b hid hcall hpath hout
  have hsendable : isSendable out.url = true := by
    rw [hurl]
    rcases b.http with h | h <;> simp [isSendable, Base.below, h]
  obtain ⟨turns, rest, hreaches, hsent⟩ := execute_sends s.codec hpath htoken hout hsendable
  refine ⟨turns, rest, ?_, by rw [hsent, List.map_singleton, hurl]⟩
  rw [Service.execute, hcall]
  exact hreaches

end Service

/-! ## Routes -/

/-- The kind of thing that an endpoint takes the id of from the path. -/
def DataEndpoint.kind? : DataEndpoint → Option (List String)
  | .getAccount => some ["api", "v1", "account"]
  | .getSms => some ["sms"]
  | .getGoal | .updateGoal => some ["investment", "goal"]
  | _ => none

/-- Whether an endpoint takes an id from the path. -/
def Endpoint.takesId : Endpoint → Bool
  | .data endpoint => endpoint.kind?.isSome
  | _ => false

namespace Route

/-- Whether a segment of a pattern stands for a parameter. -/
def isParameter : PatternSegment → Bool
  | .parameter _ => true
  | .literal _ => false

/-- The value of a parameter is not empty. -/
theorem parameter_ne_empty {pattern : List PatternSegment} {segments : List String}
    {parameter : String} (hpattern : pattern.any isParameter = true)
    (h : matches? pattern segments = some parameter) : parameter ≠ "" := by
  induction pattern generalizing segments parameter with
  | nil => cases hpattern
  | cons piece pattern ih =>
    cases segments with
    | nil => cases piece <;> cases h
    | cons segment segments =>
      cases piece with
      | literal text =>
        rw [matches?] at h
        split at h
        · exact ih (by simpa [isParameter] using hpattern) h
        · cases h
      | parameter name =>
        rw [matches?] at h
        split at h
        · cases h
        · next hne =>
          obtain ⟨-, -, rfl⟩ := Option.map_eq_some_iff.1 h
          simpa using hne

/-- An endpoint that takes an id gets one that is not empty. -/
theorem parameter_ne_empty_of_target {method path parameter : String} {endpoint : Endpoint}
    (h : target method path = .endpoint endpoint parameter) (hid : endpoint.takesId = true) :
    parameter ≠ "" := by
  have hall : ∀ r ∈ all, r.methods.any (fun m => m.2.takesId) = true →
      r.pattern.any isParameter = true := by decide
  obtain ⟨route, hroute, ⟨m, hm, rfl⟩, hmatch⟩ := exists_route_of_target h
  exact parameter_ne_empty (hall route hroute (List.any_eq_true.2 ⟨m, hm, hid⟩)) hmatch

end Route

/-! ## Handlers -/

namespace App

variable {app : App} {token parameter : String} {request : Incoming} {kind : List String}

theorem taking_parameter_onlySends {sends : Outgoing → Prop} {name : String}
    {next : String → Plan Response}
    (h : ∀ id, Percent.decodeText? parameter = some id → (next id).OnlySends sends) :
    (taking (extractParameter name parameter) next).OnlySends sends := by
  unfold extractParameter
  split
  · next id hid => exact h id hid
  · trivial

/-- Whatever an endpoint sends about the thing that its path parameter names goes to where the
place of that thing leads. -/
theorem serveData_lands (b : Base) (hbase : app.base = b.text) {endpoint : DataEndpoint}
    (hkind : endpoint.kind? = some kind) :
    (app.serveData token parameter request endpoint).OnlySends fun out =>
      ∃ id, Percent.decodeText? parameter = some id ∧
        out.url = b.below (Place.landing ⟨kind, some id⟩) := by
  have hrelay {s : Service} {id : String} (hplace : s.place = ⟨kind, some id⟩)
      (hid : Percent.decodeText? parameter = some id) :
      (app.relay (caller token) 200 s).OnlySends fun out =>
        ∃ id, Percent.decodeText? parameter = some id ∧
          out.url = b.below (Place.landing ⟨kind, some id⟩) := by
    refine relay_onlySends 200 ?_
    rw [hbase]
    refine (Service.execute_lands b (by rw [hplace]) (caller token)).imp fun out hout => ?_
    exact ⟨id, hid, by rw [← hplace]; exact hout⟩
  cases endpoint with
  | getAccount | getSms | getGoal =>
    cases hkind
    exact taking_parameter_onlySends fun id hid => hrelay rfl hid
  | updateGoal =>
    cases hkind
    exact taking_parameter_onlySends fun id hid => taking_onlySends fun _ => hrelay rfl hid
  | _ => cases hkind

/-- A caller who names a thing in the path makes the application send to where the place of that
thing leads, and nowhere else. -/
theorem handle_lands (b : Base) (hbase : app.base = b.text) {endpoint : DataEndpoint}
    (htarget : Route.target request.method request.path = .endpoint (.data endpoint) parameter)
    (hkind : endpoint.kind? = some kind) (session : Option Session) :
    (app.handle request session).OnlySends fun out =>
      ∃ id, Percent.decodeText? parameter = some id ∧ id ≠ "" ∧
        out.url = b.below (Place.landing ⟨kind, some id⟩) := by
  have hparameter : parameter ≠ "" :=
    Route.parameter_ne_empty_of_target htarget (by rw [Endpoint.takesId, hkind]; rfl)
  refine handle_onlySends ?_
  rw [serveRoute, htarget]
  cases session with
  | none => trivial
  | some s =>
    refine (serveData_lands b hbase hkind).imp fun out hout => ?_
    obtain ⟨id, hid, hout⟩ := hout
    exact ⟨id, hid, Percent.ne_empty_of_decodeText? hparameter hid, hout⟩

end App

/-! ## The whole contract -/

/-- Below a base, a service about a thing with an id sends its request, and whatever it sends goes
to one address: that of the thing exactly when its id is neither one dot nor two. What is asked of
the server there is asked for no other place of a service. A caller who names the thing in a path of
the application reaches the same address. -/
theorem ids_reach_their_thing_unless_dots (b : Base) :
    (∀ (s : Service) (kind : List String) (id : String),
      s.place = ⟨kind, some id⟩ → id ≠ "" →
        (∀ provider token, Yields provider token →
          (∀ t, token = some t → isHeaderValue (bearer t) = true) →
          ∃ turns rest, (s.execute b.text provider).Reaches turns rest ∧
            (Plan.sent turns rest).map (·.url) = [b.below s.place.landing]) ∧
        (∀ provider, (s.execute b.text provider).OnlySends fun out =>
          out.url = b.below s.place.landing) ∧
        (b.IsAddressOf kind id (b.below s.place.landing) ↔ id ≠ "." ∧ id ≠ "..") ∧
        ∀ other : Service, other.place.id ≠ some "" →
          (b.below other.place.landing).target = (b.below s.place.landing).target →
          other.place = s.place) ∧
    ∀ (app : App) (request : Incoming) (session : Option Session) (endpoint : DataEndpoint)
      (parameter : String) (kind : List String), app.base = b.text →
        Route.target request.method request.path = .endpoint (.data endpoint) parameter →
        endpoint.kind? = some kind →
        (app.handle request session).OnlySends fun out =>
          ∃ id, Percent.decodeText? parameter = some id ∧ id ≠ "" ∧
            out.url = b.below (Place.landing ⟨kind, some id⟩) := by
  refine ⟨fun s kind id hplace hne => ⟨fun provider token htoken hlegal => ?_, fun provider => ?_,
    ?_, fun other hother htarget => ?_⟩,
    fun app request session endpoint parameter kind hbase htarget hkind => ?_⟩
  · exact Service.exists_sent b (by rw [hplace]) htoken hlegal
  · exact Service.execute_lands b (by rw [hplace]) provider
  · have hkind : kind ≠ [] := by
      have := s.isLiteral_place.1
      rwa [hplace] at this
    rw [hplace]
    exact b.isAddressOf_landing_iff hkind id
  · rw [b.target_below other.isLiteral_place.landing_ne_nil,
      b.target_below s.isLiteral_place.landing_ne_nil] at htarget
    exact Service.place_eq_of_path_eq b hother (by simp [hplace, hne]) htarget
  · exact App.handle_lands b hbase htarget hkind session

/-- A slash in an id stays in the segment of the id, for a service and for a caller. -/
theorem slash_stays_in_its_segment :
    let app : App := { base := "http://backend.test/api", validator := .fixed "tok" }
    let request : Incoming :=
      { method := "GET", path := "/dashboard/sms/a%2Fb", query := none, headers := [], body := [] }
    ∃ b : Base, b.text = app.base ∧
      (b.below (Service.getSms "a/b").place.landing).target = "/api/sms/a%2Fb" ∧
      b.IsAddressOf ["sms"] "a/b" (b.below (Service.getSms "a/b").place.landing) ∧
      (∃ turns rest, ((Service.getSms "a/b").execute b.text none).Reaches turns rest ∧
        (Plan.sent turns rest).map (·.url) = [b.below (Service.getSms "a/b").place.landing]) ∧
      Route.target request.method request.path = .endpoint (.data .getSms) "a%2Fb" ∧
      (app.handle request (some { token := "tok" })).OnlySends fun out =>
        ∃ id, Percent.decodeText? "a%2Fb" = some id ∧ id ≠ "" ∧
          out.url = b.below (Place.landing ⟨["sms"], some id⟩) := by
  intro app request
  let host : Base := .ofHost "http" "backend.test"
    { scheme := "http", login := none, host := "backend.test", port := none, segments := [""],
      query := none, fragment := none }
    (.inl rfl) (by decide +kernel) (by decide +kernel) (by decide +kernel)
  let b : Base := host.extend ["api"] (by decide +kernel) (by decide) (by decide +kernel)
  have hbase : b.text = app.base := by decide +kernel
  have htarget : Route.target request.method request.path = .endpoint (.data .getSms) "a%2Fb" := by
    decide +kernel
  obtain ⟨hservices, hcallers⟩ := ids_reach_their_thing_unless_dots b
  obtain ⟨hsent, -, haddress, -⟩ := hservices (.getSms "a/b") ["sms"] "a/b" rfl (by decide)
  exact ⟨b, hbase, by decide +kernel, haddress.2 ⟨by decide, by decide⟩,
    hsent none none rfl (by simp), htarget,
    hcallers app request _ .getSms "a%2Fb" ["sms"] hbase.symm htarget rfl⟩

/-- Two dots as the id of a message ask for the root of the server. -/
theorem dots_leave_their_kind :
    ∃ b : Base, b.text = "http://backend.test" ∧
      ((Service.getSms "..").execute b.text none).waiting.map (·.url.target) = ["/"] ∧
      ∀ out ∈ ((Service.getSms "..").execute b.text none).waiting,
        ¬ b.IsAddressOf ["sms"] ".." out.url := by
  let b : Base := .ofHost "http" "backend.test"
    { scheme := "http", login := none, host := "backend.test", port := none, segments := [""],
      query := none, fragment := none }
    (.inl rfl) (by decide +kernel) (by decide +kernel) (by decide +kernel)
  refine ⟨b, by decide +kernel, by decide +kernel, fun out hout => ?_⟩
  have hurl : out.url = b.below (Service.getSms "..").place.landing :=
    (Service.execute_lands b rfl none).of_sent .start out hout
  rw [hurl]
  exact fun haddress =>
    ((b.isAddressOf_landing_iff (List.cons_ne_nil "sms" []) "..").1 haddress).2 rfl

end FinanceGateway
