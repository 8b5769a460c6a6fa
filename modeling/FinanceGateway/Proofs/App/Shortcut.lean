import FinanceGateway.Proofs.App.Access
import FinanceGateway.Proofs.App.Routing
import FinanceGateway.Proofs.Gate.Patterns

/-!
# The shortcut for static assets

A guard without the shortcut resolves the session of every request (`App.serveUnskipped`). The
shortcut is taken only where such a guard would let the request pass whoever sent it
(`RoutePatterns.evaluate_of_skips`), and never for the session endpoint or the health check
(`App.data_of_skips`). So it shows in nothing but the requests for data that a session would have
been resolved for: `App.shortcut_drops_only_sessions_for_data`. Where a prefix of the dashboard is
listed, there are none of them (`App.not_skipsToData_of_listed`).
-/

namespace FinanceGateway

namespace Plan

variable {α β : Type}

/-- The requests that a plan sends to an outside whose replies depend on nothing else, in their
order. -/
def requestsTo (outside : Outside Id) : Plan α → List Outgoing
  | done _ => []
  | ask provider next => (next (outside.token provider)).requestsTo outside
  | send request next => request :: (next (outside.reply request)).requestsTo outside
  | sendAll requests next => requests ++ (next (replies outside 0 requests)).requestsTo outside

/-- The end of a sequence of two plans is that of the second, from where the first ends. -/
theorem run_bind (outside : Outside Id) (plan : Plan α) (f : α → Plan β) :
    Id.run ((plan.bind f).run outside) = Id.run ((f (Id.run (plan.run outside))).run outside) := by
  induction plan with
  | done value => rfl
  | ask provider next ih => exact ih (outside.token provider)
  | send request next ih => exact ih (outside.reply request)
  | sendAll requests next ih => exact ih (replies outside 0 requests)

/-- A plan that only gives a result after another sends nothing more. -/
theorem requestsTo_bind_done (outside : Outside Id) (plan : Plan α) (f : α → β) :
    (plan.bind fun value => done (f value)).requestsTo outside = plan.requestsTo outside := by
  induction plan with
  | done value => rfl
  | ask provider next ih => exact ih (outside.token provider)
  | send request next ih => exact congrArg (request :: ·) (ih (outside.reply request))
  | sendAll requests next ih => exact congrArg (requests ++ ·) (ih (replies outside 0 requests))

end Plan

namespace App

variable {app : App} {request : Incoming}

/-! ## A guard without the shortcut -/

/-- Serves a request with a guard that resolves the session of every request. -/
def serveUnskipped (app : App) (request : Incoming) : Plan (Except Abort Response) :=
  (app.serveGuarded request).bind fun outcome => .done (outcome.map (finish request))

/-- What follows, without the shortcut, when the session is resolved. -/
def handleUnskipped (app : App) (request : Incoming) (session : Option Session) :
    Plan (Except Abort Response) :=
  (app.decide session request (app.patterns.evaluate request.path session.isSome)).bind
    fun outcome => .done (outcome.map (finish request))

/-- Without the shortcut the session is resolved, and the request handled with it. -/
theorem serveUnskipped_eq (app : App) (request : Incoming) :
    app.serveUnskipped request =
      (app.resolveSession request).bind (app.handleUnskipped request) := by
  rw [serveUnskipped, serveGuarded, Plan.bind_assoc]
  rfl

/-! ## Where the shortcut is taken -/

/-- Where the shortcut is taken, no endpoint answers but those for data. -/
theorem data_of_skips {endpoint : Endpoint} {parameter : String}
    (hskips : app.patterns.skips request.path = true)
    (htarget : Route.target request.method request.path = .endpoint endpoint parameter) :
    ∃ data, endpoint = .data data := by
  have hasset : isStaticAsset request.path = true := (Bool.and_eq_true_iff.1 hskips).1
  cases endpoint with
  | data endpoint => exact ⟨endpoint, rfl⟩
  | session =>
    rw [Route.path_of_session htarget] at hasset
    exact absurd hasset (by decide)
  | health =>
    rw [Route.path_of_health htarget] at hasset
    exact absurd hasset (by decide)

/-- A request for data leads, in the shortcut, past the resolution of its session. -/
def SkipsToData (app : App) (request : Incoming) (endpoint : DataEndpoint) (parameter : String) :
    Prop :=
  app.patterns.skips request.path = true ∧
    Route.target request.method request.path = .endpoint (.data endpoint) parameter

/-- Where the shortcut is not taken, nothing differs. -/
theorem handleUnskipped_eq_handle (hskips : app.patterns.skips request.path = false)
    (session : Option Session) :
    app.handleUnskipped request session = app.handle request session := by
  simp only [handleUnskipped, handle, decision, hskips, Bool.false_eq_true, if_false]

/-- Where the shortcut leads to no data, or no session is there to be dropped, the handler does
what it does without the shortcut. -/
theorem handleUnskipped_of_skips {session : Option Session}
    (hskips : app.patterns.skips request.path = true)
    (h : session = none ∨ ∀ endpoint parameter, ¬ app.SkipsToData request endpoint parameter) :
    app.handleUnskipped request session = app.handle request none := by
  have hroute : app.serveRoute session request = app.serveRoute none request := by
    rcases h with rfl | hdata
    · rfl
    · unfold serveRoute
      split
      · rfl
      · rfl
      · next endpoint parameter htarget =>
        obtain ⟨data, rfl⟩ := data_of_skips hskips htarget
        exact absurd ⟨hskips, htarget⟩ (hdata data parameter)
  simp only [handleUnskipped, handle, decision, hskips, RoutePatterns.evaluate_of_skips hskips,
    decide, hroute, if_true]

/-- Without the shortcut, a request for data is handled with the session. -/
theorem handleUnskipped_some {endpoint : DataEndpoint} {parameter : String}
    (h : app.SkipsToData request endpoint parameter) (session : Session) :
    app.handleUnskipped request (some session) =
      (app.serveData session.token parameter request endpoint).bind fun response =>
        .done (.ok (finish request response)) := by
  rw [handleUnskipped, RoutePatterns.evaluate_of_skips h.1, decide, Plan.bind_assoc, serveRoute,
    h.2]
  rfl

/-- With the shortcut, a request for data is turned away. -/
theorem handle_of_skipsToData {endpoint : DataEndpoint} {parameter : String}
    (h : app.SkipsToData request endpoint parameter) :
    app.handle request none = .done (.ok (finish request .unauthorized)) := by
  simp only [handle, decision, h.1, if_true, decide, serveRoute, h.2]
  rfl

/-- Where a prefix of the dashboard is listed, the shortcut leads to no data. -/
theorem not_skipsToData_of_listed {listed : String}
    (hlisted : listed ∈ app.patterns.publicOnly ++ app.patterns.guarded)
    (hstart : startsWith "/dashboard" listed = true) (endpoint : DataEndpoint)
    (parameter : String) : ¬ app.SkipsToData request endpoint parameter := by
  rintro ⟨hskips, htarget⟩
  obtain ⟨hasset, hpublic, hguarded⟩ := RoutePatterns.skips_iff.1 hskips
  obtain ⟨rest, hsegments⟩ := Route.segments_of_data htarget
  rcases Route.slashed_segments_or request.path with hpath | hsingle
  · -- A path below the dashboard starts with what the dashboard starts with.
    have hunder : startsWith request.path listed = true := by
      refine startsWith_trans (startsWith_iff.2 ?_) hstart
      rw [← hpath, hsegments, Url.slashed_cons]
      exact List.prefix_append _ _
    rcases List.mem_append.1 hlisted with hmem | hmem
    · exact Bool.eq_false_iff.1 hpublic (isUnder_iff.2 ⟨listed, hmem, hunder⟩)
    · exact Bool.eq_false_iff.1 hguarded (isUnder_iff.2 ⟨listed, hmem, hunder⟩)
  · rw [hsingle] at hsegments
    rw [(List.cons.inj hsegments).1] at hasset
    exact absurd hasset (by decide)

/-! ## With the shortcut and without it -/

/-- The session with which a request goes on to its handler, where the outside is as given. -/
def identified (app : App) (outside : Plan.Outside Id) (request : Incoming) : Option Session :=
  Id.run ((app.identify request).run outside)

/-- The session of a request, where the outside is as given. -/
def sessionOf (app : App) (outside : Plan.Outside Id) (request : Incoming) : Option Session :=
  Id.run ((app.resolveSession request).run outside)

/-- Response and requests are the same with the shortcut and without it, unless it leads to data
past a session that would have been resolved. There the caller is told to be unauthorized and
nothing is sent, where without the shortcut the data is served to the session's caller. -/
theorem shortcut_drops_only_sessions_for_data (app : App) (request : Incoming)
    (outside : Plan.Outside Id) :
    ((app.sessionOf outside request = none ∨
        ∀ endpoint parameter, ¬ app.SkipsToData request endpoint parameter) →
      Id.run ((app.serve request).run outside) =
          Id.run ((app.serveUnskipped request).run outside) ∧
        (app.handle request (app.identified outside request)).requestsTo outside =
          (app.handleUnskipped request (app.sessionOf outside request)).requestsTo outside) ∧
    ∀ session endpoint parameter, app.sessionOf outside request = some session →
      app.SkipsToData request endpoint parameter →
        Id.run ((app.serve request).run outside) = .ok (finish request .unauthorized) ∧
        (app.handle request (app.identified outside request)).requestsTo outside = [] ∧
        Id.run ((app.serveUnskipped request).run outside) =
          .ok (finish request (Id.run
            ((app.serveData session.token parameter request endpoint).run outside))) ∧
        (app.handleUnskipped request (app.sessionOf outside request)).requestsTo outside =
          (app.serveData session.token parameter request endpoint).requestsTo outside := by
  have hserve : Id.run ((app.serve request).run outside) =
      Id.run ((app.handle request (app.identified outside request)).run outside) := by
    rw [serve_eq, Plan.run_bind, identified]
  have hunskipped : Id.run ((app.serveUnskipped request).run outside) =
      Id.run ((app.handleUnskipped request (app.sessionOf outside request)).run outside) := by
    rw [serveUnskipped_eq, Plan.run_bind, sessionOf]
  refine ⟨fun h => ?_, fun session endpoint parameter hsession hdata => ?_⟩
  · have hhandle : app.handleUnskipped request (app.sessionOf outside request) =
        app.handle request (app.identified outside request) := by
      cases hskips : app.patterns.skips request.path with
      | false =>
        rw [handleUnskipped_eq_handle hskips, identified, identify, hskips]
        rfl
      | true =>
        rw [handleUnskipped_of_skips hskips h, identified, identify, hskips]
        rfl
    rw [hserve, hunskipped, hhandle]
    exact ⟨rfl, rfl⟩
  · have hidentified : app.identified outside request = none := by
      rw [identified, identify, hdata.1]
      rfl
    rw [hserve, hunskipped, hidentified, hsession, handle_of_skipsToData hdata,
      handleUnskipped_some hdata]
    exact ⟨rfl, rfl, Plan.run_bind .., Plan.requestsTo_bind_done ..⟩

/-- A caller with the expected token asks for a message whose id ends like the name of an image,
where no prefix is listed and the backend cannot be reached. -/
theorem asset_like_id_loses_its_session :
    let app : App :=
      { base := "http://down.test", patterns := { publicOnly := [], guarded := [] },
        validator := .fixed "tok" }
    let request : Incoming :=
      { method := "GET", path := "/dashboard/sms/receipt.png", query := none,
        headers := [("cookie", Utf8.encode "__session=tok")], body := [] }
    let outside : Plan.Outside Id := ⟨fun _ => .anonymous, fun _ => .unreached⟩
    Id.run ((app.serve request).run outside) ≠ Id.run ((app.serveUnskipped request).run outside) ∧
      (Id.run ((app.serve request).run outside)).map (·.status) = .ok 401 ∧
      (Id.run ((app.serveUnskipped request).run outside)).map (·.status) = .ok 500 ∧
      (app.handle request (app.identified outside request)).requestsTo outside = [] ∧
      ((app.handleUnskipped request (app.sessionOf outside request)).requestsTo outside).map
        (·.url.text) = ["http://down.test/sms/receipt.png"] := by
  intro app request outside
  have hstatuses : (Id.run ((app.serve request).run outside)).map (·.status) = .ok 401 ∧
      (Id.run ((app.serveUnskipped request).run outside)).map (·.status) = .ok 500 := by
    decide +kernel
  refine ⟨fun hsame => ?_, hstatuses.1, hstatuses.2, by decide +kernel, by decide +kernel⟩
  rw [hsame, hstatuses.2] at hstatuses
  cases hstatuses.1

/-- The same request where the dashboard is guarded, and where it is not. -/
theorem guarded_dashboard_keeps_sessions :
    let request : Incoming :=
      { method := "GET", path := "/dashboard/sms/receipt.png", query := none,
        headers := [("cookie", Utf8.encode "__session=tok")], body := [] }
    let outside : Plan.Outside Id := ⟨fun _ => .anonymous, fun _ => .unreached⟩
    let app : App := { base := "http://down.test", validator := .fixed "tok" }
    let unguarded : App := { app with patterns := { publicOnly := [], guarded := [] } }
    Id.run ((app.serve request).run outside) = Id.run ((app.serveUnskipped request).run outside) ∧
      Id.run ((unguarded.serve request).run outside) = .ok .unauthorized := by
  intro request outside app unguarded
  have hnone : ∀ endpoint parameter, ¬ app.SkipsToData request endpoint parameter :=
    not_skipsToData_of_listed (show "/dashboard" ∈ _ by decide) (by decide)
  have hdata : unguarded.SkipsToData request .getSms "receipt.png" :=
    ⟨by decide, by decide⟩
  have hsession : unguarded.sessionOf outside request = some { token := "tok" } := by
    decide
  refine ⟨((shortcut_drops_only_sessions_for_data app request outside).1 (.inr hnone)).1, ?_⟩
  have hserved := ((shortcut_drops_only_sessions_for_data unguarded request outside).2
    _ _ _ hsession hdata).1
  rw [hserved, finish_of_endpoint hdata.2]
  rfl

end App

end FinanceGateway
