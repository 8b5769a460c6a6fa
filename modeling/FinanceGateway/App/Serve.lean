import FinanceGateway.App.Handler

/-!
# Serving a request

Every request meets the guard first: a path that looks like a static asset passes, for any other the
session is resolved and the guard decides. A redirect needs a location that is a legal header value;
with any other the request cannot be answered. Whatever the guard decides, a request whose path
lacks its method is told the methods that the path has.
-/

namespace FinanceGateway.App

/-- Why a request cannot be answered. -/
inductive Abort
  | illegalLocation (location : String)
  deriving Repr, DecidableEq

/-- The redirect to a location. -/
def redirectTo (location : String) : Except Abort Response :=
  if isHeaderValue (Utf8.encode location) then .ok (.redirect location)
  else .error (.illegalLocation location)

/-- What follows from the guard's decision. -/
def decide (app : App) (session : Option Session) (request : Incoming) :
    Decision → Plan (Except Abort Response)
  | .allow => (app.serveRoute session request).bind fun response => .done (.ok response)
  | .toDashboard => .done (redirectTo app.settings.dashboardPath)
  | .toSignIn => .done (redirectTo app.settings.signInUrl)

/-- The session of a request. -/
def resolveSession (app : App) (request : Incoming) : Plan (Option Session) :=
  app.validator.resolve request.headers app.settings.sessionCookie

/-- Serves a request whose session has to be resolved. -/
def serveGuarded (app : App) (request : Incoming) : Plan (Except Abort Response) :=
  (app.resolveSession request).bind fun session =>
    app.decide session request (app.patterns.evaluate request.path session.isSome)

/-- A response as it goes out: a method that the path lacks is answered with those it has, and a
HEAD request gets no content. -/
def finish (request : Incoming) (response : Response) : Response :=
  let response := match (Route.target request.method request.path).advertised? with
    | some methods => response.advertising methods
    | none => response
  if request.method == "HEAD" then response.headOnly else response

/-- Serves a request. -/
def serve (app : App) (request : Incoming) : Plan (Except Abort Response) :=
  let served :=
    if app.patterns.skips request.path then
      (app.serveRoute none request).bind fun response => .done (.ok response)
    else app.serveGuarded request
  served.bind fun outcome => .done (outcome.map (finish request))

end FinanceGateway.App
