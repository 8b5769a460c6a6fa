import FinanceGateway.Url.Host

/-!
# Routes

The paths of the application, the methods of each, and the endpoint that answers. A pattern is
matched segment by segment against the path as it was sent; a parameter takes one segment that is
not empty. A path that answers GET also answers HEAD.
-/

namespace FinanceGateway

/-- An endpoint that relays data of the backend to a signed-in caller. -/
inductive DataEndpoint
  | overview
  | listAccounts
  | createAccount
  | updateAccount
  | getAccount
  | listTransactions
  | createTransaction
  | deleteTransactions
  | listSms
  | createSms
  | getSms
  | listGoals
  | createGoal
  | getGoal
  | updateGoal
  | reference
  | profile
  | updateProfile
  | parseReceipt
  | uploadStatement
  deriving Repr, DecidableEq

/-- What answers a request. -/
inductive Endpoint
  | data (endpoint : DataEndpoint)
  | session
  | health
  deriving Repr, DecidableEq

/-- A segment of a pattern. -/
inductive PatternSegment
  | literal (text : String)
  | parameter (name : String)
  deriving Repr, DecidableEq

/-- A pattern and the endpoint of each of its methods. -/
structure Route where
  pattern : List PatternSegment
  methods : List (String × Endpoint)
  deriving Repr, DecidableEq

namespace Route

/-- Data endpoints at literal segments below the dashboard. -/
def dashboard (segments : List String) (methods : List (String × DataEndpoint)) : Route :=
  ⟨.literal "dashboard" :: segments.map .literal, methods.map fun m => (m.1, .data m.2)⟩

/-- Data endpoints at a parameter below a segment of the dashboard. -/
def dashboardItem (area name : String) (methods : List (String × DataEndpoint)) : Route :=
  ⟨[.literal "dashboard", .literal area, .parameter name],
    methods.map fun m => (m.1, .data m.2)⟩

/-- The routes of the application. -/
def all : List Route := [
  dashboard [] [("GET", .overview)],
  dashboard ["accounts"]
    [("GET", .listAccounts), ("POST", .createAccount), ("PUT", .updateAccount)],
  dashboardItem "accounts" "account_id" [("GET", .getAccount)],
  dashboard ["transactions"]
    [("GET", .listTransactions), ("POST", .createTransaction), ("DELETE", .deleteTransactions)],
  dashboard ["sms"] [("GET", .listSms), ("POST", .createSms)],
  dashboardItem "sms" "id" [("GET", .getSms)],
  dashboard ["investments"] [("GET", .listGoals), ("POST", .createGoal)],
  dashboardItem "investments" "id" [("GET", .getGoal), ("PUT", .updateGoal)],
  dashboard ["reference"] [("GET", .reference)],
  dashboard ["profile"] [("GET", .profile), ("PUT", .updateProfile)],
  ⟨[.literal "api", .literal "session"], [("GET", .session)]⟩,
  ⟨[.literal "api", .literal "health"], [("GET", .health)]⟩,
  dashboard ["transactions", "image-parse"] [("POST", .parseReceipt)],
  dashboard ["reconciliation", "upload"] [("POST", .uploadStatement)]]

/-- The value of the parameter, empty without one, if the segments fit the pattern. -/
def matches? : List PatternSegment → List String → Option String
  | [], [] => some ""
  | .literal text :: pattern, segment :: rest =>
    if text = segment then matches? pattern rest else none
  | .parameter _ :: pattern, segment :: rest =>
    if segment.isEmpty then none else (matches? pattern rest).map fun _ => segment
  | _, _ => none

/-- The segments of a path. -/
def segments (path : String) : List String :=
  match path.toList with
  | '/' :: rest => (Url.splitChars '/' rest).map String.ofList
  | cs => [String.ofList cs]

/-- The methods of a route as they are advertised: HEAD comes with GET. -/
def allowed (methods : List (String × Endpoint)) : List String :=
  methods.flatMap fun m => if m.1 == "GET" then ["GET", "HEAD"] else [m.1]

/-- The endpoint of a method. -/
def endpoint? (methods : List (String × Endpoint)) (method : String) : Option Endpoint :=
  let wanted := if method == "HEAD" then "GET" else method
  (methods.find? (·.1 == wanted)).map (·.2)

/-- Where a request leads. -/
inductive Target
  | endpoint (e : Endpoint) (parameter : String)
  | wrongMethod (allowed : List String)
  | nowhere
  deriving Repr, DecidableEq

/-- Where a request for a path by a method leads. -/
def target (method path : String) : Target :=
  let found := all.findSome? fun r => (matches? r.pattern (segments path)).map fun p => (r, p)
  match found with
  | none => .nowhere
  | some (route, parameter) =>
    match endpoint? route.methods method with
    | some e => .endpoint e parameter
    | none => .wrongMethod (allowed route.methods)

/-- The methods that are advertised to a caller: those of a path that lacks the method asked for. -/
def Target.advertised? : Target → Option (List String)
  | .wrongMethod allowed => some allowed
  | .endpoint .. | .nowhere => none

end Route

end FinanceGateway
