import FinanceGateway.App.Extract
import FinanceGateway.App.Route
import FinanceGateway.Gate.Session

/-!
# Handlers

What each endpoint does. A data endpoint takes what it needs from the request, calls one service
with the caller's own token and relays the answer; two of them call three services at once and put
the answers together. The health endpoint uses the credential of the application itself, the
session endpoint calls nothing.
-/

namespace FinanceGateway

/-- The names and places around signing in. -/
structure AuthSettings where
  sessionCookie : String := "__session"
  signInUrl : String := "/sign-in"
  signUpUrl : String := "/sign-up"
  dashboardPath : String := "/dashboard"
  deriving Repr, DecidableEq

/-- The application: where the backend is, the credential for calls of its own, its settings, and
how it reads texts in further character sets. -/
structure App where
  base : String
  service : Option Provider := none
  settings : AuthSettings := {}
  patterns : RoutePatterns := {}
  validator : Validator
  charsets : Charset.Others := fun _ => none

namespace App

/-! ## One service -/

/-- The provider of a caller's token. -/
def caller (token : String) : Option Provider :=
  some (.fixed 0 (some token))

/-- Calls a service and relays its answer with a status. -/
def relay (app : App) (provider : Option Provider) (status : Nat) (service : Service) :
    Plan Response :=
  (service.execute app.base provider).bind fun
    | .ok answer => .done (.json status (service.codec.encode answer))
    | .error e => .done (.failure e)

/-- Calls a service and answers without content. -/
def relaySilently (app : App) (provider : Option Provider) (service : Service) : Plan Response :=
  (service.execute app.base provider).bind fun
    | .ok _ => .done { status := 204 }
    | .error e => .done (.failure e)

/-- Goes on with what was taken from the request, or answers why it is refused. -/
def taking {α : Type} (extracted : Extracted α) (next : α → Plan Response) : Plan Response :=
  match extracted with
  | .ok value => next value
  | .error refusal => .done refusal.response

/-! ## Several services at once -/

/-- A request for a service, and how the JSON of its answer is read from the reply. -/
structure Prepared where
  request : Outgoing
  read : Reply → Except ApiError Json

/-- Makes the request for a service with a caller's token. -/
def prepare (app : App) (token : String) (service : Service) : Except ApiError Prepared := do
  let call ← service.call.mapError .invalidRequest
  let path ← call.resolve.mapError .invalidRequest
  let usable := (TokenAnswer.token token).usable
  let request ← (call.request app.base path usable).mapError .invalidRequest
  if isSendable request.url then
    .ok ⟨request, fun reply => (call.result service.codec request.url reply).map
      service.codec.encode⟩
  else .error (.transport (.unsupportedScheme request.url.text))

/-- The first failure among replies in the order of their arrival. -/
def firstFailure? (prepared : List Prepared) (arrivals : List Arrival) : Option ApiError :=
  arrivals.findSome? fun arrival =>
    match (prepared[arrival.index]?).map (·.read arrival.reply) with
    | some (Except.error e) => some e
    | _ => none

/-- The section that a prepared request contributes to the answer. -/
def section? (prepared : List Prepared) (arrivals : List Arrival) (index : Nat) : Option Json := do
  let p ← prepared[index]?
  let arrival ← arrivals.find? (·.index == index)
  match p.read arrival.reply with
  | .ok json => some json
  | .error _ => none

/-- The answer made of named sections, unless a reply is a failure. -/
def assemble (names : List String) (prepared : List Prepared) (arrivals : List Arrival) :
    Response :=
  match firstFailure? prepared arrivals with
  | some e => .failure e
  | none =>
    let sections := names.zipIdx.map fun (name, index) =>
      (name, (section? prepared arrivals index).getD .null)
    .json 200 (.object sections)

/-- Calls services at once with a caller's token and answers with a section for each. -/
def gather (app : App) (token : String) (services : List (String × Service)) : Plan Response :=
  match services.mapM fun s => app.prepare token s.2 with
  | .error e => .done (.failure e)
  | .ok prepared =>
    .sendAll (prepared.map (·.request)) fun arrivals =>
      .done (assemble (services.map (·.1)) prepared arrivals)

/-- The sections of the overview. -/
def overviewSections : List (String × Service) :=
  [("user", .getProfile), ("accounts", .listAccounts), ("goals", .listGoals {})]

/-- The sections of the reference data. -/
def referenceSections : List (String × Service) :=
  [("banks", .listBanks), ("categories", .listCategories), ("merchants", .listMerchants)]

/-! ## Endpoints -/

/-- Who the caller is, and where the pages around signing in are. -/
def sessionInfo (app : App) (session : Option Session) : Json :=
  .object [
    ("authenticated", .bool session.isSome),
    ("email", .optionalText (session.bind (·.email))),
    ("sign_in_url", .text app.settings.signInUrl),
    ("sign_up_url", .text app.settings.signUpUrl),
    ("dashboard_path", .text app.settings.dashboardPath)]

/-- What a data endpoint does for a caller with a token. -/
def serveData (app : App) (token parameter : String) (request : Incoming) :
    DataEndpoint → Plan Response
  | .overview => app.gather token overviewSections
  | .reference => app.gather token referenceSections
  | .listAccounts => app.relay (caller token) 200 .listAccounts
  | .listSms => app.relay (caller token) 200 .listSms
  | .profile => app.relay (caller token) 200 .getProfile
  | .getAccount => taking (extractParameter "account_id" parameter) fun id =>
      app.relay (caller token) 200 (.getAccount id)
  | .getSms => taking (extractParameter "id" parameter) fun id =>
      app.relay (caller token) 200 (.getSms id)
  | .getGoal => taking (extractParameter "id" parameter) fun id =>
      app.relay (caller token) 200 (.getGoal id)
  | .listTransactions =>
    taking (extractQuery TransactionFilter.queryFields {} request) fun filter =>
      app.relay (caller token) 200 (.listTransactions filter)
  | .listGoals =>
    taking (extractQuery GoalFilter.queryFields {} request) fun filter =>
      app.relay (caller token) 200 (.listGoals filter)
  | .createAccount => taking (extractJson NewAccount.record.codec request) fun account =>
      app.relay (caller token) 201 (.createAccount account)
  | .updateAccount => taking (extractJson AccountUpdate.record.codec request) fun changes =>
      app.relay (caller token) 200 (.updateAccount changes)
  | .createTransaction => taking (extractJson NewTransaction.record.codec request) fun t =>
      app.relay (caller token) 201 (.createTransaction t)
  | .deleteTransactions => taking (extractJson TransactionDeletion.record.codec request) fun d =>
      app.relaySilently (caller token) (.deleteTransactions d)
  | .createSms => taking (extractJson NewSms.record.codec request) fun sms =>
      app.relay (caller token) 201 (.createSms sms)
  | .createGoal => taking (extractJson NewGoal.record.codec request) fun goal =>
      app.relay (caller token) 201 (.createGoal goal)
  | .updateGoal => taking (extractParameter "id" parameter) fun id =>
      taking (extractJson GoalUpdate.record.codec request) fun changes =>
        app.relay (caller token) 200 (.updateGoal id changes)
  | .updateProfile => taking (extractJson UserUpdate.record.codec request) fun changes =>
      app.relay (caller token) 200 (.updateUser changes)
  | .parseReceipt => taking (extractReceipt app.charsets request) fun image =>
      app.relay (caller token) 200
        (.parseReceipt image.bytes (some image.fileName) image.contentType)
  | .uploadStatement => taking (extractStatement app.charsets request) fun upload =>
      app.relay (caller token) 202 (.uploadStatement upload)

/-- What an endpoint does for a caller with or without a session. -/
def serveEndpoint (app : App) (session : Option Session) (parameter : String)
    (request : Incoming) : Endpoint → Plan Response
  | .session => .done (.json 200 (app.sessionInfo session))
  | .health => app.relay app.service 200 .getHealth
  | .data endpoint =>
    match session with
    | none => .done .unauthorized
    | some s => app.serveData s.token parameter request endpoint

/-- What the application does with a request that has passed the guard. -/
def serveRoute (app : App) (session : Option Session) (request : Incoming) : Plan Response :=
  match Route.target request.method request.path with
  | .nowhere => .done .notFound
  | .wrongMethod _ => .done .wrongMethod
  | .endpoint endpoint parameter => app.serveEndpoint session parameter request endpoint

end App

end FinanceGateway
