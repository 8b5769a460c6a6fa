import FinanceGateway.Call.Service
import FinanceGateway.Dispatch.Plan
import FinanceGateway.Http.Status

/-!
# Executing calls

`execute` carries out one call: it resolves the path, gets a token from the provider, makes the
request, sends it once, and reads the reply. The path is resolved before the provider is asked, and
the request is made before anything is sent.
-/

namespace FinanceGateway

open Json (Codec)

namespace Call

/-! ## Making the request -/

/-- A form field as a part; the content type of a file has to be a media type. -/
def formPart (field : FormField) : Except InvalidRequest Part :=
  match field.value with
  | .text value => .ok { name := field.name, data := Utf8.encode value }
  | .file data fileName none => .ok { name := field.name, fileName, data }
  | .file data fileName (some type) =>
    match Mime.parse? type with
    | some mime => .ok { name := field.name, fileName, contentType := some mime, data }
    | none => .error (.contentType field.name)

/-- The parts of a form, or the first field that cannot be one. -/
def formParts : List FormField → Except InvalidRequest (List Part)
  | [] => .ok []
  | field :: rest =>
    match formPart field with
    | .error e => .error e
    | .ok part => (formParts rest).map (part :: ·)

/-- The payload of the call. -/
def payload (call : Call) : Except InvalidRequest Payload :=
  match call.body with
  | .empty => .ok .empty
  | .json value => .ok (.json value)
  | .form fields => (formParts fields).map .form

/-- The address of a base and a path joined as text. -/
def address (base path : String) : Except InvalidRequest Url :=
  match Url.read (base ++ path) with
  | some (.address url) => .ok url
  | some (.hostless shown) => .error (.hostless (base ++ path) shown)
  | none => .error (.url (base ++ path))

/-- The values of the Authorization header: the login of the address, and the token. -/
def authorization (url : Url) (token : Option String) : List Bytes :=
  (url.login.map basic).toList ++ (token.map bearer).toList

/-- The request of a call to a path below the base, with a token. -/
def request (call : Call) (base path : String) (token : Option String) :
    Except InvalidRequest Outgoing := do
  let payload ← call.payload
  let url ← address base path
  if (token.map bearer).any fun value => !isHeaderValue value then .error (.url (base ++ path))
  else .ok {
    method := call.method
    url := url.addQuery call.queryPairs
    authorization := authorization url token
    payload }

/-! ## Reading the reply -/

/-- The details of an answer that reports an error: those of its body, if that says what is wrong,
else what the call declares about its status. -/
def errorDetails (call : Call) (status : Nat) (body : Bytes) : ErrorDetails :=
  match BackendError.record.codec.decodeText body with
  | .ok e => .ofBackend (if e.status = 0 then { e with status } else e)
  | .error _ =>
    .ofStatus status <| match call.errorMeaning? status with
      | some meaning => meaning
      | none => "Generic Error: status " ++ Decimal.ofInt status ++ ", " ++
          (Http.reason? status).getD "unknown status"

/-- The value of a successful answer; a blank body stands for null. -/
def decodeBody {α : Type} (codec : Codec α) (body : Bytes) : Except ApiError α :=
  let decoded :=
    if body.all Text.isAsciiBlank then codec.decodeJson .null else codec.decodeText body
  decoded.mapError .decode

/-- The result of a call whose request was sent to an address. -/
def result {α : Type} (call : Call) (codec : Codec α) (url : Url) : Reply → Except ApiError α
  | .unreached => .error (.transport (.unreached url.text))
  | .truncated => .error (.transport .truncated)
  | .answer status body =>
    if Http.isSuccess status then decodeBody codec body
    else .error (.api (call.errorDetails status body))

end Call

/-! ## Execution -/

/-- Goes on with the usable token of a provider. -/
def withToken {α : Type} (provider : Option Provider) (next : Option String → Plan α) : Plan α :=
  match provider with
  | none => next none
  | some (.fixed _ token) => next (TokenAnswer.ofOption token).usable
  | some (.external id) => .ask id fun answer => next answer.usable

/-- Whether requests can be sent to addresses of a scheme. -/
def isSendable (url : Url) : Bool :=
  url.scheme == "http" || url.scheme == "https"

/-- Sends a request, once, and reads its reply; a redirect is a reply like any other. -/
def transmit {α : Type} (call : Call) (codec : Codec α) (request : Outgoing) :
    Plan (Except ApiError α) :=
  if isSendable request.url then
    .send request fun reply => .done (call.result codec request.url reply)
  else .done (.error (.transport (.unsupportedScheme request.url.text)))

/-- Carries out a call with the token of a provider. -/
def execute {α : Type} (base : String) (provider : Option Provider) (call : Call)
    (codec : Codec α) : Plan (Except ApiError α) :=
  match call.resolve with
  | .error cause => .done (.error (.invalidRequest cause))
  | .ok path =>
    withToken provider fun token =>
      match call.request base path token with
      | .error cause => .done (.error (.invalidRequest cause))
      | .ok request => transmit call codec request

/-- Carries out the call of a service. -/
def Service.execute (service : Service) (base : String) (provider : Option Provider) :
    Plan (Except ApiError service.Answer) :=
  match service.call with
  | .error cause => .done (.error (.invalidRequest cause))
  | .ok call => FinanceGateway.execute base provider call service.codec

end FinanceGateway
