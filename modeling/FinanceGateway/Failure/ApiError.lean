import FinanceGateway.Failure.Details
import FinanceGateway.Text.Blank

/-!
# Failures of a call

Why a call has no result: the call cannot be turned into a request, no complete answer arrived, the
backend reports an error, or the answer does not decode. Every failure has a text, details in the
shape callers see, and a text fit to be shown to a person.
-/

namespace FinanceGateway

/-- Why a call cannot be turned into a request. -/
inductive InvalidRequest
  | unterminatedPlaceholder (template : String)
  | unresolvedParameter (name template : String)
  | unserializable (reason : String)
  | contentType (field : String)
  | url (text : String)
  /-- An address without a host, `shown` being the address in its normal form. -/
  | hostless (text shown : String)
  | other (message : String)
  deriving Repr, DecidableEq

/-- The wording of an invalid request. -/
def InvalidRequest.message : InvalidRequest → String
  | .unterminatedPlaceholder template => "unterminated placeholder in " ++ template
  | .unresolvedParameter name template =>
    "unresolved path parameter `" ++ name ++ "` in " ++ template
  | .unserializable reason => "failed to serialize body: " ++ reason
  | .contentType field => "invalid content type for `" ++ field ++ "`: builder error"
  | .url text => "failed to build request for " ++ text ++ ": builder error"
  | .hostless text shown =>
    "failed to build request for " ++ text ++ ": builder error for url (" ++ shown ++ ")"
  | .other message => message

/-- Why no complete answer arrived; `url` is the address asked. -/
inductive TransportFault
  | unreached (url : String)
  | unsupportedScheme (url : String)
  | truncated
  deriving Repr, DecidableEq

/-- The wording of a transport fault. -/
def TransportFault.message : TransportFault → String
  | .unreached url => "error sending request for url (" ++ url ++ ")"
  | .unsupportedScheme url => "builder error for url (" ++ url ++ ")"
  | .truncated => "error decoding response body"

/-- Why a call has no result. -/
inductive ApiError
  | invalidRequest (cause : InvalidRequest)
  | transport (cause : TransportFault)
  | api (details : ErrorDetails)
  | decode (error : Json.DecodeError)

namespace ApiError

/-- The text of a failure. -/
def message : ApiError → String
  | .invalidRequest cause => "invalid request: " ++ cause.message
  | .transport cause => "transport failure: " ++ cause.message
  | .api details =>
    "api error " ++ Decimal.ofInt details.status ++ " (" ++ details.code ++ "): " ++
      details.message
  | .decode error => "failed to decode response body: " ++ error.message

/-- The status that the backend's error goes by. -/
def status? : ApiError → Option Nat
  | .api details => some details.status
  | _ => none

/-- Whether the backend refuses the credential. -/
def isUnauthorized (e : ApiError) : Bool :=
  e.status? == some 401

/-- The error of a field. -/
def fieldError? : ApiError → String → Option String
  | .api details, field => details.fieldError? field
  | _, _ => none

/-- The details of a failure; one that is not the backend's counts as an internal error. -/
def details : ApiError → ErrorDetails
  | .api details => details
  | e => { code := "ERROR", message := e.message, status := 500 }

/-- The text to show a person: the backend's message, unless it is blank. -/
def humanMessage : ApiError → String
  | .api details =>
    if Text.isBlank details.message then "Error " ++ Decimal.ofInt details.status
    else details.message
  | e => e.message

end ApiError

end FinanceGateway
