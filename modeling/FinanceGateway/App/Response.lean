import FinanceGateway.Failure.ApiError
import FinanceGateway.Http.Status

/-!
# Responses

What a caller gets: a status, a content, and where a redirect leads or which methods a path has.
-/

namespace FinanceGateway

/-- The content of a response. -/
inductive Content
  | none
  | json (value : Json)
  | text (value : String)

/-- A response to a caller. -/
structure Response where
  status : Nat
  content : Content := .none
  location : Option String := none
  allow : Option String := none
  /-- Whether the content is sent, or only its type. -/
  sendsContent : Bool := true

namespace Response

/-- A response with JSON. -/
def json (status : Nat) (value : Json) : Response :=
  { status, content := .json value }

/-- A response with a plain text. -/
def text (status : Nat) (value : String) : Response :=
  { status, content := .text value }

/-- A response with error details. -/
def ofDetails (status : Nat) (details : ErrorDetails) : Response :=
  .json status details.toJson

/-- The status under which a failure is reported: its own, if it is one of a failure. -/
def failureStatus (status : Nat) : Nat :=
  if Http.isFailure status then status else 502

/-- The response for a call that failed. -/
def failure (e : ApiError) : Response :=
  .ofDetails (failureStatus e.details.status) e.details

/-- The response for a path that leads nowhere. -/
def notFound : Response :=
  .ofDetails 404 { code := "NOT_FOUND", message := "no such route", status := 404 }

/-- The response for a caller who needs a session and has none. -/
def unauthorized : Response :=
  .ofDetails 401 { code := "UNAUTHORIZED", message := "no active session", status := 401 }

/-- The response for a method that a path does not have. -/
def wrongMethod : Response :=
  { status := 405 }

/-- A temporary redirect. -/
def redirect (location : String) : Response :=
  { status := 307, location := some location }

/-- The content type of a response. -/
def contentType? (r : Response) : Option String :=
  match r.content with
  | .none => Option.none
  | .json _ => some "application/json"
  | .text _ => some "text/plain; charset=utf-8"

/-- The response with the methods that its path has. -/
def advertising (methods : List String) (r : Response) : Response :=
  { r with allow := some (",".intercalate methods) }

/-- The response without its content. -/
def headOnly (r : Response) : Response :=
  { r with sendsContent := false }

end Response

end FinanceGateway
