import FinanceGateway.Json.Record

/-!
# Error bodies and error details

What a backend says about a failure, and the one shape in which callers see every failure. The two
differ in the field errors: a backend lists them, the details map each field to its error.
`ErrorDetails.ofBackend` keeps the last entry of a field that has both a name and a text.
-/

namespace FinanceGateway

/-- An error that a backend reports about one field of a request. -/
structure FieldError where
  field : String := ""
  error : String := ""
  deriving Repr, DecidableEq

/-- The wire form of `FieldError`. -/
def FieldError.record : Json.Record FieldError where
  name := "FieldError"
  initial := {}
  fields := [
    .required "field" .text (·.field) (fun v s => { s with field := v }),
    .required "error" .text (·.error) (fun v s => { s with error := v })]

/-- What a backend asks the caller to do about an error. -/
inductive ActionKind
  | redirect
  deriving Repr, DecidableEq

/-- The wire form of an action kind: its name. -/
def ActionKind.codec : Json.Codec ActionKind :=
  .enumeration [("redirect", .redirect)] fun | .redirect => "redirect"

/-- A follow-up that a backend asks for, to be interpreted by whoever shows the error. -/
structure ErrorAction where
  kind : ActionKind := .redirect
  message : String := ""
  value : String := ""
  deriving Repr, DecidableEq

/-- The wire form of `ErrorAction`. -/
def ErrorAction.record : Json.Record ErrorAction where
  name := "ErrorAction"
  initial := {}
  fields := [
    .required "type" ActionKind.codec (·.kind) (fun v s => { s with kind := v }),
    .required "message" .text (·.message) (fun v s => { s with message := v }),
    .required "value" .text (·.value) (fun v s => { s with value := v })]

/-- The body with which a backend reports an error. -/
structure BackendError where
  code : String := ""
  message : String := ""
  status : Nat := 0
  overrides : Bool := false
  errors : Option (List FieldError) := none
  action : Option ErrorAction := none
  deriving Repr, DecidableEq

/-- The wire form of `BackendError`. -/
def BackendError.record : Json.Record BackendError where
  name := "BackendHttpError"
  initial := {}
  fields := [
    .defaulted "code" .text (·.code) (fun v s => { s with code := v }),
    .required "message" .text (·.message) (fun v s => { s with message := v }),
    .defaulted "status" .nat16 (·.status) (fun v s => { s with status := v }),
    .defaulted "override" .flag (·.overrides) (fun v s => { s with overrides := v }),
    .sparseDefaulted "errors" (.list FieldError.record.codec) (·.errors)
      (fun v s => { s with errors := v }),
    .sparseDefaulted "action" ErrorAction.record.codec (·.action)
      (fun v s => { s with action := v })]

/-- An error as callers see it, whatever it came from. -/
structure ErrorDetails where
  code : String := ""
  message : String := ""
  status : Nat := 0
  overrides : Bool := false
  fieldErrors : Dictionary String := []
  action : Option ErrorAction := none
  deriving Repr, DecidableEq

namespace ErrorDetails

/-- The wire form of `ErrorDetails`; what is empty is left out. -/
def record : Json.Record ErrorDetails where
  name := "ApiErrorDetails"
  initial := {}
  fields := [
    .required "code" .text (·.code) (fun v s => { s with code := v }),
    .required "message" .text (·.message) (fun v s => { s with message := v }),
    .required "status" .nat16 (·.status) (fun v s => { s with status := v }),
    .defaulted "override" .flag (·.overrides) (fun v s => { s with overrides := v }),
    .omitting List.isEmpty .defaulted "field_errors" (.map .text) (·.fieldErrors)
      (fun v s => { s with fieldErrors := v }),
    .sparseDefaulted "action" ErrorAction.record.codec (·.action)
      (fun v s => { s with action := v })]

/-- The JSON of error details. -/
def toJson (details : ErrorDetails) : Json :=
  record.codec.encode details

/-- The code of an error that is known by its status alone. -/
def statusCode (status : Nat) : String :=
  "HTTP_" ++ Decimal.ofInt status

/-- The details of an error that is known by its status alone. -/
def ofStatus (status : Nat) (message : String) : ErrorDetails :=
  { code := statusCode status, message, status }

/-- The error of a field. -/
def fieldError? (details : ErrorDetails) (field : String) : Option String :=
  details.fieldErrors.get? field

/-- Whether there is an error of any field. -/
def hasFieldErrors (details : ErrorDetails) : Bool :=
  !details.fieldErrors.isEmpty

/-- Listed field errors as a map: the last of each field, those without field or text left out. -/
def collectFieldErrors (errors : List FieldError) : Dictionary String :=
  .ofList ((errors.filter fun e => !e.field.isEmpty && !e.error.isEmpty).map fun e =>
    (e.field, e.error))

/-- The details of what a backend says; without a code of its own it has that of its status. -/
def ofBackend (body : BackendError) : ErrorDetails where
  code := if body.code.isEmpty then statusCode body.status else body.code
  message := body.message
  status := body.status
  overrides := body.overrides
  fieldErrors := collectFieldErrors (body.errors.getD [])
  action := body.action

end ErrorDetails

end FinanceGateway
