import FinanceGateway.App.Response
import FinanceGateway.App.Upload
import FinanceGateway.Decimal.Reading
import FinanceGateway.Finance.Goal
import FinanceGateway.Finance.Transaction

/-!
# What a handler takes from a request

The path parameter, the query filter, the JSON body and the form of a request, and the responses to
requests that lack them.
-/

namespace FinanceGateway

/-- A request to the application; path and query as they were sent. -/
structure Incoming where
  method : String
  path : String
  query : Option String
  headers : Headers
  body : Bytes
  deriving Repr, DecidableEq

/-- Why a request is refused before a handler runs. -/
inductive Refusal
  | pathParameter (name : String)
  | repeatedQuery (name : String)
  | queryNumber (fault : Decimal.NumberFault)
  | notJson
  | tooLong
  | json (error : Json.DecodeError)
  | noBoundary
  | form (failure : ApiError)

/-- The response to a refused request. -/
def Refusal.response : Refusal → Response
  | .pathParameter name => .text 400 ("Invalid URL: Invalid UTF-8 in `" ++ name ++ "`")
  | .repeatedQuery name =>
    .text 400 ("Failed to deserialize query string: duplicate field `" ++ name ++ "`")
  | .queryNumber fault => .text 400 ("Failed to deserialize query string: " ++ fault.message)
  | .notJson => .text 415 "Expected request with `Content-Type: application/json`"
  | .tooLong => .text 413 "Failed to buffer the request body: length limit exceeded"
  | .json error =>
    match error.kind with
    | .misfit =>
      .text 422 ("Failed to deserialize the JSON body into the target type: " ++ error.located)
    | _ => .text 400 ("Failed to parse the request body as JSON: " ++ error.located)
  | .noBoundary => .text 400 "Invalid `boundary` for `multipart/form-data` request"
  | .form failure => .failure failure

/-- What is taken from a request, or why it is refused. -/
abbrev Extracted (α : Type) := Except Refusal α

/-! ## Path -/

/-- The text of a path parameter. -/
def extractParameter (name raw : String) : Extracted String :=
  match Percent.decodeText? raw with
  | some value => .ok value
  | none => .error (.pathParameter name)

/-! ## Query -/

/-- A query value that a filter knows: reading it gives a change of the filter. -/
structure QueryField (σ : Type) where
  name : String
  read : String → Except Decimal.NumberFault (σ → σ)

namespace QueryField

variable {σ : Type}

/-- A text. -/
def text (name : String) (set : Option String → σ → σ) : QueryField σ :=
  ⟨name, fun s => .ok (set (some s))⟩

/-- A binary64 number. -/
def real (name : String) (set : Option Float → σ → σ) : QueryField σ :=
  ⟨name, fun s => (Decimal.parseFloat s).map fun x => set (some x)⟩

/-- A natural number below 256. -/
def nat8 (name : String) (set : Option Nat → σ → σ) : QueryField σ :=
  ⟨name, fun s => (Decimal.parseNat 255 s).map fun n => set (some n)⟩

end QueryField

/-- Reads pairs onto a filter, given the names seen before; unknown names are passed over. -/
def readQuery {σ : Type} (fields : List (QueryField σ)) :
    List String → σ → List (String × String) → Extracted σ
  | _, s, [] => .ok s
  | seen, s, (name, value) :: rest =>
    match fields.find? (·.name == name) with
    | none => readQuery fields seen s rest
    | some field =>
      if name ∈ seen then .error (.repeatedQuery name)
      else match field.read value with
        | .error fault => .error (.queryNumber fault)
        | .ok set => readQuery fields (name :: seen) (set s) rest

/-- The filter in the query of a request. -/
def extractQuery {σ : Type} (fields : List (QueryField σ)) (initial : σ) (request : Incoming) :
    Extracted σ :=
  readQuery fields [] initial (Form.decodePairs (Utf8.encode (request.query.getD "")))

/-- The query values that select transactions. -/
def TransactionFilter.queryFields : List (QueryField TransactionFilter) := [
  .text "account_id" fun v s => { s with accountId := v },
  .text "category_id" fun v s => { s with categoryId := v },
  .text "merchant_id" fun v s => { s with merchantId := v }]

/-- The query values that select goals. -/
def GoalFilter.queryFields : List (QueryField GoalFilter) := [
  .text "status" fun v s => { s with status := v },
  .text "target_date_before" fun v s => { s with targetDateBefore := v },
  .text "target_date_after" fun v s => { s with targetDateAfter := v },
  .real "target_amount_less_than" fun v s => { s with targetAmountLessThan := v },
  .real "target_amount_greater_than" fun v s => { s with targetAmountGreaterThan := v },
  .nat8 "priority" fun v s => { s with priority := v },
  .text "created_at_before" fun v s => { s with createdAtBefore := v },
  .text "created_at_after" fun v s => { s with createdAtAfter := v }]

/-! ## Body -/

/-- The media type of the body of a request. -/
def Incoming.mediaType? (request : Incoming) : Option Mime :=
  (request.headers.text? "content-type").bind Mime.parse?

/-- The value in a JSON body; what follows it does not count. -/
def extractJson {α : Type} (codec : Json.Codec α) (request : Incoming) : Extracted α :=
  if !request.mediaType?.any Mime.isJson then .error .notJson
  else if bodyLimit < request.body.length then .error .tooLong
  else (codec.decodePrefix request.body).mapError .json

/-- The form in the body of a request. -/
def extractForm (others : Charset.Others) (request : Incoming) : Extracted UploadForm :=
  match request.mediaType?.bind Mime.formBoundary? with
  | none => .error .noBoundary
  | some boundary => (UploadForm.read others boundary request.body).mapError .form

/-- The receipt in an upload form. -/
def extractReceipt (others : Charset.Others) (request : Incoming) : Extracted UploadedFile := do
  let form ← extractForm others request
  match form.file? "image" with
  | some file => .ok file
  | none => .error (.form (UploadForm.missingParts ["image"]))

/-- The statement in an upload form. -/
def extractStatement (others : Charset.Others) (request : Incoming) :
    Extracted StatementUpload := do
  let form ← extractForm others request
  match form.statement? with
  | some upload => .ok upload
  | none => .error (.form (UploadForm.missingParts form.missingForStatement))

end FinanceGateway
