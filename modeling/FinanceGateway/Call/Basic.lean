import FinanceGateway.Failure.ApiError
import FinanceGateway.Text.Percent

/-!
# Calls

The declarative description of one API call: a method, a path template with placeholders between
braces, their values, query values, a body, and what the errors of the call mean. A call is built
by steps in any order. `Call.resolve` puts the percent-coded values in place of the placeholders.
-/

namespace FinanceGateway

/-! ## Templates -/

/-- A piece of a path template. -/
inductive Piece
  | literal (c : Char)
  | placeholder (name : List Char)
  /-- A brace that is never closed. -/
  | unterminated
  deriving Repr, DecidableEq

/-- The pieces of a template; inside a placeholder its name so far is given, from the last. -/
def Piece.ofChars : Option (List Char) → List Char → List Piece
  | none, [] => []
  | none, c :: rest =>
    if c == '\x7b' then Piece.ofChars (some []) rest else .literal c :: Piece.ofChars none rest
  | some _, [] => [.unterminated]
  | some name, c :: rest =>
    if c == '\x7d' then .placeholder name.reverse :: Piece.ofChars none rest
    else Piece.ofChars (some (c :: name)) rest

/-! ## Calls -/

/-- The value of a form field. -/
inductive FormValue
  | text (value : String)
  | file (bytes : Bytes) (fileName contentType : Option String)
  deriving Repr, DecidableEq

/-- A field of a form. -/
structure FormField where
  name : String
  value : FormValue
  deriving Repr, DecidableEq

/-- The body of a call. -/
inductive CallBody
  | empty
  | json (value : Json)
  | form (fields : List FormField)

/-- The description of an API call. -/
structure Call where
  method : String
  template : String
  pathValues : List (String × String) := []
  /-- Query values in declared order; an absent one keeps its place but is never sent. -/
  query : List (String × Option String) := []
  body : CallBody := .empty
  /-- What the call itself declares about error statuses. -/
  errors : List (Nat × String) := []

/-- A step of building a call. -/
inductive Call.Step
  | pathValue (name value : String)
  | query (name : String) (value : Option String)
  /-- A JSON body, or the reason why there is none. -/
  | json (body : Except String Json)
  | field (name : String) (value : FormValue)
  | errors (entries : List (Nat × String))

namespace Call

/-- The statuses that every call may be answered with. -/
def commonErrors : List (Nat × String) := [
  (400, "Bad Request"), (401, "Unauthorized"), (403, "Forbidden"), (404, "Not Found"),
  (500, "Internal Server Error"), (502, "Bad Gateway"), (503, "Service Unavailable")]

/-- The body with one more form field; a body that is no form is dropped. -/
def addField (field : FormField) : CallBody → CallBody
  | .form fields => .form (fields ++ [field])
  | _ => .form [field]

/-- The call after a step. -/
def apply (call : Call) : Step → Except InvalidRequest Call
  | .pathValue name value => .ok { call with pathValues := call.pathValues ++ [(name, value)] }
  | .query name value => .ok { call with query := call.query ++ [(name, value)] }
  | .json (.ok value) => .ok { call with body := .json value }
  | .json (.error reason) => .error (.unserializable reason)
  | .field name value => .ok { call with body := addField ⟨name, value⟩ call.body }
  | .errors entries => .ok { call with errors := call.errors ++ entries }

/-- The call after a list of steps. -/
def build (call : Call) : List Step → Except InvalidRequest Call
  | [] => .ok call
  | step :: rest =>
    match call.apply step with
    | .error e => .error e
    | .ok next => next.build rest

/-- The value of a placeholder: the first one bound to its name. -/
def pathValue? (call : Call) (name : String) : Option String :=
  (call.pathValues.find? (·.1 == name)).map (·.2)

/-- Puts values in place of the placeholders of a template's pieces. -/
def resolvePieces (call : Call) : List Piece → Except InvalidRequest (List Char)
  | [] => .ok []
  | .literal c :: rest => (call.resolvePieces rest).map (c :: ·)
  | .unterminated :: _ => .error (.unterminatedPlaceholder call.template)
  | .placeholder name :: rest =>
    match call.pathValue? (String.ofList name) with
    | none => .error (.unresolvedParameter (String.ofList name) call.template)
    | some value => (call.resolvePieces rest).map ((Percent.encode value).toList ++ ·)

/-- The path of the call. -/
def resolve (call : Call) : Except InvalidRequest String :=
  (call.resolvePieces (Piece.ofChars none call.template.toList)).map String.ofList

/-- The query values that are present. -/
def queryPairs (call : Call) : List (String × String) :=
  call.query.filterMap fun q => q.2.map fun value => (q.1, value)

/-- The names of the form fields, in the order in which they are sent. -/
def fieldNames (call : Call) : List String :=
  match call.body with
  | .form fields => fields.map (·.name)
  | _ => []

/-- What an error status means: what the call declares first, else the common meaning. -/
def errorMeaning? (call : Call) (status : Nat) : Option String :=
  ((call.errors ++ commonErrors).find? (·.1 == status)).map (·.2)

end Call

end FinanceGateway
