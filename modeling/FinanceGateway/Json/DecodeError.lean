import FinanceGateway.Decimal.Layout
import FinanceGateway.Json.Draft
import FinanceGateway.Text.Quoted

/-!
# Why a value does not decode

A `DecodeError` says where in the value the first fault stands and what it is: a flaw of the text,
or a value that does not fit the expected shape. `Cause.message` is the wording of the fault alone,
`DecodeError.located` puts the place before it. `Kind` sorts faults the way callers report them.
-/

namespace FinanceGateway.Json

/-- The kinds of value a message names. -/
inductive Found
  | null
  | bool (value : Bool)
  | number (value : Number)
  | text (value : String)
  | sequence
  | map

/-- The words for a value in a message. -/
def Found.message : Found → String
  | .null => "null"
  | .bool b => "boolean `" ++ (if b then "true" else "false") ++ "`"
  | .number (.int i) => "integer `" ++ Decimal.ofInt i ++ "`"
  | .number (.real x) => "floating point `" ++ Decimal.Layout.json.text x ++ "`"
  | .text s => "string " ++ Text.quoted s
  | .sequence => "sequence"
  | .map => "map"

/-- Why a value does not decode. -/
inductive Cause
  | flaw (of : Flaw)
  | mismatch (found : Found) (expected : String)
  | outOfRange (value : Int) (expected : String)
  | missingField (name : String)
  | duplicateField (name : String)
  | unknownVariant (found : String) (known : List String)
  | shortSequence (length : Nat) (expected : String)
  | longSequence (length : Nat)
  | notSingleKey

/-- The choice of known variants in a message. -/
def variantsMessage : List String → String
  | [] => "there are no variants"
  | [a] => "expected `" ++ a ++ "`"
  | [a, b] => "expected `" ++ a ++ "` or `" ++ b ++ "`"
  | known => "expected one of " ++ ", ".intercalate (known.map fun v => "`" ++ v ++ "`")

/-- The wording of a fault. -/
def Cause.message : Cause → String
  | .flaw f => f.message
  | .mismatch found expected => "invalid type: " ++ found.message ++ ", expected " ++ expected
  | .outOfRange value expected =>
    "invalid value: integer `" ++ Decimal.ofInt value ++ "`, expected " ++ expected
  | .missingField name => "missing field `" ++ name ++ "`"
  | .duplicateField name => "duplicate field `" ++ name ++ "`"
  | .unknownVariant found known => "unknown variant `" ++ found ++ "`, " ++ variantsMessage known
  | .shortSequence length expected =>
    "invalid length " ++ Decimal.ofInt length ++ ", expected " ++ expected
  | .longSequence length =>
    "invalid length " ++ Decimal.ofInt length ++ ", expected fewer elements in array"
  | .notSingleKey => "invalid value: map, expected map with a single key"

/-- A step into a value. -/
inductive Segment
  | field (name : String)
  | index (i : Nat)
  deriving Repr, DecidableEq

/-- A fault and the steps that lead to it. -/
structure DecodeError where
  path : List Segment
  cause : Cause

/-- A decoded value, or the first fault. -/
abbrev Decoded (α : Type) := Except DecodeError α

/-- A fault at the place itself. -/
def failure {α : Type} (cause : Cause) : Decoded α :=
  .error ⟨[], cause⟩

/-- A flaw at the place itself. -/
def flawed {α : Type} (flaw : Flaw) : Decoded α :=
  failure (.flaw flaw)

/-- A result seen from one step further out. -/
def Decoded.at {α : Type} (segment : Segment) : Decoded α → Decoded α
  | .ok a => .ok a
  | .error e => .error ⟨segment :: e.path, e.cause⟩

/-- The text of a path; a field after another step takes a point. -/
def pathText : Bool → List Segment → String
  | _, [] => ""
  | first, .field name :: rest => (if first then "" else ".") ++ name ++ pathText false rest
  | _, .index i :: rest => "[" ++ Decimal.ofInt i ++ "]" ++ pathText false rest

/-- The wording of a fault. -/
def DecodeError.message (e : DecodeError) : String :=
  e.cause.message

/-- The wording of a fault after its place, when it is inside the value. -/
def DecodeError.located (e : DecodeError) : String :=
  if e.path.isEmpty then e.message else pathText true e.path ++ ": " ++ e.message

/-- How a fault is reported: a flaw, the end of the text, or data of the wrong shape. -/
inductive Kind
  | malformed
  | ended
  | misfit
  deriving Repr, DecidableEq

/-- The kind of a fault. -/
def DecodeError.kind (e : DecodeError) : Kind :=
  match e.cause with
  | .flaw f => if f.isEnd then .ended else .malformed
  | _ => .misfit

end FinanceGateway.Json
