import FinanceGateway.Json.Codec

/-!
# Records

The codec of a structure is made from a table of its fields: for each the name on the wire, how its
value decodes and encodes, what happens when it is missing, and when it is left out. A record is
read from an object, whose unknown members are skimmed, or from an array with the fields in
declared order.
-/

namespace FinanceGateway.Json

/-- What happens when a field is missing. -/
inductive Missing
  /-- It is an error. -/
  | required
  /-- In an object it is left as it is initially; in an array it is an error. -/
  | optional
  /-- It is left as it is initially. -/
  | defaulted
  deriving Repr, DecidableEq

/-- A field of a record type. -/
structure Field (σ : Type) where
  name : String
  missing : Missing
  {Value : Type}
  codec : Codec Value
  /-- Which values are left out of the encoding. -/
  absent : Value → Bool
  get : σ → Value
  set : Value → σ → σ

/-- The fields of a record type, its name in messages, and the record before any field is read. -/
structure Record (σ : Type) where
  name : String
  initial : σ
  fields : List (Field σ)

namespace Field

/-- Reads a field: the change that its value makes to a record. -/
def decode {σ : Type} (field : Field σ) (place : Reading) (d : Draft) : Decoded (σ → σ) :=
  (field.codec.decode place d).map field.set

/-- The value of a field in the encoding of a record, unless it is left out. -/
def encode {σ : Type} (field : Field σ) (s : σ) : Option Json :=
  if field.absent (field.get s) then none else some (field.codec.encode (field.get s))

/-- A field that is left out of the encoding when `absent` holds of its value. -/
def omitting {σ α : Type} (absent : α → Bool) (missing : Missing) (name : String)
    (codec : Codec α) (get : σ → α) (set : α → σ → σ) : Field σ :=
  { name, missing, codec, absent, get, set }

/-- A field that is always written. -/
def written {σ α : Type} (missing : Missing) (name : String) (codec : Codec α)
    (get : σ → α) (set : α → σ → σ) : Field σ :=
  omitting (fun _ => false) missing name codec get set

/-- A field that must be given. -/
def required {σ α : Type} (name : String) (codec : Codec α)
    (get : σ → α) (set : α → σ → σ) : Field σ :=
  written .required name codec get set

/-- A field that has a default. -/
def defaulted {σ α : Type} (name : String) (codec : Codec α)
    (get : σ → α) (set : α → σ → σ) : Field σ :=
  written .defaulted name codec get set

/-- An optional field, written as null when absent. -/
def optional {σ α : Type} (name : String) (codec : Codec α)
    (get : σ → Option α) (set : Option α → σ → σ) : Field σ :=
  written .optional name codec.optional get set

/-- An optional field of a record with defaults, written as null when absent. -/
def nullable {σ α : Type} (name : String) (codec : Codec α)
    (get : σ → Option α) (set : Option α → σ → σ) : Field σ :=
  written .defaulted name codec.optional get set

/-- An optional field, left out when absent. -/
def sparse {σ α : Type} (name : String) (codec : Codec α)
    (get : σ → Option α) (set : Option α → σ → σ) : Field σ :=
  omitting Option.isNone .optional name codec.optional get set

/-- An optional field of a record with defaults, left out when absent. -/
def sparseDefaulted {σ α : Type} (name : String) (codec : Codec α)
    (get : σ → Option α) (set : Option α → σ → σ) : Field σ :=
  omitting Option.isNone .defaulted name codec.optional get set

end Field

namespace Record

variable {σ : Type}

/-- The words for a record type in messages. -/
def expected (r : Record σ) : String :=
  "struct " ++ r.name

/-- The words for a record type read from an array. -/
def expectedSequence (r : Record σ) : String :=
  r.expected ++ " with " ++ Decimal.ofInt r.fields.length ++
    (if r.fields.length == 1 then " element" else " elements")

/-- The field of a name. -/
def field? (r : Record σ) (name : String) : Option (Field σ) :=
  r.fields.find? (·.name == name)

/-- Reads members onto a record, given the names seen before. -/
def decodeMembers (r : Record σ) (place : Reading) :
    Members → List String → σ → Decoded (List String × σ)
  | .close, seen, s => .ok (seen, s)
  | .broken strict _, _, _ => flawed strict
  | .keyless _, _, _ => flawed .keyNotString
  | .cons (.error flaw) _ _, _, _ => flawed flaw
  | .bare (.error flaw) _, _, _ => flawed flaw
  | .bare (.ok key) flaw, seen, _ =>
    if key ∈ seen then failure (.duplicateField key) else Decoded.at (.field key) (flawed flaw)
  | .cons (.ok key) value tail, seen, s =>
    match r.field? key with
    | none =>
      match value.skim with
      | .error flaw => Decoded.at (.field key) (flawed flaw)
      | .ok () => decodeMembers r place tail seen s
    | some field =>
      if key ∈ seen then failure (.duplicateField key)
      else match Decoded.at (.field key) (field.decode place value) with
        | .error e => .error e
        | .ok set => decodeMembers r place tail (key :: seen) (set s)

/-- The first required field that is not among the names seen. -/
def missing? (r : Record σ) (seen : List String) : Option (Field σ) :=
  r.fields.find? fun field => field.missing == .required && !(seen.contains field.name)

/-- Reads a record from an object. -/
def decodeObject (r : Record σ) (place : Reading) (members : Members) : Decoded σ :=
  match r.decodeMembers place members [] r.initial with
  | .error e => .error e
  | .ok (seen, s) =>
    match r.missing? seen with
    | some field => failure (.missingField field.name)
    | none => .ok s

/-- How many items there are up to the end. -/
def itemCount : Items → Nat
  | .cons _ tail => itemCount tail + 1
  | _ => 0

/-- The fault of what follows the last field in an array. -/
def trailing (place : Reading) (count : Nat) (rest : Items) (s : σ) : Decoded σ :=
  match place.origin, rest with
  | _, .close => .ok s
  | .value, rest => failure (.longSequence (count + itemCount rest))
  | .text, .broken .endInList _ => flawed .endInList
  | .text, .broken .trailingComma _ => flawed .trailingComma
  | .text, _ => flawed .trailingCharacters

/-- Reads the fields from the `i`th on from the items of an array. -/
def decodeItems (r : Record σ) (place : Reading) :
    List (Field σ) → Nat → Items → σ → Decoded σ
  | [], i, rest, s => trailing place i rest s
  | field :: fields, i, .cons head tail, s =>
    match Decoded.at (.index i) (field.decode place head) with
    | .error e => .error e
    | .ok set => decodeItems r place fields (i + 1) tail (set s)
  | _ :: _, i, .broken strict _, _ => Decoded.at (.index i) (flawed strict)
  | field :: fields, i, .close, s =>
    if field.missing == .defaulted then decodeItems r place fields (i + 1) .close s
    else failure (.shortSequence i r.expectedSequence)

/-- The members of the encoding of a record. -/
def encodeFields (r : Record σ) (s : σ) : List (String × Json) :=
  r.fields.filterMap fun field => (field.encode s).map fun j => (field.name, j)

/-- The codec of a record type. -/
def codec (r : Record σ) : Codec σ where
  decode place
    | .object members =>
      match place.enter with
      | .error e => .error e
      | .ok inner => r.decodeObject inner members
    | .array items =>
      match place.enter with
      | .error e => .error e
      | .ok inner => r.decodeItems inner r.fields 0 items r.initial
    | d => mismatch r.expected d
  encode s := .object (r.encodeFields s)

end Record

end FinanceGateway.Json
