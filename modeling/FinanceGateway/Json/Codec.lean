import FinanceGateway.Json.DecodeError
import FinanceGateway.Json.Scan

/-!
# Codecs

A `Codec` decodes drafts into values of a type and encodes them as JSON. This module has those of
the basic shapes: texts, flags, numbers, enumerations, options, lists, maps, any JSON, and the unit
value. `decodeText` decodes a whole text, `decodePrefix` the first value of one, and `decodeJson` a
value that is no text. The law of a codec is `Codec.RoundTrips`: a value decodes from its encoding.
-/

namespace FinanceGateway.Json

/-- Where a draft comes from. -/
inductive Origin
  | text
  | value
  deriving Repr, DecidableEq

/-- What a decoder knows of its place: the origin, and how many more brackets a text may open. -/
structure Reading where
  origin : Origin
  depth : Nat

/-- The place inside an array or object. -/
def Reading.enter (r : Reading) : Decoded Reading :=
  match r.origin, r.depth with
  | .value, _ => .ok r
  | .text, depth => if depth ≤ 1 then flawed .tooDeep else .ok ⟨.text, depth - 1⟩

/-- A decoder and an encoder. -/
structure Codec (α : Type) where
  decode : Reading → Draft → Decoded α
  encode : α → Json

/-- What a message names at a draft, or the flaw that stands there. -/
def Draft.found : Draft → Except Flaw Found
  | .null => .ok .null
  | .bool b => .ok (.bool b)
  | .number n => n.map .number
  | .text s => s.map .text
  | .array _ => .ok .sequence
  | .object _ => .ok .map
  | .absent => .error .endInValue
  | .broken _ strict _ => .error strict

/-- The fault of a draft that is not what is expected. -/
def mismatch {α : Type} (expected : String) (d : Draft) : Decoded α :=
  match d.found with
  | .ok found => failure (.mismatch found expected)
  | .error flaw => flawed flaw

namespace Codec

/-- Texts. -/
def text : Codec String where
  decode _
    | .text (.ok s) => .ok s
    | d => mismatch "a string" d
  encode := .text

/-- Truth values. -/
def flag : Codec Bool where
  decode _
    | .bool b => .ok b
    | d => mismatch "a boolean" d
  encode := .bool

/-- Binary64 numbers; an integer is rounded to one. -/
def real : Codec Float where
  decode _
    | .number (.ok (.real x)) => .ok x
    | .number (.ok (.int i)) => .ok (Float.ofInt i)
    | d => mismatch "f64" d
  encode := Json.real

/-- Integers from `low` to `high`. -/
def integer (expected : String) (low high : Int) : Codec Int where
  decode _
    | .number (.ok (.int i)) =>
      if low ≤ i && i ≤ high then .ok i else failure (.outOfRange i expected)
    | d => mismatch expected d
  encode := Json.int

/-- Natural numbers below `2 ^ bits`. -/
def natural (expected : String) (bits : Nat) : Codec Nat where
  decode r d := ((integer expected 0 (Nat.pow 2 bits - 1)).decode r d).map Int.toNat
  encode n := Json.int n

/-- Natural numbers of 8 bits. -/
def nat8 : Codec Nat := natural "u8" 8

/-- Natural numbers of 16 bits. -/
def nat16 : Codec Nat := natural "u16" 16

/-- Natural numbers of 32 bits. -/
def nat32 : Codec Nat := natural "u32" 32

/-- Integers of 32 bits. -/
def int32 : Codec Int := integer "i32" (-2147483648) 2147483647

/-- The unit value, written as null. -/
def unit : Codec Unit where
  decode _
    | .null => .ok ()
    | d => mismatch "unit" d
  encode _ := .null

/-- An optional value, absence being null. -/
def optional {α : Type} (c : Codec α) : Codec (Option α) where
  decode r
    | .null => .ok none
    | .broken .null flaw _ => flawed flaw
    | d => (c.decode r d).map some
  encode
    | some a => c.encode a
    | none => .null

/-- The items of a list from the `i`th on. -/
def decodeItems {α : Type} (c : Codec α) (r : Reading) : Nat → Items → Decoded (List α)
  | _, .close => .ok []
  | i, .broken strict _ => Decoded.at (.index i) (flawed strict)
  | i, .cons head tail =>
    match Decoded.at (.index i) (c.decode r head) with
    | .error e => .error e
    | .ok a => (decodeItems c r (i + 1) tail).map (a :: ·)

/-- Lists. -/
def list {α : Type} (c : Codec α) : Codec (List α) where
  decode r
    | .array items =>
      match r.enter with
      | .error e => .error e
      | .ok inner => decodeItems c inner 0 items
    | d => mismatch "a sequence" d
  encode xs := .array (xs.map c.encode)

/-- The entries of a map, added to those read before. -/
def decodeEntries {α : Type} (c : Codec α) (r : Reading) :
    Members → Dictionary α → Decoded (Dictionary α)
  | .close, acc => .ok acc
  | .broken strict _, _ => flawed strict
  | .keyless _, _ => flawed .keyNotString
  | .cons (.error flaw) _ _, _ => flawed flaw
  | .bare (.error flaw) _, _ => flawed flaw
  | .bare (.ok key) flaw, _ => Decoded.at (.field key) (flawed flaw)
  | .cons (.ok key) value tail, acc =>
    match Decoded.at (.field key) (c.decode r value) with
    | .error e => .error e
    | .ok a => decodeEntries c r tail (Dictionary.insert key a acc)

/-- Maps from texts, in ascending order of keys. -/
def map {α : Type} (c : Codec α) : Codec (Dictionary α) where
  decode r
    | .object members =>
      match r.enter with
      | .error e => .error e
      | .ok inner => decodeEntries c inner members []
    | d => mismatch "a map" d
  encode entries := .object (entries.map fun e => (e.1, c.encode e.2))

/-! ## Enumerations -/

/-- The variant of a name. -/
def variant {α : Type} (variants : List (String × α)) (name : String) : Decoded α :=
  match variants.find? (·.1 == name) with
  | some (_, a) => .ok a
  | none => failure (.unknownVariant name (variants.map (·.1)))

/-- The variant named by the only member of an object, whose value is null. -/
def variantMember {α : Type} (variants : List (String × α)) (r : Reading) :
    Members → Decoded α
  | .close => flawed .expectedValue
  | .broken .endInObject _ => flawed .endInValue
  | .broken strict _ => flawed strict
  | .keyless found => mismatch "variant identifier" found
  | .cons (.error flaw) _ _ => flawed flaw
  | .bare (.error flaw) _ => flawed flaw
  | .bare (.ok name) flaw =>
    match variant variants name with
    | .error e => .error e
    | .ok _ => flawed flaw
  | .cons (.ok name) value tail =>
    match variant variants name with
    | .error e => .error e
    | .ok a =>
      match Decoded.at (.field name) (unit.decode r value), tail with
      | .error e, _ => .error e
      | .ok (), .close => .ok a
      | .ok (), .broken .endInObject _ => flawed .endInObject
      | .ok (), _ => flawed .expectedValue

/-- A variant, as its name or as an object with its name as the only key. -/
def enumeration {α : Type} (variants : List (String × α)) (name : α → String) : Codec α where
  decode r d :=
    match r.origin, d with
    | _, .text (.ok s) => variant variants s
    | .value, .object (.cons key value .close) => variantMember variants r (.cons key value .close)
    | .value, .object _ => failure .notSingleKey
    | .value, d => mismatch "string or map" d
    | .text, .object members => variantMember variants r members
    | .text, .text (.error flaw) => flawed flaw
    | .text, .absent => flawed .endInValue
    | .text, .broken .text flaw _ => flawed flaw
    | .text, _ => flawed .expectedValue
  encode a := .text (name a)

/-! ## Any JSON -/

mutual

/-- Any value of a draft. -/
def decodeAny (r : Reading) : Draft → Decoded Json
  | .null => .ok .null
  | .bool b => .ok (.bool b)
  | .number (.ok n) => .ok (.number n)
  | .number (.error flaw) => flawed flaw
  | .text (.ok s) => .ok (.text s)
  | .text (.error flaw) => flawed flaw
  | .absent => flawed .endInValue
  | .broken _ strict _ => flawed strict
  | .array items =>
    match r.enter with
    | .error e => .error e
    | .ok inner => (decodeAnyItems inner items).map .array
  | .object members =>
    match r.enter with
    | .error e => .error e
    | .ok inner => (decodeAnyMembers inner members []).map .object

/-- `decodeAny` over the items of an array. -/
def decodeAnyItems (r : Reading) : Items → Decoded (List Json)
  | .close => .ok []
  | .broken strict _ => flawed strict
  | .cons head tail =>
    match decodeAny r head with
    | .error e => .error e
    | .ok item => (decodeAnyItems r tail).map (item :: ·)

/-- `decodeAny` over the members of an object, the last of each name. -/
def decodeAnyMembers (r : Reading) :
    Members → List (String × Json) → Decoded (List (String × Json))
  | .close, acc => .ok acc
  | .broken strict _, _ => flawed strict
  | .keyless _, _ => flawed .keyNotString
  | .cons (.error flaw) _ _, _ => flawed flaw
  | .bare (.error flaw) _, _ => flawed flaw
  | .bare (.ok _) flaw, _ => flawed flaw
  | .cons (.ok key) value tail, acc =>
    match decodeAny r value with
    | .error e => .error e
    | .ok item => decodeAnyMembers r tail (Dictionary.insert key item acc)

end

/-- Any JSON. -/
def any : Codec Json where
  decode := decodeAny
  encode := id

/-! ## Whole texts -/

/-- How many brackets a text may leave open at once, plus one. -/
def depthLimit : Nat := 128

/-- Decodes a value that is no text. -/
def decodeJson {α : Type} (c : Codec α) (j : Json) : Decoded α :=
  c.decode ⟨.value, depthLimit⟩ (Draft.ofJson j)

/-- Decodes the first value of a text, whatever follows it. -/
def decodePrefix {α : Type} (c : Codec α) (bytes : Bytes) : Decoded α :=
  c.decode ⟨.text, depthLimit⟩ (Draft.ofBytes bytes).1

/-- Decodes a text that holds one value and nothing else. -/
def decodeText {α : Type} (c : Codec α) (bytes : Bytes) : Decoded α :=
  let (draft, rest) := Draft.ofBytes bytes
  match c.decode ⟨.text, depthLimit⟩ draft with
  | .error e => .error e
  | .ok a => if (skipSpace (rest.getD [])).isEmpty then .ok a else flawed .trailingCharacters

/-- A value decodes from its encoding. -/
def RoundTrips {α : Type} (c : Codec α) (a : α) : Prop :=
  c.decodeJson (c.encode a) = .ok a

end Codec

end FinanceGateway.Json
