import FinanceGateway.Dictionary

/-!
# JSON values

Numbers keep the difference between integers and binary64 numbers, since decoders tell them apart.
The members of an object that a reader makes are a dictionary: in ascending order of their names,
the last value of each name. An encoder may list the members in an order of its own.
-/

namespace FinanceGateway

/-- A JSON number: an integer of at most 64 bits, or a binary64 number. -/
inductive Number
  | int (value : Int)
  | real (value : Float)

/-- A JSON value. -/
inductive Json
  | null
  | bool (value : Bool)
  | number (value : Number)
  | text (value : String)
  | array (items : List Json)
  | object (members : List (String × Json))

namespace Json

instance : Inhabited Json := ⟨.null⟩

/-- The value of an integer. -/
def int (i : Int) : Json :=
  .number (.int i)

/-- The value of a binary64 number; one that is not finite has no JSON number and is null. -/
def real (x : Float) : Json :=
  if x.isFinite then .number (.real x) else .null

/-- The value of an optional text. -/
def optionalText : Option String → Json
  | some s => .text s
  | none => .null

/-- The object of a list of members, the last of each name. -/
def ofMembers (members : List (String × Json)) : Json :=
  .object (Dictionary.ofList members)

/-- The member of an object with a name. -/
def get? : Json → String → Option Json
  | .object members, key => Dictionary.get? members key
  | _, _ => none

mutual

/-- The value with the members of every object in ascending order, the last of each name. -/
def sorted : Json → Json
  | .array items => .array (sortedItems items)
  | .object members => ofMembers (sortedMembers members)
  | other => other

/-- `sorted` over the items of an array. -/
def sortedItems : List Json → List Json
  | [] => []
  | item :: rest => sorted item :: sortedItems rest

/-- `sorted` over the members of an object. -/
def sortedMembers : List (String × Json) → List (String × Json)
  | [] => []
  | (key, value) :: rest => (key, sorted value) :: sortedMembers rest

end

end Json

end FinanceGateway
