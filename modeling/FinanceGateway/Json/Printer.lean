import FinanceGateway.Decimal.Layout
import FinanceGateway.Json.Value
import FinanceGateway.Text.Hex

/-!
# The compact text of a JSON value

No blank between tokens, members in the order of the value, control characters escaped and all
other characters as they are.
-/

namespace FinanceGateway.Json

/-- One character of a JSON string. -/
def escapedChar (c : Char) : List Char :=
  if c == '"' then ['\\', '"']
  else if c == '\\' then ['\\', '\\']
  else if c == '\n' then ['\\', 'n']
  else if c == '\r' then ['\\', 'r']
  else if c == '\t' then ['\\', 't']
  else if c == '\x08' then ['\\', 'b']
  else if c == '\x0C' then ['\\', 'f']
  else if c.toNat < 0x20 then
    ['\\', 'u', '0', '0', Hex.digit (c.toNat / 16), Hex.digit (c.toNat % 16)]
  else [c]

/-- A JSON string. -/
def textChars (s : String) : List Char :=
  '"' :: s.toList.flatMap escapedChar ++ ['"']

/-- A JSON number. -/
def numberChars : Number → List Char
  | .int i => Decimal.intChars i
  | .real x => if x.isFinite then Decimal.Layout.json.chars x else ['n', 'u', 'l', 'l']

mutual

/-- The characters of a value. -/
def chars : Json → List Char
  | .null => ['n', 'u', 'l', 'l']
  | .bool true => ['t', 'r', 'u', 'e']
  | .bool false => ['f', 'a', 'l', 's', 'e']
  | .number n => numberChars n
  | .text s => textChars s
  | .array items => '[' :: itemsChars items ++ [']']
  | .object members => '\x7b' :: membersChars members ++ ['\x7d']

/-- The items of an array, separated by commas. -/
def itemsChars : List Json → List Char
  | [] => []
  | [item] => chars item
  | item :: rest => chars item ++ ',' :: itemsChars rest

/-- The members of an object, separated by commas. -/
def membersChars : List (String × Json) → List Char
  | [] => []
  | [(key, value)] => textChars key ++ ':' :: chars value
  | (key, value) :: rest => textChars key ++ ':' :: chars value ++ ',' :: membersChars rest

end

/-- The compact text of a value. -/
def compact (j : Json) : String :=
  String.ofList (chars j)

end FinanceGateway.Json
