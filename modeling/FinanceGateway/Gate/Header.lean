import FinanceGateway.Text.Blank
import FinanceGateway.Text.Form

/-!
# Headers and cookies of an incoming request

The headers of a request in their order, and the cookies they carry. A header value is bytes; it is
a text only when all of them are visible ASCII, blanks or tabs.
-/

namespace FinanceGateway

/-- The headers of a request: names and values. -/
abbrev Headers := List (String × Bytes)

namespace Headers

/-- The text of a header value, if it is visible ASCII. -/
def visible? (value : Bytes) : Option String :=
  if value.all fun b => (0x20 ≤ b && b < 0x7F) || b == 0x09 then
    some (String.ofList (value.map fun b => Char.ofNat b.toNat))
  else none

/-- The values of a header. -/
def values (headers : Headers) (name : String) : List Bytes :=
  (headers.filter fun h => Text.eqIgnoreCase h.1 name).map (·.2)

/-- The text of the first value of a header. -/
def text? (headers : Headers) (name : String) : Option String :=
  (headers.values name).head?.bind visible?

end Headers

/-- A cookie. -/
structure Cookie where
  name : String
  value : String
  deriving Repr, DecidableEq

namespace Cookie

/-- A cookie written as `name=value`, both with percent codes and blanks around them. -/
def parse? (piece : Bytes) : Option Cookie := do
  let (front, back) := Form.splitFirst 0x3D piece
  let back ← back
  let name := Text.trim (← Utf8.decode? front)
  let value := Text.trim (← Utf8.decode? back)
  if name.isEmpty then none
  else some ⟨← Percent.decodeText? name, ← Percent.decodeText? value⟩

/-- The cookies of a request, in the order in which they are sent. -/
def ofHeaders (headers : Headers) : List Cookie :=
  (headers.values "cookie").flatMap fun value =>
    if (Headers.visible? value).isSome then (Form.splitAll 0x3B value).filterMap parse? else []

/-- The value of a name: that of the last cookie with it. -/
def value? (cookies : List Cookie) (name : String) : Option String :=
  (cookies.reverse.find? (·.name == name)).map (·.value)

end Cookie

end FinanceGateway
