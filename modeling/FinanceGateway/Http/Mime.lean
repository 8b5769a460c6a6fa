import FinanceGateway.Text.Blank
import FinanceGateway.Text.Utf8

/-!
# Media types

The type of a body: a type, a subtype with an optional suffix after `+`, and parameters.
`Mime.parse?` reads one and `Mime.text` writes it: type, subtype and the names of parameters small,
and so the value of `charset`; other values and the blanks between parameters as they were.
-/

namespace FinanceGateway

/-- A parameter of a media type, with the blanks around it. -/
structure Mime.Parameter where
  lead : List Char
  name : List Char
  value : List Char
  isQuoted : Bool
  trail : List Char
  deriving Repr, DecidableEq

/-- A media type; `rest` is what follows the last parameter. -/
structure Mime where
  type : List Char
  subtype : List Char
  parameters : List Mime.Parameter
  rest : List Char
  deriving Repr, DecidableEq

namespace Mime

/-- Whether a character can stand in a name. -/
def isToken (c : Char) : Bool :=
  c.isAlphanum || "!#$%&'*+-.^_|~".toList.contains c || c == '\x60'

/-- Whether a character can stand between quotes. -/
def isQuotable (c : Char) : Bool :=
  0x20 ≤ c.toNat && c != '\x7F'

/-- What follows the `=` of a parameter: the value, whether it is quoted, the blanks after it, and
the rest. -/
def readValue (cs : List Char) : Option (List Char × Bool × List Char × List Char) :=
  match cs with
  | '"' :: first :: more =>
    if !isQuotable first then none
    else
      let value := first :: more.takeWhile fun c => isQuotable c && c != '"'
      match more.dropWhile fun c => isQuotable c && c != '"' with
      | '"' :: after => some (value, true, after.takeWhile (· == ' '), after.dropWhile (· == ' '))
      | _ => none
  | ['"'] => none
  | ';' :: _ => none
  | cs => some (cs.takeWhile isToken, false, [], cs.dropWhile isToken)

/-- The parameters after a semicolon, and what follows the last of them. -/
def readParameters : Nat → List Char → Option (List Parameter × List Char)
  | 0, _ => none
  | fuel + 1, cs =>
    let lead := cs.takeWhile (· == ' ')
    let body := cs.dropWhile (· == ' ')
    if body.isEmpty then some ([], lead)
    else
      match body.takeWhile isToken, body.dropWhile isToken with
      | first :: more, '=' :: after => do
        let (value, isQuoted, trail, rest) ← readValue after
        let parameter : Parameter := ⟨lead, first :: more, value, isQuoted, trail⟩
        match rest with
        | [] => some ([parameter], [])
        | ';' :: next =>
          let (others, tail) ← readParameters fuel next
          some (parameter :: others, if others.isEmpty then ';' :: tail else tail)
        | _ => none
      | _, _ => none

/-- Reads a media type. -/
def parse? (s : String) : Option Mime := do
  let cs := s.toList
  match cs.takeWhile isToken, cs.dropWhile isToken with
  | first :: more, '/' :: after =>
    let subtype := (after.takeWhile isToken).map Char.toLower
    let type := (first :: more).map Char.toLower
    match after.dropWhile isToken with
    | [] => some { type, subtype, parameters := [], rest := [] }
    | ';' :: params =>
      if subtype.isEmpty then none
      let (parameters, rest) ← readParameters (params.length + 1) params
      some { type, subtype, parameters, rest := if parameters.isEmpty then [] else rest }
    | _ => none
  | _, _ => none

/-- The characters of a parameter. -/
def Parameter.chars (p : Parameter) : List Char :=
  let name := p.name.map Char.toLower
  let value := if name == "charset".toList then p.value.map Char.toLower else p.value
  let quote := if p.isQuoted then ['"'] else []
  ';' :: p.lead ++ name ++ '=' :: quote ++ value ++ quote ++ p.trail

/-- The text of a media type. -/
def text (m : Mime) : String :=
  String.ofList (m.type ++ '/' :: m.subtype ++ m.parameters.flatMap Parameter.chars ++ m.rest)

/-- The subtype without its suffix, and the suffix after the last `+`. -/
def splitSuffix (m : Mime) : List Char × Option (List Char) :=
  let suffix := (m.subtype.reverse.takeWhile (· != '+')).reverse
  let front := m.subtype.take (m.subtype.length - suffix.length - 1)
  if front.isEmpty then (m.subtype, none) else (front, some suffix)

/-- Whether a body of the type is JSON. -/
def isJson (m : Mime) : Bool :=
  let (subtype, suffix) := m.splitSuffix
  m.type == "application".toList && (subtype == "json".toList || suffix == some "json".toList)

/-- The value of the first parameter of a name, which is given in small letters. -/
def parameter? (m : Mime) (name : String) : Option String :=
  (m.parameters.find? fun p => p.name.map Char.toLower == name.toList).map fun p =>
    String.ofList p.value

/-- The name of the character set of a text. -/
def charset? (m : Mime) : Option String :=
  m.parameter? "charset"

/-- The boundary between the parts of a form. -/
def formBoundary? (m : Mime) : Option String :=
  if m.type == "multipart".toList && m.splitSuffix.1 == "form-data".toList then
    m.parameter? "boundary"
  else none

end Mime

end FinanceGateway
