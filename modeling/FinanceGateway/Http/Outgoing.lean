import FinanceGateway.Http.Mime
import FinanceGateway.Json.Printer
import FinanceGateway.Url.Address

/-!
# Requests to the backend and its replies

A request as it is handed to the HTTP library, and what comes of it. The library is assumed to send
a request once and to follow no redirect: what is handed to it is all that is sent, and the reply is
the answer to that very request. The payload keeps its structure; `Payload.contentType` and
`Payload.body` are how it travels, the parts of a form between lines with a boundary.
-/

namespace FinanceGateway

/-- A part of a form. -/
structure Part where
  name : String
  fileName : Option String := none
  contentType : Option Mime := none
  data : Bytes
  deriving Repr, DecidableEq

/-- What a request carries. -/
inductive Payload
  | empty
  | json (value : Json)
  | form (parts : List Part)

/-- A request to the backend, but for the Accept header, which is the same in all of them. -/
structure Outgoing where
  method : String
  url : Url
  /-- The values of the Authorization header. -/
  authorization : List Bytes
  payload : Payload

/-- What comes back for a request that was sent once, whatever its status. -/
inductive Reply
  /-- The host cannot be reached, or closes the connection without an answer. -/
  | unreached
  /-- The body ends before its announced length. -/
  | truncated
  | answer (status : Nat) (body : Bytes)
  deriving Repr, DecidableEq

namespace Part

/-- Whether a byte stands for itself in the name of a part. -/
def keptInName (b : UInt8) : Bool :=
  Url.keptInPath b && !(b == 0x25 || b == 0x2F)

/-- The name of a part as an attribute: quoted, or in percent codes where some are needed. -/
def nameChars (name : String) : List Char :=
  let bytes := Utf8.encode name
  if bytes.all keptInName then "name=\"".toList ++ name.toList ++ ['"']
  else "name*=utf-8''".toList ++ Percent.encodeBytes keptInName bytes

/-- A character of a file name, quotes and line breaks after a backslash. -/
def fileNameChar (c : Char) : List Char :=
  if c == '\\' || c == '"' || c == '\r' || c == '\n' then ['\\', c] else [c]

/-- The headers of a part. -/
def headerChars (p : Part) : List Char :=
  let file := match p.fileName with
    | some f => "; filename=\"".toList ++ f.toList.flatMap fileNameChar ++ ['"']
    | none => []
  let type := match p.contentType with
    | some m => "\r\nContent-Type: ".toList ++ m.text.toList
    | none => []
  "Content-Disposition: form-data; ".toList ++ nameChars p.name ++ file ++ type

/-- A part between boundaries. -/
def bytes (boundary : String) (p : Part) : Bytes :=
  Utf8.encode ("--" ++ boundary ++ "\r\n" ++ String.ofList p.headerChars ++ "\r\n\r\n") ++
    p.data ++ Utf8.encode "\r\n"

end Part

namespace Payload

/-- The content type of a payload. -/
def contentType (boundary : String) : Payload → Option String
  | .empty => none
  | .json _ => some "application/json"
  | .form _ => some ("multipart/form-data; boundary=" ++ boundary)

/-- The bytes of a payload. -/
def body (boundary : String) : Payload → Bytes
  | .empty => []
  | .json value => Utf8.encode value.compact
  | .form parts => parts.flatMap (Part.bytes boundary) ++ Utf8.encode ("--" ++ boundary ++ "--\r\n")

end Payload

/-- Whether the bytes can be the value of a header: no controls but the tab. -/
def isHeaderValue (bytes : Bytes) : Bool :=
  bytes.all fun b => (0x20 ≤ b && b != 0x7F) || b == 0x09

/-- The value that carries a token. -/
def bearer (token : String) : Bytes :=
  Utf8.encode ("Bearer " ++ token)

/-- The value that carries a user name and password. -/
def basic (login : Bytes) : Bytes :=
  Utf8.encode ("Basic " ++ String.ofList (Base64.encodeChars login))

end FinanceGateway
