import FinanceGateway.Gate.Header
import FinanceGateway.Http.Mime
import FinanceGateway.Text.Charset

/-!
# Reading an incoming form

A form body is a sequence of parts between lines that start with the boundary. What stands before
the first boundary and after the last one does not count. Each part has headers, of which the
disposition gives its name and file name and the content type its media type; a part without a name
is passed over. A body that breaks off, that is longer than any body may be, or whose headers are no
headers, is no form: `readParts` reads all parts or none.

A body is taken to arrive as one piece, so one that is too long is refused before any part is read.
-/

namespace FinanceGateway

/-- The most bytes that the body of a request may have. -/
def bodyLimit : Nat := 2097152

/-- A part of an incoming form. -/
structure FormPart where
  name : String
  fileName : Option String
  contentType : Option Mime
  data : Bytes
  deriving Repr, DecidableEq

namespace FormPart

/-! ## Searching bytes -/

/-- The bytes before and after the first occurrence of a pattern. -/
def splitAt? (pattern : Bytes) : Bytes → Option (Bytes × Bytes)
  | [] => if pattern.isEmpty then some ([], []) else none
  | b :: rest =>
    if pattern.isPrefixOf (b :: rest) then some ([], (b :: rest).drop pattern.length)
    else (splitAt? pattern rest).map fun (front, back) => (b :: front, back)

/-- Carriage return and line feed. -/
def lineEnd : Bytes := [0x0D, 0x0A]

/-! ## Headers of a part -/

/-- Whether a byte can stand in the name of a header. -/
def isNameByte (b : UInt8) : Bool :=
  b < 0x80 && Mime.isToken (Char.ofNat b.toNat)

/-- Whether a byte can stand in the value of a header. -/
def isValueByte (b : UInt8) : Bool :=
  (0x20 ≤ b && b != 0x7F) || b == 0x09

/-- Whether a byte is a blank or a tab. -/
def isPadding (b : UInt8) : Bool :=
  b == 0x20 || b == 0x09

/-- The rest after the end of a line, which may lack its carriage return. -/
def dropLineEnd? : Bytes → Option Bytes
  | 0x0D :: 0x0A :: rest => some rest
  | 0x0A :: rest => some rest
  | _ => none

/-- A header line and what follows it. -/
def readHeader? (bytes : Bytes) : Option ((String × Bytes) × Bytes) := do
  let name := bytes.takeWhile isNameByte
  match bytes.dropWhile isNameByte with
  | 0x3A :: after =>
    if name.isEmpty then none
    let body := after.dropWhile isPadding
    let value := ((body.takeWhile isValueByte).reverse.dropWhile isPadding).reverse
    let rest ← dropLineEnd? (body.dropWhile isValueByte)
    some ((Utf8.decodeLossy name, value), rest)
  | _ => none

/-- At most `limit` header lines up to an empty line. -/
def readHeaders? : Nat → Bytes → Option Headers
  | limit, bytes =>
    match dropLineEnd? bytes with
    | some _ => some []
    | none =>
      match limit with
      | 0 => none
      | limit + 1 => do
        let (header, rest) ← readHeader? bytes
        let more ← readHeaders? limit rest
        some (header :: more)

/-- The most headers that a part may have. -/
def headerLimit : Nat := 32

/-! ## Attributes of the disposition -/

/-- A quoted value up to a quote that no backslash precedes. -/
def quotedValue? : Bytes → Option Bytes
  | [] => none
  | 0x22 :: _ => some []
  | 0x5C :: 0x22 :: rest => (quotedValue? rest).map (0x22 :: ·)
  | b :: rest => (quotedValue? rest).map (b :: ·)

/-- The bytes after their ASCII white space. -/
def skipBlank (bytes : Bytes) : Bytes :=
  bytes.dropWhile Text.isAsciiBlank

/-- The value after the name of an attribute. -/
def attributeValue? (bytes : Bytes) : Option Bytes :=
  match skipBlank bytes with
  | 0x3D :: after =>
    match skipBlank after with
    | 0x22 :: rest => quotedValue? rest
    | rest => some (rest.takeWhile fun b => b != 0x3B && b != 0x20)
  | _ => none

/-- The value of the first attribute of a name. An attribute starts at the front, after a blank or a
semicolon, or right after an occurrence of its name that is part of another word; `skip` is how many
bytes of such an occurrence are left. -/
def attribute? (name : Bytes) : Nat → Bool → Bytes → Option Bytes
  | _, _, [] => none
  | skip + 1, _, _ :: rest => attribute? name skip (skip == 0) rest
  | 0, starts, b :: rest =>
    if name.isPrefixOf (b :: rest) then
      if starts then attributeValue? ((b :: rest).drop name.length)
      else attribute? name (name.length - 1) (name.length == 1) rest
    else attribute? name 0 (Text.isAsciiBlank b || b == 0x3B) rest

/-- The text of an attribute. -/
def attributeText? (disposition : Bytes) (name : String) : Option String :=
  (attribute? (Utf8.encode name) 0 true disposition).bind Utf8.decode?

/-! ## Parts -/

/-- The part with the given headers, if it has a name; the last header of a name counts. -/
def ofHeaders? (headers : Headers) (data : Bytes) : Option FormPart := do
  let headers : Headers := headers.reverse
  let disposition ← (headers.values "content-disposition").head?
  let name ← attributeText? disposition "name"
  some {
    name
    fileName := attributeText? disposition "filename"
    contentType := (headers.text? "content-type").bind Mime.parse?
    data }

/-- The parts from after a boundary on. -/
def readFrom (delimiter : Bytes) : Nat → Bytes → Option (List FormPart)
  | 0, _ => none
  | fuel + 1, bytes =>
    match bytes with
    | 0x2D :: 0x2D :: _ => some []
    | _ :: _ :: _ => do
      let afterLine ← match bytes.dropWhile isPadding with
        | 0x0D :: 0x0A :: rest => some rest
        | _ => none
      let (head, afterHead) ← splitAt? (lineEnd ++ lineEnd) afterLine
      let headers ← readHeaders? headerLimit (head ++ lineEnd ++ lineEnd)
      let (data, next) ← splitAt? (lineEnd ++ delimiter) afterHead
      let others ← readFrom delimiter fuel next
      match ofHeaders? headers data with
      | some part => some (part :: others)
      | none => some others
    | _ => none

/-- The parts of a body with a boundary. -/
def readParts (boundary : String) (body : Bytes) : Option (List FormPart) := do
  if bodyLimit < body.length then none
  let delimiter := Utf8.encode ("--" ++ boundary)
  let (_, rest) ← splitAt? delimiter body
  readFrom delimiter (rest.length + 1) rest

/-- The text of a part, in the character set that its content type names. -/
def text (others : Charset.Others) (part : FormPart) : String :=
  Charset.decode others (part.contentType.bind Mime.charset?) part.data

end FormPart

end FinanceGateway
