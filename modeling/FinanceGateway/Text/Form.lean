import FinanceGateway.Text.Percent

/-!
# Form-urlencoded pairs

Names and values as they stand in the query of a URL: joined by `=`, separated by `&`, a space
written as `+`, all else but letters, digits and `*-._` in percent codes.
-/

namespace FinanceGateway.Form

/-- Whether a byte stands for itself. -/
def isPlain (b : UInt8) : Bool :=
  Percent.isAlphanumeric b || b == 0x2A || b == 0x2D || b == 0x2E || b == 0x5F

/-- A byte of a name or value. -/
def encodeByte (b : UInt8) : List Char :=
  if b == 0x20 then ['+'] else Percent.encodeByte isPlain b

/-- A name or value. -/
def encodeChars (s : String) : List Char :=
  (Utf8.encode s).flatMap encodeByte

/-- A pair. -/
def encodePair (pair : String × String) : List Char :=
  encodeChars pair.1 ++ '=' :: encodeChars pair.2

/-- A list of pairs. -/
def encodePairs : List (String × String) → List Char
  | [] => []
  | [pair] => encodePair pair
  | pair :: rest => encodePair pair ++ '&' :: encodePairs rest

/-- The bytes up to the first separator, and those after it, if there is one. -/
def splitFirst (separator : UInt8) : Bytes → Bytes × Option Bytes
  | [] => ([], none)
  | b :: rest =>
    if b == separator then ([], some rest)
    else
      let (front, back) := splitFirst separator rest
      (b :: front, back)

/-- The pieces between separators. -/
def splitAll (separator : UInt8) : Bytes → List Bytes
  | [] => [[]]
  | b :: rest =>
    if b == separator then [] :: splitAll separator rest
    else match splitAll separator rest with
      | [] => [[b]]
      | piece :: pieces => (b :: piece) :: pieces

/-- The text of a name or value; bytes that are no UTF-8 give U+FFFD. -/
def decodeText (bytes : Bytes) : String :=
  Utf8.decodeLossy (Percent.decode (bytes.map fun b => if b == 0x2B then 0x20 else b))

/-- The pairs of a query; a piece without `=` has an empty value, an empty piece is no pair. -/
def decodePairs (bytes : Bytes) : List (String × String) :=
  ((splitAll 0x26 bytes).filter fun piece => !piece.isEmpty).map fun piece =>
    let (name, value) := splitFirst 0x3D piece
    (decodeText name, decodeText (value.getD []))

end FinanceGateway.Form
