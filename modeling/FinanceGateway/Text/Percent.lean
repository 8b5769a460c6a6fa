import FinanceGateway.Text.Hex

/-!
# Percent codes

A byte that may not stand as it is is written as a percent sign and two capital hexadecimal digits.
Which bytes may stand is a parameter. Decoding replaces every complete code and leaves all else as
it is, a percent sign without two digits included.
-/

namespace FinanceGateway.Percent

/-- Whether a byte is an ASCII letter or digit. -/
def isAlphanumeric (b : UInt8) : Bool :=
  (0x30 ≤ b && b ≤ 0x39) || (0x41 ≤ b && b ≤ 0x5A) || (0x61 ≤ b && b ≤ 0x7A)

/-- Whether a byte stands for itself in any part of a URL: letters, digits, `-`, `.`, `_`, `~`. -/
def isUnreserved (b : UInt8) : Bool :=
  isAlphanumeric b || b == 0x2D || b == 0x2E || b == 0x5F || b == 0x7E

/-- The code of a byte. -/
def code (b : UInt8) : List Char :=
  ['%', Hex.capitalDigit (b.toNat / 16), Hex.capitalDigit (b.toNat % 16)]

/-- A byte as it stands when `keep` holds of it, else its code. -/
def encodeByte (keep : UInt8 → Bool) (b : UInt8) : List Char :=
  if keep b then [Char.ofNat b.toNat] else code b

/-- The bytes with codes for those that may not stand. -/
def encodeBytes (keep : UInt8 → Bool) (bytes : Bytes) : List Char :=
  bytes.flatMap (encodeByte keep)

/-- The text with codes for all that is not unreserved. -/
def encode (s : String) : String :=
  String.ofList (encodeBytes isUnreserved (Utf8.encode s))

/-- The bytes with every complete code replaced. -/
def decode : Bytes → Bytes
  | [] => []
  | 0x25 :: hi :: lo :: rest =>
    match Hex.byteValue? hi, Hex.byteValue? lo with
    | some high, some low => UInt8.ofNat (high * 16 + low) :: decode rest
    | _, _ => 0x25 :: decode (hi :: lo :: rest)
  | b :: rest => b :: decode rest

/-- The text that a percent-coded text stands for, if its bytes are the UTF-8 form of one. -/
def decodeText? (s : String) : Option String :=
  Utf8.decode? (decode (Utf8.encode s))

end FinanceGateway.Percent
