import FinanceGateway.Text.Utf8

/-!
# Hexadecimal digits

The value of a hexadecimal digit in either case, the two digits of a byte, and byte strings
written as digits.
-/

namespace FinanceGateway.Hex

/-- The value of a hexadecimal digit. -/
def value? (c : Char) : Option Nat :=
  if '0' ≤ c && c ≤ '9' then some (c.toNat - 48)
  else if 'a' ≤ c && c ≤ 'f' then some (c.toNat - 87)
  else if 'A' ≤ c && c ≤ 'F' then some (c.toNat - 55)
  else none

/-- The digit of a value below sixteen, letters small. -/
def digit (n : Nat) : Char :=
  if n < 10 then Char.ofNat (48 + n) else Char.ofNat (87 + n)

/-- The digit of a value below sixteen, letters capital. -/
def capitalDigit (n : Nat) : Char :=
  if n < 10 then Char.ofNat (48 + n) else Char.ofNat (55 + n)

/-- The value of a byte read as an ASCII digit. -/
def byteValue? (b : UInt8) : Option Nat :=
  value? (Char.ofNat b.toNat)

/-- The bytes as pairs of small digits. -/
def encode (bytes : Bytes) : String :=
  String.ofList (bytes.flatMap fun b => [digit (b.toNat / 16), digit (b.toNat % 16)])

/-- The bytes that the pairs of digits stand for. -/
def decodeChars? : List Char → Option Bytes
  | [] => some []
  | [_] => none
  | hi :: lo :: rest => do
    let high ← value? hi
    let low ← value? lo
    let tail ← decodeChars? rest
    pure (UInt8.ofNat (high * 16 + low) :: tail)

/-- The bytes that a text of digits stands for. -/
def decode? (s : String) : Option Bytes :=
  decodeChars? s.toList

end FinanceGateway.Hex
