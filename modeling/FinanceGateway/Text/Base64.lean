import FinanceGateway.Text.Utf8

/-!
# Base64

The standard alphabet with padding, as used for a user name and password in a header.
-/

namespace FinanceGateway.Base64

/-- The letter of a value below sixty-four. -/
def letter (n : Nat) : Char :=
  if n < 26 then Char.ofNat (65 + n)
  else if n < 52 then Char.ofNat (71 + n)
  else if n < 62 then Char.ofNat (n - 4)
  else if n == 62 then '+'
  else '/'

/-- The letters of a 24-bit group, the highest six bits first. -/
def letters (group : Nat) : List Char :=
  [letter (group / 262144), letter (group / 4096 % 64), letter (group / 64 % 64),
    letter (group % 64)]

/-- The bytes in groups of three, four letters each. -/
def encodeChars : Bytes → List Char
  | [] => []
  | [a] => (letters (a.toNat * 65536)).take 2 ++ ['=', '=']
  | [a, b] => (letters (a.toNat * 65536 + b.toNat * 256)).take 3 ++ ['=']
  | a :: b :: c :: rest =>
    letters (a.toNat * 65536 + b.toNat * 256 + c.toNat) ++ encodeChars rest

end FinanceGateway.Base64
