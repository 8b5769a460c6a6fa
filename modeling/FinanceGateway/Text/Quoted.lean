import FinanceGateway.Text.Glyph

/-!
# Quoted texts in messages

The form in which a message shows a text it complains about: between double quotes, with quotes,
backslashes and the usual control characters escaped by a backslash, and characters without a glyph
of their own written by number.
-/

namespace FinanceGateway.Text

/-- The code point of a character in lower-case hexadecimal, without leading zeros. -/
def codePoint (c : Char) : List Char :=
  '\\' :: 'u' :: '\x7b' :: Nat.toDigits 16 c.toNat ++ ['\x7d']

/-- One character of a quoted text. -/
def quotedChar (c : Char) : List Char :=
  if c == '\x00' then ['\\', '0']
  else if c == '\t' then ['\\', 't']
  else if c == '\n' then ['\\', 'n']
  else if c == '\r' then ['\\', 'r']
  else if c == '"' then ['\\', '"']
  else if c == '\\' then ['\\', '\\']
  else if c.toNat < 0x20 || c == '\x7F' then codePoint c
  else if c.toNat < 0x7F || hasGlyph c then [c]
  else codePoint c

/-- The text between double quotes, escaped. -/
def quoted (s : String) : String :=
  String.ofList ('"' :: s.toList.flatMap quotedChar ++ ['"'])

/-- A list of texts as it stands in a log line: quoted, between brackets. -/
def quotedList (xs : List String) : String :=
  "[" ++ ", ".intercalate (xs.map quoted) ++ "]"

end FinanceGateway.Text
