/-!
# Blank characters and trimming

White space in the sense of Unicode's White_Space property, which decides whether a token, a
metadata text or a message counts as blank, and the narrower ASCII set that an answer's body is
tested with. `trim` removes blank characters at both ends; a text is blank when nothing is left.
-/

namespace FinanceGateway.Text

/-- Characters with the Unicode property White_Space. -/
def isBlankChar (c : Char) : Bool :=
  let n := c.toNat
  (0x09 ≤ n && n ≤ 0x0D) || n == 0x20 || n == 0x85 || n == 0xA0 || n == 0x1680 ||
    (0x2000 ≤ n && n ≤ 0x200A) || n == 0x2028 || n == 0x2029 || n == 0x202F || n == 0x205F ||
    n == 0x3000

/-- The characters without the blank ones at the end. -/
def trimEndChars (cs : List Char) : List Char :=
  (cs.reverse.dropWhile isBlankChar).reverse

/-- The characters without the blank ones at either end. -/
def trimChars (cs : List Char) : List Char :=
  trimEndChars (cs.dropWhile isBlankChar)

/-- The text without the blank characters at either end. -/
def trim (s : String) : String :=
  String.ofList (trimChars s.toList)

/-- Whether the text has no character that is not blank. -/
def isBlank (s : String) : Bool :=
  s.toList.all isBlankChar

/-- The trimmed text, when something is left of it. -/
def nonBlank? (s : String) : Option String :=
  if isBlank s then none else some (trim s)

/-- The bytes that count as ASCII white space: tab, line feed, form feed, carriage return, space. -/
def isAsciiBlank (b : UInt8) : Bool :=
  b == 0x09 || b == 0x0A || b == 0x0C || b == 0x0D || b == 0x20

/-- Equality up to the case of ASCII letters. -/
def eqIgnoreCase (s t : String) : Bool :=
  s.toList.map Char.toLower == t.toList.map Char.toLower

end FinanceGateway.Text
