import FinanceGateway.Text.Hex

/-!
# Blanks, comments and texts of TOML

The smallest parts of a TOML document: what may stand between tokens, how a line ends, and the four
forms of a text, in quotes or apostrophes, on one line or on several.
-/

namespace FinanceGateway.Toml

/-- Whether a character is a blank or a tab. -/
def isBlank (c : Char) : Bool :=
  c == ' ' || c == '\t'

/-- Whether a character can stand in a line: no control but the tab. -/
def isPlain (c : Char) : Bool :=
  c == '\t' || (0x20 ≤ c.toNat && c.toNat != 0x7F)

/-- What follows the blanks. -/
def skipBlank (cs : List Char) : List Char :=
  cs.dropWhile isBlank

/-- What follows the end of a line. -/
def lineEnd? : List Char → Option (List Char)
  | '\n' :: rest => some rest
  | '\r' :: '\n' :: rest => some rest
  | _ => none

/-- What follows a comment, if there is one. -/
def skipComment : List Char → List Char
  | '#' :: rest => rest.dropWhile isPlain
  | cs => cs

/-- What follows blanks, a comment and the end of the line or of the text. -/
def endLine? (cs : List Char) : Option (List Char) :=
  match skipComment (skipBlank cs) with
  | [] => some []
  | rest => lineEnd? rest

/-- What follows blanks, line ends and comments; the flag is whether a comment is open. -/
def skipFiller : Bool → List Char → List Char
  | _, [] => []
  | _, '\n' :: rest => skipFiller false rest
  | _, '\r' :: '\n' :: rest => skipFiller false rest
  | true, c :: rest => if isPlain c then skipFiller true rest else c :: rest
  | false, c :: rest =>
    if isBlank c then skipFiller false rest
    else if c == '#' then skipFiller true rest
    else c :: rest

/-- What follows blanks and line ends. -/
def skipBlankLines : List Char → List Char
  | [] => []
  | '\n' :: rest => skipBlankLines rest
  | '\r' :: '\n' :: rest => skipBlankLines rest
  | c :: rest => if isBlank c then skipBlankLines rest else c :: rest

/-! ## Escapes -/

/-- The character that hexadecimal digits stand for. -/
def charOf? (digits : List Char) : Option Char := do
  let n ← digits.foldlM (fun acc d => (Hex.value? d).map (acc * 16 + ·)) 0
  if h : n.isValidChar then some (Char.ofNatAux n h) else none

/-- The character that an escape of one letter stands for. -/
def escapeOf? (c : Char) : Option Char :=
  match c with
  | 'b' => some '\x08'
  | 't' => some '\t'
  | 'n' => some '\n'
  | 'f' => some '\x0C'
  | 'r' => some '\r'
  | '"' => some '"'
  | '\\' => some '\\'
  | _ => none

/-- The character of an escape, from after the backslash. -/
def readEscape : List Char → Option (Char × List Char)
  | 'u' :: a :: b :: c :: d :: rest => (charOf? [a, b, c, d]).map (·, rest)
  | 'U' :: a :: b :: c :: d :: e :: f :: g :: h :: rest =>
    (charOf? [a, b, c, d, e, f, g, h]).map (·, rest)
  | c :: rest => (escapeOf? c).map (·, rest)
  | [] => none

/-! ## Texts -/

/-- A text in quotes on one line, from after its opening quote. -/
def readQuoted : Nat → List Char → Option (List Char × List Char)
  | 0, _ => none
  | _, [] => none
  | _, '"' :: rest => some ([], rest)
  | fuel + 1, '\\' :: rest => do
    let (c, rest) ← readEscape rest
    let (cs, rest) ← readQuoted fuel rest
    some (c :: cs, rest)
  | fuel + 1, c :: rest =>
    if isPlain c then (readQuoted fuel rest).map fun (cs, rest) => (c :: cs, rest) else none

/-- A text in apostrophes on one line, from after its opening apostrophe. -/
def readLiteral (cs : List Char) : Option (List Char × List Char) :=
  match cs.dropWhile fun c => isPlain c && c != '\x27' with
  | '\x27' :: rest => some (cs.takeWhile fun c => isPlain c && c != '\x27', rest)
  | _ => none

/-- The end of a text on several lines: up to two marks that belong to it, then three. -/
def readTripleEnd (mark : Char) (cs : List Char) : Option (List Char × List Char) :=
  let run := (cs.takeWhile (· == mark)).length
  if run < 3 then none
  else
    let extra := min (run - 3) 2
    some (List.replicate extra mark, cs.drop (extra + 3))

/-- Whether a line ends after blanks. -/
def endsLine (cs : List Char) : Bool :=
  (lineEnd? (skipBlank cs)).isSome

/-- A text on several lines, from after its opening marks; `escapes` is whether it is in quotes. -/
def readLines (mark : Char) (escapes : Bool) : Nat → List Char → Option (List Char × List Char)
  | 0, _ => none
  | _, [] => none
  | fuel + 1, c :: rest =>
    if c == mark then
      match readTripleEnd mark (c :: rest) with
      | some found => some found
      | none => (readLines mark escapes fuel rest).map fun (cs, rest) => (c :: cs, rest)
    else if escapes && c == '\\' then
      if endsLine rest then
        readLines mark escapes fuel (skipBlankLines rest)
      else do
        let (x, rest) ← readEscape rest
        let (cs, rest) ← readLines mark escapes fuel rest
        some (x :: cs, rest)
    else match lineEnd? (c :: rest) with
      | some rest => (readLines mark escapes fuel rest).map fun (cs, rest) => ('\n' :: cs, rest)
      | none =>
        if isPlain c then
          (readLines mark escapes fuel rest).map fun (cs, rest) => (c :: cs, rest)
        else none

/-- What follows a line end right after the opening marks. -/
def skipFirstLineEnd (cs : List Char) : List Char :=
  (lineEnd? cs).getD cs

/-- A text in any of its forms. -/
def readText (cs : List Char) : Option (String × List Char) :=
  let text (found : Option (List Char × List Char)) : Option (String × List Char) :=
    found.map fun (cs, rest) => (String.ofList cs, rest)
  match cs with
  | '"' :: '"' :: '"' :: rest => text (readLines '"' true (rest.length + 1) (skipFirstLineEnd rest))
  | '\x27' :: '\x27' :: '\x27' :: rest =>
    text (readLines '\x27' false (rest.length + 1) (skipFirstLineEnd rest))
  | '"' :: rest => text (readQuoted (rest.length + 1) rest)
  | '\x27' :: rest => text (readLiteral rest)
  | _ => none

end FinanceGateway.Toml
