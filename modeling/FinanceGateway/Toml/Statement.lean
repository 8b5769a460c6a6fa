import FinanceGateway.Toml.Branch
import FinanceGateway.Toml.Number

/-!
# Statements of a TOML document

A document is a list of statements: a key with a value, the header of a table, or the header of a
table in an array. Arrays may span lines and end in a comma, inline tables may do neither. Keys have
fewer than eighty parts, and values are nested less than eighty deep.
-/

namespace FinanceGateway.Toml

/-- How many parts a key cannot have, and how deep values cannot be nested. -/
def depthLimit : Nat := 80

/-! ## Keys -/

/-- Whether a character can stand in a key without quotes. -/
def isBare (c : Char) : Bool :=
  c.isAlphanum || c == '-' || c == '_'

/-- One part of a key, without the blanks around it. -/
def readKeyPart (cs : List Char) : Option (String × List Char) :=
  match cs with
  | '"' :: rest => (readQuoted (rest.length + 1) rest).map fun (k, r) => (String.ofList k, r)
  | '\x27' :: rest => (readLiteral rest).map fun (k, r) => (String.ofList k, r)
  | cs =>
    let bare := cs.takeWhile isBare
    if bare.isEmpty then none else some (String.ofList bare, cs.dropWhile isBare)

/-- The parts of a key from the next one on, with the blanks around them. -/
def readKeyParts : Nat → List Char → Option (List String × List Char)
  | 0, _ => none
  | fuel + 1, cs => do
    let (part, rest) ← readKeyPart (skipBlank cs)
    match skipBlank rest with
    | '.' :: more => do
      let (parts, rest) ← readKeyParts fuel more
      some (part :: parts, rest)
    | rest => some ([part], rest)

/-- A key: the path to its last part, the last part, and what follows. -/
def readKey (cs : List Char) : Option ((List String × String) × List Char) := do
  let (parts, rest) ← readKeyParts depthLimit cs
  let last ← parts.getLast?
  if depthLimit ≤ parts.length then none else some ((parts.dropLast, last), rest)

/-! ## Values -/

/-- What follows a word. -/
def dropWord? (word : String) (cs : List Char) : Option (List Char) :=
  if word.toList.isPrefixOf cs then some (cs.drop word.length) else none

mutual

/-- A value; `depth` is how many more arrays and inline tables may be opened. -/
def readValue : Nat → Nat → List Char → Option (Toml × List Char)
  | 0, _, _ => none
  | _, _, [] => none
  | fuel + 1, depth, c :: rest =>
    if c == '"' || c == '\x27' then (readText (c :: rest)).map fun (s, r) => (.text s, r)
    else if c == '[' then
      match depth with
      | 0 => none
      | depth + 1 =>
        match skipFiller false rest with
        | ']' :: after => some (.array [], after)
        | rest => (readItems fuel depth rest).map fun (items, r) => (.array items, r)
    else if c == '\x7b' then
      match depth with
      | 0 => none
      | depth + 1 =>
        match skipBlank rest with
        | '\x7d' :: after => some (.table [], after)
        | rest => (readPairs fuel depth {} rest).map fun (branch, r) => (branch.node.value, r)
    else if c == 't' then (dropWord? "true" (c :: rest)).map fun r => (.flag true, r)
    else if c == 'f' then (dropWord? "false" (c :: rest)).map fun r => (.flag false, r)
    else readNumber (c :: rest)

/-- The items of an array that is not empty, up to and with its bracket. -/
def readItems : Nat → Nat → List Char → Option (List Toml × List Char)
  | 0, _, _ => none
  | fuel + 1, depth, cs => do
    let (item, rest) ← readValue fuel depth cs
    match skipFiller false rest with
    | ']' :: rest => some ([item], rest)
    | ',' :: rest =>
      match skipFiller false rest with
      | ']' :: rest => some ([item], rest)
      | rest => do
        let (items, rest) ← readItems fuel depth rest
        some (item :: items, rest)
    | _ => none

/-- The pairs of an inline table that is not empty, added to a branch, up to and with its brace. -/
def readPairs : Nat → Nat → Branch → List Char → Option (Branch × List Char)
  | 0, _, _, _ => none
  | fuel + 1, depth, branch, cs => do
    let ((path, key), rest) ← readKey cs
    let (value, rest) ← readValue fuel depth (skipBlank (← dropMark? '=' rest))
    let branch ← branch.define path key value
    match skipBlank rest with
    | '\x7d' :: rest => some (branch, rest)
    | ',' :: rest => readPairs fuel depth branch rest
    | _ => none

end

/-! ## Statements -/

/-- A statement of a document; the path of a key or header is given apart from its last part. -/
inductive Statement
  | pair (path : List String) (key : String) (value : Toml)
  | table (path : List String) (key : String)
  | element (path : List String) (key : String)

/-- A statement with its line, and what follows. -/
def readStatement (cs : List Char) : Option (Statement × List Char) :=
  match cs with
  | '[' :: '[' :: rest => do
    let ((path, key), rest) ← readKey rest
    let rest ← endLine? (← dropMark? ']' (← dropMark? ']' rest))
    some (.element path key, rest)
  | '[' :: rest => do
    let ((path, key), rest) ← readKey rest
    let rest ← endLine? (← dropMark? ']' rest)
    some (.table path key, rest)
  | cs => do
    let ((path, key), rest) ← readKey cs
    let rest := skipBlank (← dropMark? '=' rest)
    let (value, rest) ← readValue (2 * rest.length + 2) (depthLimit - 1) rest
    let rest ← endLine? rest
    some (.pair path key value, rest)

/-- The statements of a document. -/
def readStatements : Nat → List Char → Option (List Statement)
  | 0, _ => none
  | fuel + 1, cs =>
    match skipBlank cs with
    | [] => some []
    | c :: rest =>
      if c == '#' || c == '\n' || c == '\r' then do
        readStatements fuel (← endLine? (c :: rest))
      else do
        let (statement, rest) ← readStatement (c :: rest)
        let others ← readStatements fuel rest
        some (statement :: others)

end FinanceGateway.Toml
