import FinanceGateway.Decimal.Reading
import FinanceGateway.Json.Draft
import FinanceGateway.Text.Hex

/-!
# From text to draft

The grammar of JSON over bytes. `Draft.ofBytes` reads one value and returns what follows it, when
the value is complete. Words, numbers and strings are scanned first; arrays and objects recurse over
them with a budget that the length of the text bounds.
-/

namespace FinanceGateway.Json

/-- The blank bytes between tokens. -/
def isSpace (b : UInt8) : Bool :=
  b == 0x20 || b == 0x0A || b == 0x09 || b == 0x0D

/-- The text after its leading blanks. -/
def skipSpace (bs : Bytes) : Bytes :=
  bs.dropWhile isSpace

/-- Whether a byte is an ASCII digit. -/
def isDigitByte (b : UInt8) : Bool :=
  0x30 ≤ b && b ≤ 0x39

/-- What a scan of one token finds: its strict reading and the rest, or a flaw in either reading. -/
inductive Scanned (α : Type)
  | ended (value : Except Flaw α) (rest : Bytes)
  | flawed (strict skimmed : Flaw)

/-! ## Words -/

/-- The rest after the letters of a word. -/
def scanWord : Bytes → Bytes → Except Flaw Bytes
  | [], rest => .ok rest
  | _ :: _, [] => .error .endInValue
  | w :: word, b :: rest => if b == w then scanWord word rest else .error .expectedWord

/-! ## Numbers -/

/-- Digits taken onto a significand while it stays within 64 bits, and the digits left. -/
def takeSignificand : Nat → Bytes → Nat × Bytes
  | acc, [] => (acc, [])
  | acc, d :: rest =>
    let next := acc * 10 + (d.toNat - 48)
    if next < Nat.pow 2 64 then takeSignificand next rest else (acc, d :: rest)

/-- The value of a run of digits. -/
def digitBytesValue (ds : Bytes) : Nat :=
  ds.foldl (fun acc d => acc * 10 + (d.toNat - 48)) 0

/-- A number with a fraction or an exponent, or too long for an integer. -/
def realNumber (negative : Bool) (whole fraction : Bytes) (exponent : Int) : Except Flaw Number :=
  let (first, leftover) := takeSignificand 0 whole
  let (significand, dropped) := takeSignificand first fraction
  let places : Int := leftover.length - (fraction.length - dropped.length)
  match Decimal.scaled? significand (places + exponent) with
  | some x => .ok (.real (if negative then -x else x))
  | none => .error .numberOutOfRange

/-- A number without fraction and exponent. -/
def wholeNumber (negative : Bool) (whole : Bytes) : Except Flaw Number :=
  let n := digitBytesValue whole
  if Nat.pow 2 64 ≤ n then realNumber negative whole [] 0
  else if !negative then .ok (.int n)
  else if n == 0 || Nat.pow 2 63 < n then .ok (.real (-(Float.ofScientific n false 0)))
  else .ok (.int (-n))

/-- The exponent part of a number, after its letter: value and rest. -/
def scanExponent (bs : Bytes) : Except Flaw (Int × Bytes) :=
  let (negative, rest) := match bs with
    | 0x2D :: r => (true, r)
    | 0x2B :: r => (false, r)
    | r => (false, r)
  let digits := rest.takeWhile isDigitByte
  if digits.isEmpty then .error (if rest.isEmpty then .endInValue else .invalidNumber)
  else
    let value : Int := digitBytesValue digits
    .ok (if negative then -value else value, rest.dropWhile isDigitByte)

/-- The parts of a number after its whole digits. -/
def scanNumberTail (negative : Bool) (whole rest : Bytes) : Scanned Number :=
  let exponentOf (fraction after : Bytes) : Scanned Number :=
    match scanExponent after with
    | .error flaw => .flawed flaw .invalidNumber
    | .ok (exponent, rest) => .ended (realNumber negative whole fraction exponent) rest
  match rest with
  | 0x2E :: after =>
    let fraction := after.takeWhile isDigitByte
    if fraction.isEmpty then
      .flawed (if after.isEmpty then .endInValue else .invalidNumber) .invalidNumber
    else match after.dropWhile isDigitByte with
      | 0x65 :: more => exponentOf fraction more
      | 0x45 :: more => exponentOf fraction more
      | more => .ended (realNumber negative whole fraction 0) more
  | 0x65 :: after => exponentOf [] after
  | 0x45 :: after => exponentOf [] after
  | _ => .ended (wholeNumber negative whole) rest

/-- A number after its sign. -/
def scanUnsigned (negative : Bool) (bs : Bytes) : Scanned Number :=
  match bs with
  | [] => .flawed .endInValue .invalidNumber
  | b :: rest =>
    if b == 0x30 then
      match rest with
      | d :: _ => if isDigitByte d then .flawed .invalidNumber .invalidNumber
          else scanNumberTail negative [b] rest
      | [] => scanNumberTail negative [b] rest
    else if isDigitByte b then
      scanNumberTail negative (b :: rest.takeWhile isDigitByte) (rest.dropWhile isDigitByte)
    else .flawed .invalidNumber .invalidNumber

/-! ## Strings -/

/-- The value of four hexadecimal digits. -/
def hexValue? (a b c d : UInt8) : Option Nat := do
  let a ← Hex.byteValue? a
  let b ← Hex.byteValue? b
  let c ← Hex.byteValue? c
  let d ← Hex.byteValue? d
  pure (((a * 16 + b) * 16 + c) * 16 + d)

/-- The character that a one-letter escape stands for. -/
def escapeByte? (b : UInt8) : Option UInt8 :=
  if b == 0x22 || b == 0x5C || b == 0x2F then some b
  else if b == 0x62 then some 0x08
  else if b == 0x66 then some 0x0C
  else if b == 0x6E then some 0x0A
  else if b == 0x72 then some 0x0D
  else if b == 0x74 then some 0x09
  else none

/-- The rest after a string that is not wanted, from after its opening quote. -/
def skimText : Bytes → Except Flaw Bytes
  | [] => .error .endInString
  | 0x22 :: rest => .ok rest
  | [0x5C] => .error .endInString
  | 0x5C :: 0x75 :: a :: b :: c :: d :: rest =>
    if (hexValue? a b c d).isSome then skimText rest else .error .invalidEscape
  | 0x5C :: 0x75 :: _ => .error .endInString
  | 0x5C :: e :: rest => if (escapeByte? e).isSome then skimText rest else .error .invalidEscape
  | b :: rest => if b < 0x20 then .error .controlCharacter else skimText rest

/-- The bytes of a string that is read, from after its opening quote. -/
def readTextBytes : Bytes → Except Flaw Bytes
  | [] => .error .endInString
  | 0x22 :: _ => .ok []
  | [0x5C] => .error .endInString
  | 0x5C :: 0x75 :: a :: b :: c :: d :: rest =>
    match hexValue? a b c d with
    | none => .error .invalidEscape
    | some n =>
      if 0xDC00 ≤ n && n ≤ 0xDFFF then .error .loneSurrogate
      else if n < 0xD800 || 0xDBFF < n then
        (readTextBytes rest).map (Utf8.encode (String.singleton (Char.ofNat n)) ++ ·)
      else match rest with
        | [] => .error .endInString
        | 0x5C :: [] => .error .endInString
        | 0x5C :: 0x75 :: a :: b :: c :: d :: rest =>
          match hexValue? a b c d with
          | none => .error .invalidEscape
          | some low =>
            if low < 0xDC00 || 0xDFFF < low then .error .loneSurrogate
            else
              let c := Char.ofNat ((n - 0xD800) * 1024 + (low - 0xDC00) + 0x10000)
              (readTextBytes rest).map (Utf8.encode (String.singleton c) ++ ·)
        | 0x5C :: 0x75 :: _ => .error .endInString
        | _ => .error .unfinishedSurrogatePair
  | 0x5C :: 0x75 :: _ => .error .endInString
  | 0x5C :: e :: rest =>
    match escapeByte? e with
    | some b => (readTextBytes rest).map (b :: ·)
    | none => .error .invalidEscape
  | b :: rest => if b < 0x20 then .error .controlCharacter else (readTextBytes rest).map (b :: ·)

/-- A string that is read, from after its opening quote. -/
def readText (bs : Bytes) : Except Flaw String :=
  match readTextBytes bs with
  | .error flaw => .error flaw
  | .ok bytes =>
    match Utf8.decode? bytes with
    | some s => .ok s
    | none => .error .invalidCodePoint

/-- A string from after its opening quote. -/
def scanText (bs : Bytes) : Scanned String :=
  match skimText bs with
  | .ok rest => .ended (readText bs) rest
  | .error skimmed =>
    match readText bs with
    | .error strict => .flawed strict skimmed
    | .ok _ => .flawed skimmed skimmed

/-! ## Values -/

/-- A draft and the text after it, unless the draft is broken off. -/
abbrev Drafted (α : Type) := α × Option Bytes

/-- The draft of a word. -/
def draftWord (opening : Opening) (word : Bytes) (value : Draft) (bs : Bytes) : Drafted Draft :=
  match scanWord word bs with
  | .ok rest => (value, some rest)
  | .error flaw => (.broken opening flaw flaw, none)

/-- The draft of a token. -/
def draftToken {α : Type} (opening : Opening) (make : Except Flaw α → Draft) :
    Scanned α → Drafted Draft
  | .ended value rest => (make value, some rest)
  | .flawed strict skimmed => (.broken opening strict skimmed, none)

mutual

/-- The draft of a value. -/
def draftValue : Nat → Bytes → Drafted Draft
  | 0, _ => (.absent, none)
  | fuel + 1, bs =>
    match skipSpace bs with
    | [] => (.absent, none)
    | b :: rest =>
      if b == 0x6E then draftWord .null [0x75, 0x6C, 0x6C] .null rest
      else if b == 0x74 then draftWord .other [0x72, 0x75, 0x65] (.bool true) rest
      else if b == 0x66 then draftWord .other [0x61, 0x6C, 0x73, 0x65] (.bool false) rest
      else if b == 0x2D then draftToken .other .number (scanUnsigned true rest)
      else if isDigitByte b then draftToken .other .number (scanUnsigned false (b :: rest))
      else if b == 0x22 then draftToken .text .text (scanText rest)
      else if b == 0x5B then
        let (items, after) := draftItems fuel rest
        (.array items, after)
      else if b == 0x7B then
        let (members, after) := draftMembers fuel rest
        (.object members, after)
      else (.broken .other .expectedValue .expectedValue, none)

/-- The items of an array, from after its bracket. -/
def draftItems : Nat → Bytes → Drafted Items
  | 0, _ => (.broken .endInList .endInList, none)
  | fuel + 1, bs =>
    match skipSpace bs with
    | [] => (.broken .endInList .endInList, none)
    | 0x5D :: rest => (.close, some rest)
    | rest => draftItem fuel rest

/-- An item of an array and those after it. -/
def draftItem : Nat → Bytes → Drafted Items
  | 0, _ => (.broken .endInList .endInList, none)
  | fuel + 1, bs =>
    match draftValue fuel bs with
    | (head, none) => (.cons head .close, none)
    | (head, some after) =>
      let (tail, rest) := match skipSpace after with
        | [] => (.broken .endInList .endInList, none)
        | 0x5D :: rest => (.close, some rest)
        | 0x2C :: rest =>
          match skipSpace rest with
          | 0x5D :: _ => (.broken .trailingComma .expectedValue, none)
          | [] => (.broken .endInValue .endInValue, none)
          | more => draftItem fuel more
        | _ => (.broken .expectedListCommaOrEnd .expectedListCommaOrEnd, none)
      (.cons head tail, rest)

/-- The members of an object, from after its brace. -/
def draftMembers : Nat → Bytes → Drafted Members
  | 0, _ => (.broken .endInObject .endInObject, none)
  | fuel + 1, bs =>
    match skipSpace bs with
    | [] => (.broken .endInObject .endInObject, none)
    | 0x7D :: rest => (.close, some rest)
    | 0x22 :: rest => draftMember fuel rest
    | rest => (.keyless (draftValue fuel rest).1, none)

/-- A member of an object and those after it, from after the opening quote of its name. -/
def draftMember : Nat → Bytes → Drafted Members
  | 0, _ => (.broken .endInObject .endInObject, none)
  | fuel + 1, bs =>
    match scanText bs with
    | .flawed strict skimmed => (.broken strict skimmed, none)
    | .ended key rest =>
      match skipSpace rest with
      | [] => (.bare key .endInObject, none)
      | 0x3A :: rest =>
        match draftValue fuel rest with
        | (value, none) => (.cons key value .close, none)
        | (value, some after) =>
          let (tail, rest) := match skipSpace after with
            | [] => (.broken .endInObject .endInObject, none)
            | 0x7D :: rest => (.close, some rest)
            | 0x2C :: rest =>
              match skipSpace rest with
              | 0x22 :: more => draftMember fuel more
              | 0x7D :: _ => (.broken .trailingComma .keyNotString, none)
              | [] => (.broken .endInValue .endInObject, none)
              | _ => (.broken .keyNotString .keyNotString, none)
            | _ => (.broken .expectedObjectCommaOrEnd .expectedObjectCommaOrEnd, none)
          (.cons key value tail, rest)
      | _ => (.bare key .expectedColon, none)

end

/-- The draft of the first value of a text and what follows it. -/
def Draft.ofBytes (bs : Bytes) : Drafted Draft :=
  draftValue (4 * bs.length + 4) bs

end FinanceGateway.Json
