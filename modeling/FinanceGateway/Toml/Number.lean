import FinanceGateway.Decimal.Reading
import FinanceGateway.Toml.Text
import FinanceGateway.Toml.Value

/-!
# Numbers, dates and times of TOML

Integers of 64 bits in four radixes, binary64 numbers, and dates and times. Digits may be grouped by
single underscores between them.
-/

namespace FinanceGateway.Toml

/-! ## Digits -/

/-- Digits with single underscores between them; the text may not end in an underscore. -/
def readDigits (isDigit : Char → Bool) : List Char → Option (List Char × List Char)
  | '_' :: c :: rest => if isDigit c then (readDigits isDigit rest).map fun (ds, r) => (c :: ds, r)
      else none
  | ['_'] => none
  | c :: rest =>
    if isDigit c then (readDigits isDigit rest).map fun (ds, r) => (c :: ds, r)
    else some ([], c :: rest)
  | [] => some ([], [])

/-- Digits of which there is at least one. -/
def readDigits1 (isDigit : Char → Bool) (cs : List Char) : Option (List Char × List Char) :=
  match cs with
  | c :: _ => if isDigit c then readDigits isDigit cs else none
  | [] => none

/-- Whether a character is a digit of a radix. -/
def isDigitOf (radix : Nat) (c : Char) : Bool :=
  (Hex.value? c).any (· < radix)

/-- A sign and what follows it; true is for minus. -/
def readSign : List Char → Bool × List Char
  | '-' :: rest => (true, rest)
  | '+' :: rest => (false, rest)
  | cs => (false, cs)

/-- The whole digits of a decimal number: a zero, or digits that do not start with one. -/
def readWhole (cs : List Char) : Option (List Char × List Char) :=
  match cs with
  | '0' :: rest => some (['0'], rest)
  | cs => readDigits1 Char.isDigit cs

/-! ## Numbers -/

/-- The value of digits in a radix. -/
def valueOf (radix : Nat) (digits : List Char) : Nat :=
  digits.foldl (fun acc d => acc * radix + (Hex.value? d).getD 0) 0

/-- An integer within 64 bits. -/
def integer? (i : Int) : Option Toml :=
  if -9223372036854775808 ≤ i && i ≤ 9223372036854775807 then some (.integer i) else none

/-- An integer in another radix, from after its mark. -/
def readRadix (radix : Nat) (cs : List Char) : Option (Toml × List Char) := do
  let (digits, rest) ← readDigits1 (isDigitOf radix) cs
  let value ← integer? (valueOf radix digits)
  some (value, rest)

/-- An exponent from after its letter. -/
def readExponent (cs : List Char) : Option (Int × List Char) := do
  let (negative, rest) := readSign cs
  let (digits, rest) ← readDigits1 Char.isDigit rest
  let n := Decimal.digitsValue (digits.dropWhile (· == '0') |>.take 12)
  some (if negative then -(n : Int) else n, rest)

/-- The digits of a fraction, none if no point follows. -/
def readFraction : List Char → Option (List Char × List Char)
  | '.' :: rest => readDigits1 Char.isDigit rest
  | cs => some ([], cs)

/-- The exponent of a number, if one follows. -/
def readScale : List Char → Option (Option Int × List Char)
  | 'e' :: rest => (readExponent rest).map fun (n, rest) => (some n, rest)
  | 'E' :: rest => (readExponent rest).map fun (n, rest) => (some n, rest)
  | cs => some (none, cs)

/-- The binary64 number of its decimal parts; infinity is too large unless it is negative. -/
def real? (negative : Bool) (digits : List Char) (exponent : Int) : Option Toml :=
  let x := Decimal.nearest (Decimal.digitsValue digits) exponent
  if negative then some (.real (-x)) else if x.isInf then none else some (.real x)

/-- A decimal number: an integer, unless a fraction or an exponent follows. -/
def readDecimal (cs : List Char) : Option (Toml × List Char) := do
  let (negative, unsigned) := readSign cs
  let (whole, rest) ← readWhole unsigned
  let (fraction, rest) ← readFraction rest
  let (scale, rest) ← readScale rest
  if fraction.isEmpty && scale.isNone then
    let n : Int := Decimal.digitsValue whole
    let value ← integer? (if negative then -n else n)
    some (value, rest)
  else
    let value ← real? negative (whole ++ fraction) (scale.getD 0 - fraction.length)
    some (value, rest)

/-- An infinity or NaN with an optional sign. -/
def readSpecial (cs : List Char) : Option (Toml × List Char) :=
  let (negative, rest) := readSign cs
  let signed (x : Float) : Toml := .real (if negative then -x else x)
  match rest with
  | 'i' :: 'n' :: 'f' :: rest => some (signed (1.0 / 0.0), rest)
  | 'n' :: 'a' :: 'n' :: rest => some (signed (0.0 / 0.0), rest)
  | _ => none

/-! ## Dates and times -/

/-- A number of exactly `count` digits within bounds. -/
def readField (count low high : Nat) (cs : List Char) : Option (Nat × List Char) :=
  let digits := cs.take count
  let n := Decimal.digitsValue digits
  if digits.length == count && digits.all Char.isDigit && low ≤ n && n ≤ high then
    some (n, cs.drop count)
  else none

/-- What follows a mark. -/
def dropMark? (mark : Char) : List Char → Option (List Char)
  | c :: rest => if c == mark then some rest else none
  | [] => none

/-- How many days a month has. -/
def daysOf (year month : Nat) : Nat :=
  if month == 2 then
    if year % 4 == 0 && (year % 100 != 0 || year % 400 == 0) then 29 else 28
  else if month == 4 || month == 6 || month == 9 || month == 11 then 30
  else 31

/-- What follows a date. -/
def readDate (cs : List Char) : Option (List Char) := do
  let (year, rest) ← readField 4 0 9999 cs
  let (month, rest) ← readField 2 1 12 (← dropMark? '-' rest)
  let (_, rest) ← readField 2 1 (daysOf year month) (← dropMark? '-' rest)
  some rest

/-- What follows a time. -/
def readTime (cs : List Char) : Option (List Char) := do
  let (_, rest) ← readField 2 0 23 cs
  let (_, rest) ← readField 2 0 59 (← dropMark? ':' rest)
  let (_, rest) ← readField 2 0 60 (← dropMark? ':' rest)
  match rest with
  | '.' :: d :: after =>
    if d.isDigit then some (after.dropWhile Char.isDigit) else some rest
  | _ => some rest

/-- What follows an offset from universal time, if there is one. -/
def readOffset (cs : List Char) : Option (List Char) :=
  match cs with
  | c :: rest =>
    if c == 'Z' || c == 'z' then some rest
    else if c == '+' || c == '-' then do
      let (_, rest) ← readField 2 0 23 rest
      let (_, rest) ← readField 2 0 59 (← dropMark? ':' rest)
      some rest
    else some cs
  | [] => some []

/-- What follows a date, a time, or both with an optional offset. -/
def readMoment (cs : List Char) : Option (List Char) :=
  match readDate cs with
  | none => readTime cs
  | some rest =>
    match rest with
    | c :: after =>
      if c == 'T' || c == 't' || c == ' ' then
        match readTime after with
        | some rest => readOffset rest
        | none => some rest
      else some rest
    | [] => some []

/-- A number, date or time. -/
def readNumber (cs : List Char) : Option (Toml × List Char) :=
  match readMoment cs with
  | some rest => some (.moment, rest)
  | none =>
    match cs with
    | '0' :: 'x' :: rest => readRadix 16 rest
    | '0' :: 'o' :: rest => readRadix 8 rest
    | '0' :: 'b' :: rest => readRadix 2 rest
    | _ => (readSpecial cs).or (readDecimal cs)

end FinanceGateway.Toml
