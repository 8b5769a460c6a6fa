/-!
# Reading decimal numbers

Two readings of a decimal as a binary64 number. `nearest` is the correctly rounded one. `scaled`
takes the digits as an integer that is rounded first, and multiplies or divides it by powers of ten
in binary64; it is what JSON texts are read with, and has no value for a number past the range.
`Text` reading (`parseFloat?`, `parseNat8`) is for query values.
-/

namespace FinanceGateway.Decimal

/-- The binary64 number nearest to `digits * 10 ^ exponent`. -/
def nearest (digits : Nat) (exponent : Int) : Float :=
  if digits == 0 then 0.0
  else
    let size : Int := (Nat.toDigits 10 digits).length + exponent
    if size > 310 then 1.0 / 0.0
    else if size < -330 then 0.0
    else if exponent < 0 then Float.ofScientific digits true exponent.natAbs
    else Float.ofScientific digits false exponent.natAbs

/-- The power of ten with an exponent up to 308. -/
def powerOfTen (n : Nat) : Float :=
  Float.ofScientific 1 false n

/-- Division by ten to the `n`, in steps of at most 308. -/
def scaleDown (x : Float) (n : Nat) : Float :=
  if n ≤ 308 then x / powerOfTen n
  else if x == 0.0 then x
  else scaleDown (x / powerOfTen 308) (n - 308)
termination_by n

/-- The digits as an integer rounded to binary64 and scaled by the power of ten, unless that is past
the range. -/
def scaled? (digits : Nat) (exponent : Int) : Option Float :=
  let x := Float.ofScientific digits false 0
  if exponent < 0 then some (scaleDown x exponent.natAbs)
  else if exponent ≤ 308 then
    let y := x * powerOfTen exponent.natAbs
    if y.isInf then none else some y
  else if x == 0.0 then some x
  else none

/-- Why a text is not a number of the wanted kind. -/
inductive NumberFault
  | emptyInteger
  | invalidDigit
  | tooLarge
  | emptyFloat
  | invalidFloat
  deriving Repr, DecidableEq

/-- The wording of a number fault. -/
def NumberFault.message : NumberFault → String
  | .emptyInteger => "cannot parse integer from empty string"
  | .invalidDigit => "invalid digit found in string"
  | .tooLarge => "number too large to fit in target type"
  | .emptyFloat => "cannot parse float from empty string"
  | .invalidFloat => "invalid float literal"

/-- The value of a decimal digit. -/
def digit? (c : Char) : Option Nat :=
  if '0' ≤ c && c ≤ '9' then some (c.toNat - 48) else none

/-- Digits read one by one onto what was read before, staying at or below `limit`. -/
def boundedDigits (limit : Nat) : Nat → List Char → Except NumberFault Nat
  | acc, [] => .ok acc
  | acc, c :: rest =>
    match digit? c with
    | none => .error .invalidDigit
    | some d =>
      if acc * 10 + d ≤ limit then boundedDigits limit (acc * 10 + d) rest else .error .tooLarge

/-- A natural number up to a limit, with an optional plus sign. -/
def parseNat (limit : Nat) (s : String) : Except NumberFault Nat :=
  match s.toList with
  | [] => .error .emptyInteger
  | ['+'] => .error .invalidDigit
  | '+' :: rest => boundedDigits limit 0 rest
  | rest => boundedDigits limit 0 rest

/-- The value of a run of decimal digits. -/
def digitsValue (cs : List Char) : Nat :=
  cs.foldl (fun acc c => acc * 10 + (c.toNat - 48)) 0

/-- The exponent after the letter `e`, clamped to what can matter. -/
def exponent? : List Char → Option Int
  | [] => some 0
  | e :: rest =>
    if e != 'e' && e != 'E' then none
    else
      let (negative, digits) := match rest with
        | '-' :: ds => (true, ds)
        | '+' :: ds => (false, ds)
        | ds => (false, ds)
      if digits.isEmpty || !digits.all (digit? · |>.isSome) then none
      else
        let value := if digits.length > 12 && digits.any (· != '0') then
            digitsValue (digits.dropWhile (· == '0') |>.take 12)
          else digitsValue digits
        some (if negative then -(value : Int) else value)

/-- An unsigned decimal: digits with an optional point and an optional exponent. -/
def unsignedFloat? (cs : List Char) : Option Float := do
  let isDigit (c : Char) : Bool := (digit? c).isSome
  let whole := cs.takeWhile isDigit
  let (fraction, rest) := match cs.dropWhile isDigit with
    | '.' :: after => (after.takeWhile isDigit, after.dropWhile isDigit)
    | other => ([], other)
  if whole.isEmpty && fraction.isEmpty then none
  let exponent ← exponent? rest
  pure (nearest (digitsValue (whole ++ fraction)) (exponent - fraction.length))

/-- A float in decimal notation, an infinity or a NaN, with an optional sign. -/
def parseFloat (s : String) : Except NumberFault Float :=
  let unsigned (cs : List Char) : Option Float :=
    let word := String.ofList (cs.map Char.toLower)
    if word == "inf" || word == "infinity" then some (1.0 / 0.0)
    else if word == "nan" then some (0.0 / 0.0)
    else unsignedFloat? cs
  let result := match s.toList with
    | '-' :: rest => (unsigned rest).map fun x => -x
    | '+' :: rest => unsigned rest
    | rest => unsigned rest
  if s.isEmpty then .error .emptyFloat
  else match result with
    | some x => .ok x
    | none => .error .invalidFloat

end FinanceGateway.Decimal
