import FinanceGateway.Decimal.Shortest

/-!
# How a binary64 number is written

The texts of floats, from the shortest digits. A `Layout` holds a format's decisions: which numbers
are written by position and which with an exponent, what stands after a whole number, the texts of
the values that are not finite. Three are used: `json`, for bodies and for messages about them;
`plain`, for query values, path values and messages about configuration files.
-/

namespace FinanceGateway.Decimal

/-- The decisions of a number format. -/
structure Layout where
  /-- Whether a number whose point stands after its `n`th digit is written by position. -/
  positional : Int → Bool
  /-- What follows a number without a fraction. -/
  wholeTail : List Char
  tie : Tie

/-- JSON: by position from `0.00001` to sixteen digits before the point, always with a fraction. -/
def Layout.json : Layout where
  positional n := -5 < n && n ≤ 16
  wholeTail := ['.', '0']
  tie := .toEven

/-- By position always, a whole number without a point. -/
def Layout.plain : Layout where
  positional _ := true
  wholeTail := []
  tie := .away

/-- The digits of a natural number, most significant first. -/
def natChars (n : Nat) : List Char :=
  Nat.toDigits 10 n

/-- The decimal digits of an integer with its sign. -/
def intChars (i : Int) : List Char :=
  if i < 0 then '-' :: natChars i.natAbs else natChars i.natAbs

/-- The text of an integer. -/
def ofInt (i : Int) : String :=
  String.ofList (intChars i)

/-- A decimal by position. -/
def positionalChars (digits : List Char) (exponent : Int) (wholeTail : List Char) : List Char :=
  let point : Int := digits.length + exponent
  if 0 ≤ exponent then digits ++ List.replicate exponent.toNat '0' ++ wholeTail
  else if 0 < point then digits.take point.toNat ++ '.' :: digits.drop point.toNat
  else ['0', '.'] ++ List.replicate (-point).toNat '0' ++ digits

/-- A decimal with an exponent, one digit before the point. -/
def scientificChars (digits : List Char) (exponent : Int) : List Char :=
  let power : Int := digits.length + exponent - 1
  let tail := 'e' :: (if 0 ≤ power then '+' :: natChars power.natAbs else intChars power)
  match digits with
  | first :: second :: rest => first :: '.' :: second :: rest ++ tail
  | _ => digits ++ tail

/-- A positive decimal in a layout. -/
def Layout.digitChars (layout : Layout) (d : Digits) : List Char :=
  let digits := natChars d.digits
  if layout.positional (digits.length + d.exponent) then
    positionalChars digits d.exponent layout.wholeTail
  else scientificChars digits d.exponent

/-- A binary64 number in a layout. -/
def Layout.chars (layout : Layout) (x : Float) : List Char :=
  if x.isNaN then ['N', 'a', 'N']
  else
    let bits := x.toBits.toNat
    let sign := if bits / Nat.pow 2 63 == 1 then ['-'] else []
    let magnitude := bits % Nat.pow 2 63
    if x.isInf then sign ++ ['i', 'n', 'f']
    else if magnitude == 0 then sign ++ '0' :: layout.wholeTail
    else sign ++ layout.digitChars ((Binary.ofMagnitude magnitude).shortest layout.tie)

/-- The text of a binary64 number in a layout. -/
def Layout.text (layout : Layout) (x : Float) : String :=
  String.ofList (layout.chars x)

end FinanceGateway.Decimal
