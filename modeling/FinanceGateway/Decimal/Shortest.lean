/-!
# Shortest decimal digits of a binary64 number

A finite binary64 number is `significand * 2 ^ exponent`; every real between the midpoints to its
neighbours rounds to it. `shortest` gives the decimal with the fewest digits among those reals, and
of these the nearest to the number. It tries one to seventeen digits in exact integer arithmetic:
at each precision only the two multiples of the grid around the number can lie in the interval.
-/

namespace FinanceGateway.Decimal

/-- A positive finite binary64 number, and whether its lower neighbour is half as far as the
upper. -/
structure Binary where
  significand : Nat
  exponent : Int
  narrowBelow : Bool
  deriving Repr, DecidableEq

/-- A decimal `digits * 10 ^ exponent`. -/
structure Digits where
  digits : Nat
  exponent : Int
  deriving Repr, DecidableEq

/-- Where an exact half between two decimals goes. -/
inductive Tie
  | toEven
  | away
  deriving Repr, DecidableEq

/-- The number that the 63 magnitude bits of a finite binary64 stand for. -/
def Binary.ofMagnitude (bits : Nat) : Binary :=
  let fraction : Nat := bits % Nat.pow 2 52
  let biased : Nat := bits / Nat.pow 2 52
  if biased == 0 then ⟨fraction, -1074, false⟩
  else ⟨Nat.pow 2 52 + fraction, (biased : Int) - 1075, fraction == 0 && biased != 1⟩

/-- The number as quarters over a common denominator: `(quarters, denominator)`. -/
def Binary.quarters (b : Binary) : Nat × Nat :=
  (4 * b.significand * Nat.pow 2 b.exponent.toNat, 4 * Nat.pow 2 (-b.exponent).toNat)

/-- The unit in which half the distance to the upper neighbour is two. -/
def Binary.unit (b : Binary) : Nat :=
  Nat.pow 2 b.exponent.toNat

/-- Whether `n / denominator` rounds to the number; the ends count when the significand is even. -/
def Binary.contains (b : Binary) (n scale : Nat) : Bool :=
  let (centre, _) := b.quarters
  let low := (centre - (if b.narrowBelow then 1 else 2) * b.unit) * scale
  let high := (centre + 2 * b.unit) * scale
  if b.significand % 2 == 0 then low ≤ n && n ≤ high else low < n && n < high

/-- The exponent of the leading decimal digit of `num / den`. -/
def leadingExponent (num den : Nat) : Int :=
  let guess : Int := Int.fdiv (((num.log2 : Int) - (den.log2 : Int)) * 30103) 100000
  let atLeast (e : Int) : Bool := den * Nat.pow 10 e.toNat ≤ num * Nat.pow 10 (-e).toNat
  if atLeast (guess + 1) then guess + 1
  else if atLeast guess then guess
  else guess - 1

/-- The decimal without the zeros at its end. -/
def Digits.trimmed (d : Digits) : Nat → Digits
  | 0 => d
  | fuel + 1 =>
    if d.digits != 0 && d.digits % 10 == 0 then
      Digits.trimmed ⟨d.digits / 10, d.exponent + 1⟩ fuel
    else d

/-- The decimal on the grid `10 ^ grid` that rounds to the number and is nearest to it. -/
def Binary.onGrid? (b : Binary) (tie : Tie) (grid : Int) : Option Digits :=
  let (centre, den) := b.quarters
  let step := den * Nat.pow 10 grid.toNat
  let scale := Nat.pow 10 (-grid).toNat
  let target := centre * scale
  let below := target / step
  let down := b.contains (below * step) scale
  let up := b.contains ((below + 1) * step) scale
  let rest := target - below * step
  let preferUp := 2 * rest > step ||
    (2 * rest == step && (tie == .away || below % 2 == 1))
  if up && (preferUp || !down) then some ⟨below + 1, grid⟩
  else if down && 0 < below then some ⟨below, grid⟩
  else none

/-- The shortest decimal that rounds to the number. -/
def Binary.shortest (b : Binary) (tie : Tie) : Digits :=
  let (centre, den) := b.quarters
  let leading := leadingExponent centre den
  let found := (List.range 17).findSome? fun (extra : Nat) => b.onGrid? tie (leading - extra)
  (found.getD ⟨b.significand, b.exponent⟩).trimmed 20

end FinanceGateway.Decimal
