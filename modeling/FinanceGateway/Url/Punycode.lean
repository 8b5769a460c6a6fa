/-!
# Host labels above ASCII

A label of a host name with characters above ASCII travels as `xn--` and an ASCII code: the ASCII
characters in order, then for each other character, in order of code points, how far the insertion
point moves, as a number with digits of varying weight.
-/

namespace FinanceGateway.Url

/-- The digit of a value below thirty-six: letters, then figures. -/
def punycodeDigit (n : Nat) : Char :=
  if n < 26 then Char.ofNat (97 + n) else Char.ofNat (22 + n)

/-- The threshold of the digit at a position. -/
def punycodeThreshold (k bias : Nat) : Nat :=
  if k ≤ bias then 1 else if bias + 26 ≤ k then 26 else k - bias

/-- The digits of a move, the least weight first. -/
def punycodeNumber (bias : Nat) : Nat → Nat → Nat → List Char
  | 0, _, q => [punycodeDigit q]
  | fuel + 1, k, q =>
    let t := punycodeThreshold k bias
    if q < t then [punycodeDigit q]
    else punycodeDigit (t + (q - t) % (36 - t)) ::
      punycodeNumber bias fuel (k + 36) ((q - t) / (36 - t))

/-- How often a move can be divided by 35 before it is small, and what is left of it. -/
def punycodeHalvings : Nat → Nat → Nat → Nat × Nat
  | 0, k, delta => (k, delta)
  | fuel + 1, k, delta =>
    if 455 < delta then punycodeHalvings fuel (k + 36) (delta / 35) else (k, delta)

/-- The bias after a move. -/
def punycodeBias (delta written : Nat) (first : Bool) : Nat :=
  let delta := if first then delta / 700 else delta / 2
  let (k, rest) := punycodeHalvings 32 0 (delta + delta / written)
  k + 36 * rest / (rest + 38)

/-- Where the coding of a label stands. -/
structure PunycodeState where
  delta : Nat := 0
  bias : Nat := 72
  written : Nat
  first : Bool := true
  text : List Char

/-- The step for one character of the label while the characters of code point `n` are inserted. -/
def PunycodeState.step (n : Nat) (s : PunycodeState) (c : Char) : PunycodeState :=
  if c.toNat < n then { s with delta := s.delta + 1 }
  else if c.toNat = n then
    { delta := 0, bias := punycodeBias s.delta (s.written + 1) s.first, written := s.written + 1,
      first := false, text := s.text ++ punycodeNumber s.bias 32 36 s.delta }
  else s

/-- The insertion of the characters of each code point in a list of them in ascending order. -/
def punycodeInsertions (label : List Char) : Nat → List Nat → PunycodeState → PunycodeState
  | _, [], s => s
  | n, m :: points, s =>
    let start := { s with delta := s.delta + (m - n) * (s.written + 1) }
    let next := label.foldl (PunycodeState.step m) start
    punycodeInsertions label (m + 1) points { next with delta := next.delta + 1 }

/-- The code of a label. -/
def punycode (label : List Char) : List Char :=
  let basic := label.filter (·.toNat < 128)
  let points := ((label.map Char.toNat).filter (128 ≤ ·)).mergeSort.eraseDups
  let start := if basic.isEmpty then [] else basic ++ ['-']
  (punycodeInsertions label 128 points { written := basic.length, text := start }).text

end FinanceGateway.Url
