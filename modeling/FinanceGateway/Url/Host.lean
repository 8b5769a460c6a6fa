import FinanceGateway.Text.Percent
import FinanceGateway.Url.Punycode

/-!
# Hosts

The host of an address in its normal form: a domain name in small ASCII letters, an IPv4 address in
four decimal parts, or an IPv6 address between brackets. A host whose last label is a number is an
IPv4 address or nothing.
-/

namespace FinanceGateway.Url

/-- The pieces between separators. -/
def splitChars (separator : Char) : List Char → List (List Char)
  | [] => [[]]
  | c :: rest =>
    if c == separator then [] :: splitChars separator rest
    else match splitChars separator rest with
      | [] => [[c]]
      | piece :: pieces => (c :: piece) :: pieces

/-- The pieces with a separator between any two. -/
def joinChars (separator : List Char) : List (List Char) → List Char
  | [] => []
  | [piece] => piece
  | piece :: rest => piece ++ separator ++ joinChars separator rest

/-! ## IPv4 -/

/-- The value of digits in a radix, if all of them are digits of it. -/
def radixValue? (radix : Nat) (cs : List Char) : Option Nat :=
  cs.foldlM (fun acc c => do
    let d ← Hex.value? c
    if d < radix then some (acc * radix + d) else none) 0

/-- A part of an IPv4 address: decimal, octal after `0`, hexadecimal after `0x`. -/
def ipv4Number? : List Char → Option Nat
  | [] => none
  | '0' :: 'x' :: rest => radixValue? 16 rest
  | '0' :: 'X' :: rest => radixValue? 16 rest
  | '0' :: d :: rest => radixValue? 8 (d :: rest)
  | cs => radixValue? 10 cs

/-- The labels of a name without an empty one at the end. -/
def hostLabels (cs : List Char) : List (List Char) :=
  let labels := splitChars '.' cs
  if 2 ≤ labels.length && labels.getLast? == some [] then labels.dropLast else labels

/-- Whether the last label of a name is a number. -/
def endsInNumber (cs : List Char) : Bool :=
  match (hostLabels cs).getLast? with
  | none => false
  | some last =>
    (!last.isEmpty && last.all Char.isDigit) || (ipv4Number? last).isSome

/-- The decimal form of an IPv4 address. -/
def ipv4Chars (address : Nat) : List Char :=
  joinChars ['.'] ([24, 16, 8, 0].map fun shift =>
    Nat.toDigits 10 (address / Nat.pow 2 shift % 256))

/-- An IPv4 address of one to four parts, the last of which fills what the others leave. -/
def ipv4? (cs : List Char) : Option (List Char) := do
  let numbers ← (hostLabels cs).mapM ipv4Number?
  let last ← numbers.getLast?
  let front := numbers.dropLast
  if 4 < numbers.length || front.any (255 < ·) || Nat.pow 256 (4 - front.length) ≤ last then none
  else
    let high := front.zipIdx.foldl (fun acc p => acc + p.1 * Nat.pow 256 (3 - p.2)) 0
    some (ipv4Chars (high + last))

/-! ## IPv6 -/

/-- A decimal part of an IPv4 address inside an IPv6 address. -/
def embeddedPart? : List Char → Option Nat
  | ['0'] => some 0
  | '0' :: _ => none
  | [] => none
  | cs => do
    let n ← radixValue? 10 cs
    if n ≤ 255 then some n else none

/-- The two pieces of an IPv4 address inside an IPv6 address. -/
def embeddedIpv4? (cs : List Char) : Option (List Nat) := do
  match ← (splitChars '.' cs).mapM embeddedPart? with
  | [a, b, c, d] => some [a * 256 + b, c * 256 + d]
  | _ => none

/-- The pieces of a part of an IPv6 address without a gap; `final` allows IPv4 at the end. -/
def ipv6Pieces? (final : Bool) : List (List Char) → Option (List Nat)
  | [] => some []
  | [last] =>
    if final && last.contains '.' then embeddedIpv4? last
    else if last.isEmpty || 4 < last.length then none
    else (radixValue? 16 last).map fun n => [n]
  | piece :: rest => do
    if piece.isEmpty || 4 < piece.length then none
    let n ← radixValue? 16 piece
    let more ← ipv6Pieces? final rest
    some (n :: more)

/-- The texts before and after the first double colon. -/
def splitGap : List Char → Option (List Char × List Char)
  | ':' :: ':' :: rest => some ([], rest)
  | c :: rest => (splitGap rest).map fun (front, back) => (c :: front, back)
  | [] => none

/-- The pieces of a side of a gap, which may be empty. -/
def ipv6Side? (final : Bool) (cs : List Char) : Option (List Nat) :=
  if cs.isEmpty then some [] else ipv6Pieces? final (splitChars ':' cs)

/-- The eight pieces of an IPv6 address. -/
def ipv6? (cs : List Char) : Option (List Nat) := do
  match splitGap cs with
  | some (front, back) =>
    let high ← ipv6Side? false front
    let low ← ipv6Side? true back
    if high.length + low.length ≤ 7 then
      some (high ++ List.replicate (8 - high.length - low.length) 0 ++ low)
    else none
  | none =>
    let pieces ← ipv6Pieces? true (splitChars ':' cs)
    if pieces.length == 8 then some pieces else none

/-- The start and length of the first longest run of zeros. -/
def longestZeros (pieces : List Nat) : Nat × Nat :=
  (List.range pieces.length).foldl (fun best i =>
    let run := ((pieces.drop i).takeWhile (· == 0)).length
    if best.2 < run then (i, run) else best) (0, 0)

/-- The hexadecimal form of an IPv6 address, the longest run of zeros left out. -/
def ipv6Chars (pieces : List Nat) : List Char :=
  let hex (ps : List Nat) := joinChars [':'] (ps.map (Nat.toDigits 16))
  let (start, run) := longestZeros pieces
  if run < 2 then hex pieces
  else hex (pieces.take start) ++ ':' :: ':' :: hex (pieces.drop (start + run))

/-! ## Hosts -/

/-- The characters that no host can have. -/
def isForbiddenInHost (c : Char) : Bool :=
  c == '\x00' || "\t\n\r #/:<>?@[\\]^|".toList.contains c

/-- The characters that no domain name can have. -/
def isForbiddenInDomain (c : Char) : Bool :=
  isForbiddenInHost c || c.toNat ≤ 0x1F || c == '%' || c == '\x7F'

/-- A label in ASCII. -/
def asciiLabel (label : List Char) : List Char :=
  if label.all (·.toNat < 128) then label else "xn--".toList ++ punycode label

/-- The normal form of a domain name or IPv4 address. -/
def domain? (cs : List Char) : Option (List Char) :=
  let decoded := Utf8.decodeLossyChars (Percent.decode (Utf8.encode (String.ofList cs)))
  let name := joinChars ['.'] ((splitChars '.' (decoded.map Char.toLower)).map asciiLabel)
  if name.isEmpty || name.any isForbiddenInDomain then none
  else if endsInNumber name then ipv4? name
  else some name

/-- The normal form of a host; `web` is whether the scheme wants a domain name. -/
def host? (web : Bool) : List Char → Option (List Char)
  | '[' :: rest =>
    if rest.getLast? == some ']' then
      (ipv6? rest.dropLast).map fun pieces => '[' :: ipv6Chars pieces ++ [']']
    else none
  | cs =>
    if web then domain? cs
    else if cs.any isForbiddenInHost then none
    else some (Percent.encodeBytes (fun b => 0x20 ≤ b && b < 0x7F)
      (Utf8.encode (String.ofList cs)))

end FinanceGateway.Url
