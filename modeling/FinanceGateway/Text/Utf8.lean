/-!
# Texts as bytes

`Bytes` is what travels: bodies, header values, percent-decoded text. `encode` and `decode?` are
the UTF-8 form of a text and its inverse; `decodeLossy` reads any bytes, putting U+FFFD for each
longest prefix of a character that is not completed.
-/

namespace FinanceGateway

/-- A finite sequence of bytes. -/
abbrev Bytes := List UInt8

namespace Utf8

/-- The UTF-8 bytes of a text. -/
def encode (s : String) : Bytes :=
  s.toUTF8.data.toList

/-- The text that the bytes are the UTF-8 form of, if they are one. -/
def decode? (bytes : Bytes) : Option String :=
  String.fromUTF8? ⟨bytes.toArray⟩

/-- What a first byte announces: how many bytes follow it, and the range of the next one. -/
def lead (b : UInt8) : Option (Nat × UInt8 × UInt8) :=
  if 0xC2 ≤ b && b ≤ 0xDF then some (1, 0x80, 0xBF)
  else if b == 0xE0 then some (2, 0xA0, 0xBF)
  else if b == 0xED then some (2, 0x80, 0x9F)
  else if 0xE1 ≤ b && b ≤ 0xEF then some (2, 0x80, 0xBF)
  else if b == 0xF0 then some (3, 0x90, 0xBF)
  else if b == 0xF4 then some (3, 0x80, 0x8F)
  else if 0xF1 ≤ b && b ≤ 0xF3 then some (3, 0x80, 0xBF)
  else none

/-- The longest run of at most `n` continuation bytes, the first of them within `lo` and `hi`. -/
def continuation : Nat → UInt8 → UInt8 → Bytes → Bytes
  | n + 1, lo, hi, b :: bs =>
    if lo ≤ b && b ≤ hi then b :: continuation n 0x80 0xBF bs else []
  | _, _, _, _ => []

/-- The character of a first byte and its continuation. -/
def assemble (first : UInt8) (rest : Bytes) : Char :=
  let mask := match rest.length with
    | 1 => 0x1F
    | 2 => 0x0F
    | _ => 0x07
  Char.ofNat (rest.foldl (fun acc b => acc * 64 + b.toNat % 64) (first.toNat &&& mask))

/-- The characters of any bytes, an incomplete character giving one U+FFFD. -/
def decodeLossyChars : Bytes → List Char
  | [] => []
  | b :: bs =>
    if b < 0x80 then Char.ofNat b.toNat :: decodeLossyChars bs
    else match lead b with
      | none => '\uFFFD' :: decodeLossyChars bs
      | some (n, lo, hi) =>
        let rest := continuation n lo hi bs
        let c := if rest.length == n then assemble b rest else '\uFFFD'
        c :: decodeLossyChars (bs.drop rest.length)
termination_by bytes => bytes.length
decreasing_by all_goals (simp only [List.length_cons, List.length_drop]; omega)

/-- The text of any bytes, an incomplete character giving one U+FFFD. -/
def decodeLossy (bytes : Bytes) : String :=
  String.ofList (decodeLossyChars bytes)

end Utf8

end FinanceGateway
