import FinanceGateway.Text.Utf8

/-!
# Character sets

A part of a form may name the character set of its text. A mark at the front of the bytes decides
before the name does, and is no part of the text; without a mark the name decides, and a text whose
set is unknown is UTF-8. What cannot be read becomes U+FFFD. UTF-8, UTF-16 and windows-1252 are read
here, by all the names they have; what a table says of any other set is left to `Charset.Others`.
-/

namespace FinanceGateway

/-- How a text is written as bytes. -/
inductive Charset
  | utf8
  | utf16 (littleEndian : Bool)
  | windows1252
  | other (read : Bytes → String)

namespace Charset

/-- How the texts of further character sets are read, by the names of the sets in small letters. -/
abbrev Others := String → Option (Bytes → String)

/-! ## Names -/

/-- The names of UTF-8. -/
def utf8Names : List String :=
  ["unicode-1-1-utf-8", "unicode11utf8", "unicode20utf8", "utf-8", "utf8", "x-unicode20utf8"]

/-- The names of UTF-16 with the high byte of a unit last. -/
def utf16LittleNames : List String :=
  ["csunicode", "iso-10646-ucs-2", "ucs-2", "unicode", "unicodefeff", "utf-16", "utf-16le"]

/-- The names of UTF-16 with the high byte of a unit first. -/
def utf16BigNames : List String :=
  ["unicodefffe", "utf-16be"]

/-- The names of windows-1252, among them those of ASCII and of Latin-1. -/
def windows1252Names : List String :=
  ["ansi_x3.4-1968", "ascii", "cp1252", "cp819", "csisolatin1", "ibm819", "iso-8859-1",
    "iso-ir-100", "iso8859-1", "iso88591", "iso_8859-1", "iso_8859-1:1987", "l1", "latin1",
    "us-ascii", "windows-1252", "x-cp1252"]

/-- Whether a character is ASCII white space. -/
def isAsciiSpace (c : Char) : Bool :=
  c == '\t' || c == '\n' || c == '\x0C' || c == '\r' || c == ' '

/-- A name as it is looked up: in small letters, without white space around it. -/
def key (name : String) : String :=
  let front := name.toList.dropWhile isAsciiSpace
  String.ofList ((front.reverse.dropWhile isAsciiSpace).reverse.map Char.toLower)

/-- The character set of a name. -/
def named? (others : Others) (name : String) : Option Charset :=
  let name := key name
  if name ∈ utf8Names then some .utf8
  else if name ∈ utf16LittleNames then some (.utf16 true)
  else if name ∈ utf16BigNames then some (.utf16 false)
  else if name ∈ windows1252Names then some .windows1252
  else (others name).map .other

/-! ## UTF-16 -/

/-- The units of two bytes each, and whether a byte is left over. -/
def utf16Units (littleEndian : Bool) : Bytes → List Nat × Bool
  | [] => ([], false)
  | [_] => ([], true)
  | a :: b :: rest =>
    let unit := if littleEndian then b.toNat * 256 + a.toNat else a.toNat * 256 + b.toNat
    let (units, odd) := utf16Units littleEndian rest
    (unit :: units, odd)

/-- Whether a unit is the first half of a character. -/
def isHighSurrogate (unit : Nat) : Bool :=
  0xD800 ≤ unit && unit ≤ 0xDBFF

/-- Whether a unit is the second half of a character. -/
def isLowSurrogate (unit : Nat) : Bool :=
  0xDC00 ≤ unit && unit ≤ 0xDFFF

/-- The characters of units. A half without the other gives one U+FFFD, and so does a byte left
over at the end, together with the half it may follow. -/
def utf16Chars (odd : Bool) : List Nat → List Char
  | [] => if odd then ['\uFFFD'] else []
  | [unit] =>
    if isHighSurrogate unit then ['\uFFFD']
    else (if isLowSurrogate unit then '\uFFFD' else Char.ofNat unit) :: utf16Chars odd []
  | unit :: next :: rest =>
    if isHighSurrogate unit && isLowSurrogate next then
      Char.ofNat ((unit - 0xD800) * 1024 + (next - 0xDC00) + 0x10000) :: utf16Chars odd rest
    else
      let c := if isHighSurrogate unit || isLowSurrogate unit then '\uFFFD' else Char.ofNat unit
      c :: utf16Chars odd (next :: rest)

/-- The text of any bytes in UTF-16. -/
def decodeUtf16 (littleEndian : Bool) (bytes : Bytes) : String :=
  let (units, odd) := utf16Units littleEndian bytes
  String.ofList (utf16Chars odd units)

/-! ## windows-1252 -/

/-- The characters of the bytes from 0x80 to 0x9F. -/
def windows1252Table : List Nat :=
  [0x20AC, 0x0081, 0x201A, 0x0192, 0x201E, 0x2026, 0x2020, 0x2021, 0x02C6, 0x2030, 0x0160, 0x2039,
    0x0152, 0x008D, 0x017D, 0x008F, 0x0090, 0x2018, 0x2019, 0x201C, 0x201D, 0x2022, 0x2013, 0x2014,
    0x02DC, 0x2122, 0x0161, 0x203A, 0x0153, 0x009D, 0x017E, 0x0178]

/-- The character of a byte: those outside the table are characters of Latin-1. -/
def windows1252Char (b : UInt8) : Char :=
  if 0x80 ≤ b && b ≤ 0x9F then Char.ofNat (windows1252Table.getD (b.toNat - 0x80) 0xFFFD)
  else Char.ofNat b.toNat

/-! ## Texts -/

/-- The text of any bytes in a character set. -/
def read : Charset → Bytes → String
  | .utf8, bytes => Utf8.decodeLossy bytes
  | .utf16 littleEndian, bytes => decodeUtf16 littleEndian bytes
  | .windows1252, bytes => String.ofList (bytes.map windows1252Char)
  | .other read, bytes => read bytes

/-- The character set that a mark at the front announces, and the bytes after the mark. -/
def marked? : Bytes → Option (Charset × Bytes)
  | 0xEF :: 0xBB :: 0xBF :: rest => some (.utf8, rest)
  | 0xFF :: 0xFE :: rest => some (.utf16 true, rest)
  | 0xFE :: 0xFF :: rest => some (.utf16 false, rest)
  | _ => none

/-- The text of bytes that go by the name of a character set, or by none. -/
def decode (others : Others) (name : Option String) (bytes : Bytes) : String :=
  match marked? bytes with
  | some (charset, rest) => charset.read rest
  | none => ((name.bind (named? others)).getD .utf8).read bytes

end Charset

end FinanceGateway
