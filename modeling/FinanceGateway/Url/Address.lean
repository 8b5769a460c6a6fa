import FinanceGateway.Text.Base64
import FinanceGateway.Text.Form
import FinanceGateway.Url.Host

/-!
# Addresses

An absolute address with a host, read from any text as browsers read it: blanks at the ends and
line breaks are dropped, `\` counts as `/`, scheme and host are written small, dot segments are
resolved, and what may not stand in a path, query or fragment gets percent codes. `Url.read` tells
an address with a host from one without, and from a text that is no address. A user name and
password that make a credential are no part of the address that is asked; they are kept as that
credential. Otherwise they stay in the text of the address, and nobody is told them.
-/

namespace FinanceGateway

/-- An absolute address with a host. -/
structure Url where
  scheme : String
  /-- The user name and password, as they stand in a credential. -/
  login : Option Bytes
  host : String
  port : Option Nat
  /-- The path, each segment with percent codes. -/
  segments : List String
  query : Option String
  fragment : Option String
  /-- The user name and password, with their `@`, if they make no credential. -/
  userInfo : String := ""
  deriving Repr, DecidableEq

namespace Url

/-! ## Writing -/

/-- The path of an address. -/
def path (u : Url) : String :=
  String.ofList (u.segments.flatMap fun s => '/' :: s.toList)

/-- The host with a port that is not the usual one. -/
def authority (u : Url) : String :=
  match u.port with
  | some p => u.host ++ ":" ++ String.ofList (Nat.toDigits 10 p)
  | none => u.host

/-- An optional part after its mark. -/
def marked (mark : String) : Option String → String
  | some s => mark ++ s
  | none => ""

/-- What a server is asked for: path and query. -/
def target (u : Url) : String :=
  (if u.segments.isEmpty then "/" else u.path) ++ marked "?" u.query

/-- The text of an address. -/
def text (u : Url) : String :=
  u.scheme ++ "://" ++ u.userInfo ++ u.authority ++ u.path ++ marked "?" u.query ++
    marked "#" u.fragment

/-- The address with more pairs at the end of its query. -/
def addQuery (u : Url) : List (String × String) → Url
  | [] => u
  | pairs =>
    let added := String.ofList (Form.encodePairs pairs)
    let query := match u.query with
      | none | some "" => added
      | some q => q ++ "&" ++ added
    { u with query := some query }

/-! ## Reading -/

/-- Whether a byte stands for itself in a fragment. -/
def keptInFragment (b : UInt8) : Bool :=
  0x20 < b && b < 0x7F && !(b == 0x22 || b == 0x3C || b == 0x3E || b == 0x60)

/-- Whether a byte stands for itself in a path. -/
def keptInPath (b : UInt8) : Bool :=
  keptInFragment b && !(b == 0x23 || b == 0x3F || b == 0x7B || b == 0x7D)

/-- Whether a byte stands for itself in a query; in that of a web address `'` does not. -/
def keptInQuery (web : Bool) (b : UInt8) : Bool :=
  0x20 < b && b < 0x7F && !(b == 0x22 || b == 0x23 || b == 0x3C || b == 0x3E) &&
    !(web && b == 0x27)

/-- The characters with percent codes for what may not stand. -/
def coded (keep : UInt8 → Bool) (cs : List Char) : String :=
  String.ofList (Percent.encodeBytes keep (Utf8.encode (String.ofList cs)))

/-- Whether a segment stands for the place itself. -/
def isSingleDot (segment : List Char) : Bool :=
  [".", "%2e"].contains (String.ofList (segment.map Char.toLower))

/-- Whether a segment stands for the place above. -/
def isDoubleDot (segment : List Char) : Bool :=
  ["..", ".%2e", "%2e.", "%2e%2e"].contains (String.ofList (segment.map Char.toLower))

/-- Resolves segments onto those before them, which are listed from the last. -/
def resolveSegments : List (List Char) → List String → List String
  | [], above => above.reverse
  | segment :: rest, above =>
    if isDoubleDot segment then
      if rest.isEmpty then ("" :: above.tail).reverse else resolveSegments rest above.tail
    else if isSingleDot segment then
      if rest.isEmpty then ("" :: above).reverse else resolveSegments rest above
    else resolveSegments rest (coded keptInPath segment :: above)

/-- Whether the schemes of the web are meant, which take `\` for `/` and must have a host. -/
def isWebScheme (scheme : String) : Bool :=
  scheme == "http" || scheme == "https" || scheme == "ws" || scheme == "wss" || scheme == "ftp"

/-- The port that a scheme has when none is given. -/
def usualPort? (scheme : String) : Option Nat :=
  if scheme == "http" || scheme == "ws" then some 80
  else if scheme == "https" || scheme == "wss" then some 443
  else if scheme == "ftp" then some 21
  else none

/-- Whether a character separates segments. -/
def isSlash (web : Bool) (c : Char) : Bool :=
  c == '/' || (web && c == '\\')

/-- Whether a character ends the part of an address that names the host. -/
def endsAuthority (web : Bool) (c : Char) : Bool :=
  isSlash web c || c == '?' || c == '#'

/-- The text before the last `@` and the text after it. -/
def splitLogin (cs : List Char) : Option (List Char) × List Char :=
  if cs.contains '@' then
    let back := (cs.reverse.takeWhile (· != '@')).reverse
    (some (cs.take (cs.length - back.length - 1)), back)
  else (none, cs)

/-- The user name and the password, empty without one, in front of an `@`. -/
def splitUserInfo (cs : List Char) : Bytes × Bytes :=
  let (user, password) := Form.splitFirst 0x3A (Utf8.encode (String.ofList cs))
  (user, password.getD [])

/-- The bytes that percent codes stand for, if they are the UTF-8 form of a text. -/
def textBytes? (bytes : Bytes) : Option Bytes :=
  (Utf8.decode? (Percent.decode bytes)).map Utf8.encode

/-- The credential of a user name and password. A name that stands for no text makes none, a
password that stands for no text counts as none, and one of the two must be given. -/
def login? (cs : List Char) : Option Bytes := do
  let (user, password) := splitUserInfo cs
  let name ← textBytes? user
  let secret := (textBytes? password).getD []
  if name.isEmpty && secret.isEmpty then none
  else some (name ++ 0x3A :: secret)

/-- Whether a byte stands for itself in a user name or a password. -/
def keptInUserInfo (b : UInt8) : Bool :=
  keptInPath b && !(b == 0x2F || b == 0x3A || b == 0x3B || b == 0x3D || b == 0x40 || b == 0x5B ||
    b == 0x5C || b == 0x5D || b == 0x5E || b == 0x7C)

/-- What stays in an address of a user name and password that make no credential. -/
def userInfoText (cs : List Char) : String :=
  let (user, password) := splitUserInfo cs
  if (login? cs).isSome || (user.isEmpty && password.isEmpty) then ""
  else
    let secret := if password.isEmpty then [] else
      ':' :: Percent.encodeBytes keptInUserInfo password
    String.ofList (Percent.encodeBytes keptInUserInfo user ++ secret ++ ['@'])

/-- The host and what follows its colon; a colon between brackets is part of the host. -/
def splitPort : Bool → List Char → List Char × Option (List Char)
  | _, [] => ([], none)
  | inBrackets, c :: rest =>
    if c == ':' && !inBrackets then ([], some rest)
    else
      let (host, port) := splitPort (c == '[' || (inBrackets && c != ']')) rest
      (c :: host, port)

/-- The value of a port, if it is none of the usual one. -/
def readPort (scheme : String) : Option (List Char) → Option (Option Nat)
  | none | some [] => some none
  | some digits => do
    if !digits.all Char.isDigit then none
    let n ← radixValue? 10 digits
    if 65535 < n then none
    else some (if usualPort? scheme == some n then none else some n)

/-- A text cut at the first character of a kind, which stays with the second part. -/
def cut (p : Char → Bool) (cs : List Char) : List Char × List Char :=
  (cs.takeWhile fun c => !p c, cs.dropWhile fun c => !p c)

/-- The parts of an address after its host. -/
structure Tail where
  path : List Char
  query : Option (List Char)
  fragment : Option (List Char)

/-- Cuts what follows the host into path, query and fragment. -/
def Tail.ofChars (cs : List Char) : Tail :=
  let (front, fragment) := cut (· == '#') cs
  let (path, query) := cut (· == '?') front
  { path, query := query.tail?, fragment := fragment.tail? }

/-- The segments of a path, which starts with a slash unless it is empty. -/
def readSegments (web : Bool) (path : List Char) : List String :=
  match path with
  | [] => if web then [""] else []
  | _ :: rest =>
    resolveSegments (splitChars '/' (rest.map fun c => if isSlash web c then '/' else c)) []

/-- Reads host, port, path, query and fragment after the slashes that follow the scheme. -/
def readAuthority (scheme : String) (web : Bool) (cs : List Char) : Option Url := do
  let (authority, rest) := cut (endsAuthority web) cs
  let (login, place) := splitLogin authority
  let (hostText, portText) := splitPort false place
  let host ← host? web hostText
  let port ← readPort scheme portText
  let tail := Tail.ofChars rest
  if hostText.isEmpty then none
  else some {
    scheme
    login := login.bind login?
    host := String.ofList host
    port
    segments := readSegments web tail.path
    query := tail.query.map (coded (keptInQuery web))
    fragment := tail.fragment.map (coded keptInFragment)
    userInfo := (login.map userInfoText).getD "" }

/-- The text of an address without a host: what stands before its path, and the rest. -/
def hostlessText (lead : String) (cs : List Char) : String :=
  let tail := Tail.ofChars cs
  let path := match tail.path with
    | '/' :: rest =>
      String.ofList ((resolveSegments (splitChars '/' rest) []).flatMap fun s => '/' :: s.toList)
    | path => coded (fun b => 0x20 ≤ b && b < 0x7F) path
  lead ++ path ++ marked "?" (tail.query.map (coded (keptInQuery false))) ++
    marked "#" (tail.fragment.map (coded keptInFragment))

/-- What a text is when it is read as an address. -/
inductive Reading
  | address (url : Url)
  | hostless (text : String)
  deriving Repr, DecidableEq

/-- The text without blanks and controls at the ends, and without tabs and line breaks. -/
def cleaned (s : String) : List Char :=
  let isEdge (c : Char) : Bool := c.toNat ≤ 0x20
  let cs := ((s.toList.dropWhile isEdge).reverse.dropWhile isEdge).reverse
  cs.filter fun c => !(c == '\t' || c == '\n' || c == '\r')

/-- The scheme of an address and what follows its colon. -/
def splitScheme (cs : List Char) : Option (String × List Char) :=
  let (front, rest) := cut (· == ':') cs
  match front, rest with
  | first :: more, _ :: after =>
    if first.isAlpha && more.all fun c => c.isAlphanum || c == '+' || c == '-' || c == '.' then
      some (String.ofList ((first :: more).map Char.toLower), after)
    else none
  | _, _ => none

/-- Reads a text as an address. -/
def read (s : String) : Option Reading := do
  let (scheme, rest) ← splitScheme (cleaned s)
  if isWebScheme scheme then
    (readAuthority scheme true (rest.dropWhile (isSlash true))).map .address
  else match rest with
    | '/' :: '/' :: after =>
      if (cut (endsAuthority false) after).1.isEmpty then
        some (.hostless (hostlessText (scheme ++ "://") after))
      else (readAuthority scheme false after).map .address
    | rest => some (.hostless (hostlessText (scheme ++ ":") rest))

end Url

end FinanceGateway
