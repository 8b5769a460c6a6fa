import FinanceGateway.Decimal.Layout
import FinanceGateway.Gate.Guard
import FinanceGateway.App.Handler
import FinanceGateway.Dispatch.Client
import FinanceGateway.Text.Quoted
import FinanceGateway.Toml.Document

/-!
# Configuration

The settings of the application as a TOML document gives them. Every setting has a default, unknown
ones do not count, and the first setting in the document that does not fit is reported. An address
given from outside wins over that of the document, unless it is blank.
-/

namespace FinanceGateway

/-- Why a TOML value does not fit a setting. -/
inductive Misfit
  | mismatch (found expected : String)
  | outOfRange (value : Int) (expected : String)
  | unknownVariant (found : String) (known : List String)
  | variantShape
  | noVariant
  | manyVariants
  | variantContent
  | variantType (found : String)
  deriving Repr, DecidableEq

/-- The wording of a misfit. -/
def Misfit.message : Misfit → String
  | .mismatch found expected => "invalid type: " ++ found ++ ", expected " ++ expected
  | .outOfRange value expected =>
    "invalid value: integer `" ++ Decimal.ofInt value ++ "`, expected " ++ expected
  | .unknownVariant found known => "unknown variant `" ++ found ++ "`, expected " ++
      " or ".intercalate (known.map fun v => "`" ++ v ++ "`")
  | .variantShape => "wanted string or table"
  | .noVariant => "wanted exactly 1 element, found 0 elements"
  | .manyVariants => "wanted exactly 1 element, more than 1 element"
  | .variantContent => "expected empty table"
  | .variantType found => "expected table, found " ++ found

namespace Toml

/-- A number in a message: by position, always with a point. -/
def realWords (x : Float) : String :=
  let text := Decimal.Layout.plain.text x
  if x.isFinite && !text.toList.contains '.' then text ++ ".0" else text

/-- The words for a value in a message. -/
def found : Toml → String
  | .text s => "string " ++ Text.quoted s
  | .integer i => "integer `" ++ Decimal.ofInt i ++ "`"
  | .real x => "floating point `" ++ realWords x ++ "`"
  | .flag b => "boolean `" ++ (if b then "true" else "false") ++ "`"
  | .array _ => "sequence"
  | .moment | .table _ => "map"

/-- The name of the type of a value. -/
def typeName : Toml → String
  | .text _ => "string"
  | .integer _ => "integer"
  | .real _ => "float"
  | .flag _ => "boolean"
  | .moment => "datetime"
  | .array _ => "array"
  | .table _ => "table"

end Toml

/-- A value for a setting, or why there is none. -/
abbrev Fitted (α : Type) := Except Misfit α

/-! ## Reading values -/

namespace Fitted

/-- A text. -/
def text : Toml → Fitted String
  | .text s => .ok s
  | v => .error (.mismatch v.found "a string")

/-- An optional text that is given. -/
def someText (v : Toml) : Fitted (Option String) :=
  (text v).map some

/-- A natural number of 16 bits. -/
def nat16 : Toml → Fitted Nat
  | .integer i =>
    if 0 ≤ i && i < 65536 then .ok i.toNat else .error (.outOfRange i "u16")
  | v => .error (.mismatch v.found "u16")

/-- A list of texts. -/
def texts : Toml → Fitted (List String)
  | .array items => items.mapM text
  | v => .error (.mismatch v.found "a sequence")

/-- One of several variants, as its name or as a table with its name as the only key. -/
def variant {α : Type} (variants : List (String × α)) (v : Toml) : Fitted α :=
  let named (name : String) : Fitted α :=
    match variants.find? (·.1 == name) with
    | some (_, a) => .ok a
    | none => .error (.unknownVariant name (variants.map (·.1)))
  match v with
  | .text name => named name
  | .table [] => .error .noVariant
  | .table [(name, content)] => do
    let a ← named name
    match content with
    | .table [] | .array [] => .ok a
    | .table _ | .array _ => .error .variantContent
    | other => .error (.variantType other.typeName)
  | .table _ => .error .manyVariants
  | _ => .error .variantShape

end Fitted

/-- A setting: its key, and the change that a value makes. -/
structure Setting (σ : Type) where
  key : String
  read : Toml → Fitted (σ → σ)

/-- A setting made of a reader of its value. -/
def Setting.of {σ α : Type} (key : String) (read : Toml → Fitted α) (set : α → σ → σ) :
    Setting σ :=
  ⟨key, fun v => (read v).map set⟩

/-- Settings that belong together. -/
structure SettingGroup (σ : Type) where
  name : String
  settings : List (Setting σ)

namespace SettingGroup

variable {σ : Type}

/-- Reads the entries of a table onto settings; unknown keys do not count. -/
def readEntries (g : SettingGroup σ) : List (String × Toml) → σ → Fitted σ
  | [], s => .ok s
  | (key, value) :: rest, s =>
    match g.settings.find? (·.key == key) with
    | none => g.readEntries rest s
    | some setting =>
      match setting.read value with
      | .error misfit => .error misfit
      | .ok set => g.readEntries rest (set s)

/-- Reads the items of an array onto settings in declared order. -/
def readItems : List (Setting σ) → List Toml → σ → Fitted σ
  | setting :: settings, value :: rest, s =>
    match setting.read value with
    | .error misfit => .error misfit
    | .ok set => readItems settings rest (set s)
  | _, _, s => .ok s

/-- Reads a value onto settings. -/
def read (g : SettingGroup σ) (initial : σ) : Toml → Fitted σ
  | .table entries => g.readEntries entries initial
  | .array items => readItems g.settings items initial
  | .moment => .ok initial
  | v => .error (.mismatch v.found ("struct " ++ g.name))

end SettingGroup

/-! ## The configuration -/

/-- Where the application listens. -/
structure ServerConfig where
  bind : String := "0.0.0.0"
  port : Nat := 3000
  deriving Repr, DecidableEq

/-- The settings of a server. -/
def ServerConfig.group : SettingGroup ServerConfig where
  name := "ServerConfig"
  settings := [
    .of "bind" Fitted.text fun v s => { s with bind := v },
    .of "port" Fitted.nat16 fun v s => { s with port := v }]

/-- Where the backend is, and the credential for calls of the application itself. -/
structure BackendConfig where
  baseUrl : String := "http://localhost:8080"
  serviceToken : Option String := none
  deriving Repr, DecidableEq

/-- The settings of the backend. -/
def BackendConfig.group : SettingGroup BackendConfig where
  name := "ApiConfig"
  settings := [
    .of "base_url" Fitted.text fun v s => { s with baseUrl := v },
    .of "service_token" Fitted.someText fun v s => { s with serviceToken := v }]

/-- How a session token is checked. -/
inductive ValidationMode
  | static
  | remote
  deriving Repr, DecidableEq

/-- The name of a mode in a document. -/
def ValidationMode.variants : List (String × ValidationMode) :=
  [("static", .static), ("remote", .remote)]

/-- The name of a mode in a log line. -/
def ValidationMode.label : ValidationMode → String
  | .static => "Static"
  | .remote => "Remote"

/-- How callers sign in and how their sessions are checked. -/
structure AuthConfig where
  settings : AuthSettings := {}
  validation : ValidationMode := .static
  token : Option String := none
  deriving Repr, DecidableEq

/-- The settings of signing in. -/
def AuthConfig.group : SettingGroup AuthConfig where
  name := "AuthConfig"
  settings := [
    .of "session_cookie" Fitted.text fun v s =>
      { s with settings := { s.settings with sessionCookie := v } },
    .of "sign_in_url" Fitted.text fun v s =>
      { s with settings := { s.settings with signInUrl := v } },
    .of "sign_up_url" Fitted.text fun v s =>
      { s with settings := { s.settings with signUpUrl := v } },
    .of "dashboard_path" Fitted.text fun v s =>
      { s with settings := { s.settings with dashboardPath := v } },
    .of "validation" (Fitted.variant ValidationMode.variants) fun v s =>
      { s with validation := v },
    .of "token" Fitted.someText fun v s => { s with token := v }]

/-- The settings of the guard. -/
def RoutePatterns.group : SettingGroup RoutePatterns where
  name := "GuardConfig"
  settings := [
    .of "public_only" Fitted.texts fun v s => { s with publicOnly := v },
    .of "protected" Fitted.texts fun v s => { s with guarded := v }]

/-- The configuration of the application. -/
structure Config where
  server : ServerConfig := {}
  api : BackendConfig := {}
  auth : AuthConfig := {}
  guard : RoutePatterns := {}
  deriving Repr, DecidableEq

namespace Config

/-- The sections of a configuration. -/
def group : SettingGroup Config where
  name := "Config"
  settings := [
    .of "server" (ServerConfig.group.read {}) fun v s => { s with server := v },
    .of "api" (BackendConfig.group.read {}) fun v s => { s with api := v },
    .of "auth" (AuthConfig.group.read {}) fun v s => { s with auth := v },
    .of "guard" (RoutePatterns.group.read {}) fun v s => { s with guard := v }]

/-- The configuration in a table. -/
def ofTable (table : Toml) : Fitted Config :=
  group.read {} table

/-- Why a text is no configuration. -/
inductive Fault
  | notToml
  | misfit (cause : Misfit)
  deriving Repr, DecidableEq

/-- The configuration in a text. -/
def parse (s : String) : Except Fault Config :=
  match Toml.parse? s with
  | none => .error .notToml
  | some table => (ofTable table).mapError .misfit

/-- The configuration with an address from outside, unless that is blank. -/
def withBaseUrl (c : Config) (address : Option String) : Config :=
  match address.bind Text.nonBlank? with
  | some url => { c with api := { c.api with baseUrl := url } }
  | none => c

/-- The provider for calls of the application itself. -/
def provider (c : Config) : Option Provider :=
  c.api.serviceToken.map fun token => .fixed 0 (some token)

/-- The validator of session tokens. -/
def validator (c : Config) : Validator :=
  match c.auth.validation with
  | .remote => .remote (trimBase c.api.baseUrl)
  | .static => .fixed (c.auth.token.getD "")

/-- The application of a configuration. -/
def app (c : Config) (charsets : Charset.Others := fun _ => none) : App where
  base := trimBase c.api.baseUrl
  service := c.provider
  settings := c.auth.settings
  patterns := c.guard
  validator := c.validator
  charsets := charsets

end Config

end FinanceGateway
