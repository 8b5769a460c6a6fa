import FinanceGateway.Startup.Config
import FinanceGateway.Startup.Log

/-!
# Starting up

What happens before the application listens: the configuration is found and read, with defaults for
one that cannot be, and the backend's health is checked once. Each of these is a log line.
-/

namespace FinanceGateway.Startup

/-- The part of the program that starts it, in its log lines. -/
def mainSource : String := "fintrack_console"

/-- The part of the program that reads the configuration, in its log lines. -/
def configSource : String := "fintrack_console::config"

/-- The configuration file that is read when none is named. -/
def defaultPath : String := "config.example.toml"

/-- The configuration file that the arguments name. -/
def configPath (arguments : List String) : String :=
  match arguments.dropWhile (· != "--config") with
  | _ :: path :: _ => path
  | _ => defaultPath

/-- Why a file cannot be read. -/
inductive FileFault
  | missing
  | directory
  | notText
  deriving Repr, DecidableEq

/-- The wording of a file fault. -/
def FileFault.message : FileFault → String
  | .missing => "No such file or directory (os error 2)"
  | .directory => "Is a directory (os error 21)"
  | .notText => "stream did not contain valid UTF-8"

/-- The configuration in the contents of a file, and the log lines about it. The line about a text
that is no configuration stops before the words of the parser, which are left out. -/
def load (path : String) (contents : Except FileFault String) : Config × List LogLine :=
  match contents with
  | .error fault =>
    ({}, [⟨.warn, configSource,
      "failed to read config " ++ path ++ ": " ++ fault.message ++ ", using defaults"⟩])
  | .ok text =>
    match Config.parse text with
    | .ok config => (config, [])
    | .error _ => ({}, [⟨.warn, configSource, "failed to parse config " ++ path⟩])

/-- The log line about a configuration that was read. -/
def loadedLine (path : String) (c : Config) : LogLine :=
  ⟨.info, mainSource, "loaded config from " ++ path ++ ": bind=" ++ c.server.bind ++ ":" ++
    Decimal.ofInt c.server.port ++ " api=" ++ c.api.baseUrl ++ " validation=" ++
    c.auth.validation.label⟩

/-- The log lines about the validator of a configuration. -/
def validatorLines (c : Config) : List LogLine :=
  match c.auth.validation, (c.auth.token.getD "").isEmpty with
  | .static, true => [⟨.warn, mainSource,
      "static session validation without a token; every session will be rejected"⟩]
  | _, _ => []

/-- The configuration and the log lines of a start. -/
def start (arguments : List String) (read : String → Except FileFault String)
    (baseUrl : Option String) : Config × List LogLine :=
  let path := configPath arguments
  let (config, lines) := load path (read path)
  let config := config.withBaseUrl baseUrl
  (config, lines ++ loadedLine path config :: validatorLines config)

/-- The filter that a start uses: the given one if it can be read, else that of all information. -/
def filterOf (text : Option String) : LogFilter :=
  (text.bind LogFilter.parse?).getD (.ofLevel .info)

/-- The log line about the backend's health. -/
def healthLine (base : String) : Except ApiError Health → LogLine
  | .ok health =>
    if health.isHealthy then
      ⟨.info, mainSource, "backend at " ++ base ++ " is " ++ health.status⟩
    else
      ⟨.warn, mainSource, "backend at " ++ base ++ " reports " ++ health.status ++
        " (failing checks: " ++ Text.quotedList health.failing ++ ")"⟩
  | .error e => ⟨.warn, mainSource, "backend health check failed: " ++ e.humanMessage⟩

/-- Checks the backend's health once. -/
def checkBackend (base : String) (provider : Option Provider) : Plan LogLine :=
  (Service.getHealth.execute base provider).bind fun health => .done (healthLine base health)

end FinanceGateway.Startup
