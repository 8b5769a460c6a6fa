import FinanceGateway.Startup.Console

/-!
# The command line

Reads the configuration that the arguments name and writes the log of the start. Listening is up to
the surroundings, so the program ends when it would start to listen.
-/

open FinanceGateway

/-- The contents of a file. -/
def readConfigFile (path : String) : IO (Except Startup.FileFault String) := do
  try
    let bytes ← IO.FS.readBinFile path
    match String.fromUTF8? bytes with
    | some text => pure (.ok text)
    | none => pure (.error .notText)
  catch _ => pure (.error .missing)

/-- Starts the application. -/
def main (arguments : List String) : IO UInt32 := do
  let contents ← readConfigFile (Startup.configPath arguments)
  let (config, lines) :=
    Startup.start arguments (fun _ => contents) (← IO.getEnv "FINTRACK_API_URL")
  let filter := Startup.filterOf (← IO.getEnv "RUST_LOG")
  for line in lines.filter filter.shows do
    IO.println (line.level.label ++ " " ++ line.source ++ ": " ++ line.message)
  IO.eprintln ("Error: cannot listen on " ++ config.server.bind ++ ":" ++
    Decimal.ofInt config.server.port)
  return 1
