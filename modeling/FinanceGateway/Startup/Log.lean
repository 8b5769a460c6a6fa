import FinanceGateway.Text.Blank

/-!
# Log lines and filters

A log line has a level, the part of the program it comes from, and a message. A filter is a list of
directives, each with a level and possibly a target; of the directives whose target starts the name
of a line's part, that with the longest target decides.
-/

namespace FinanceGateway

/-- The level of a log line. -/
inductive LogLevel
  | error
  | warn
  | info
  | debug
  | trace
  deriving Repr, DecidableEq

/-- How much a filter has to let through to show a level. -/
def LogLevel.rank : LogLevel → Nat
  | .error => 1
  | .warn => 2
  | .info => 3
  | .debug => 4
  | .trace => 5

/-- The label of a level. -/
def LogLevel.label : LogLevel → String
  | .error => "ERROR"
  | .warn => "WARN"
  | .info => "INFO"
  | .debug => "DEBUG"
  | .trace => "TRACE"

/-- A log line and the part of the program that writes it. -/
structure LogLine where
  level : LogLevel
  source : String
  message : String
  deriving Repr, DecidableEq

/-- A directive of a filter; one about spans shows no line outside of them. -/
inductive LogDirective
  | lines (target : Option String) (rank : Nat)
  | spans
  deriving Repr, DecidableEq

namespace LogDirective

/-- The rank that a word or a digit names. -/
def rank? (word : List Char) : Option Nat :=
  let names := ["off", "error", "warn", "info", "debug", "trace"]
  match names.findIdx? fun n => Text.eqIgnoreCase n (String.ofList word) with
  | some rank => some rank
  | none =>
    match word with
    | [d] => if '0' ≤ d && d ≤ '5' then some (d.toNat - 48) else none
    | _ => none

/-- The rank after an equals sign; nothing stands for the highest. -/
def rankOrAll? (word : List Char) : Option Nat :=
  if word.isEmpty then some 5 else rank? word

/-- Whether a directive can start with a character. -/
def canStart (c : Char) : Bool :=
  c.isAlphanum || c == '-' || c == ':' || c == '_' || 0x80 ≤ c.toNat

/-- Reads a directive: a level, a target, or a target and a level. Where the parts meet is found in
the trimmed text, and the parts are taken from the text as it stands. -/
def parse? (text : List Char) : Option LogDirective :=
  let trimmed := Text.trimChars text
  match trimmed with
  | [] => none
  | '[' :: _ => if trimmed.contains ']' then some .spans else none
  | c :: _ =>
    let place := trimmed.findIdx fun c => c == '=' || c == '['
    if !canStart c then none
    else match trimmed[place]? with
      | none =>
        match rank? text with
        | some rank => some (.lines none rank)
        | none => some (.lines (some (String.ofList text)) 5)
      | some '=' =>
        (rankOrAll? (text.drop (place + 1))).map (.lines (some (String.ofList (text.take place))))
      | some _ => if trimmed.contains ']' then some .spans else none

end LogDirective

/-- A filter of log lines. -/
abbrev LogFilter := List LogDirective

namespace LogFilter

/-- The filter that shows a level and all above it. -/
def ofLevel (level : LogLevel) : LogFilter :=
  [.lines none level.rank]

/-- The text cut at its commas. -/
def splitCommas : List Char → List (List Char)
  | [] => [[]]
  | ',' :: rest => [] :: splitCommas rest
  | c :: rest =>
    match splitCommas rest with
    | [] => [[c]]
    | piece :: pieces => (c :: piece) :: pieces

/-- Reads a filter; an empty text shows errors only. -/
def parse? (text : String) : Option LogFilter :=
  if text.isEmpty then some (ofLevel .error)
  else (splitCommas text.toList).mapM LogDirective.parse?

/-- How specific a directive is for a source, and the rank it gives; none if it is for others. -/
def weigh (source : String) : LogDirective → Option (Nat × Nat)
  | .spans => none
  | .lines none rank => some (0, rank)
  | .lines (some target) rank =>
    if target.toList.isPrefixOf source.toList then some (target.length + 1, rank) else none

/-- The rank that a source is shown with. -/
def rankFor (filter : LogFilter) (source : String) : Nat :=
  let best := (filter.filterMap (weigh source)).foldl
    (fun best next => if best.1 ≤ next.1 then next else best) (0, 0)
  best.2

/-- Whether a line is shown. -/
def shows (filter : LogFilter) (line : LogLine) : Bool :=
  line.level.rank ≤ filter.rankFor line.source

end LogFilter

end FinanceGateway
