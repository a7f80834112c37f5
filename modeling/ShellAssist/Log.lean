import ShellAssist.Time.Calendar
import ShellAssist.Json.Value
import ShellAssist.Text.Upper

namespace ShellAssist.Log

/-!
# Log files

Events become records, and records lines of the log files, of which each level has its own.

* `Event.toRecord` — level, component, message and data of an event;
* `Settings.fileNames` — the files that are written, from a threshold up;
* `files` — the files behind a series of settings and the events after it.
-/

open Number (Double Decimal.ofInt Decimal.fixed Decimal.rounded)

/-! ### Levels -/

/-- How serious a record is. -/
inductive Level where
  | debug
  | info
  | warning
  | error
  | critical
  deriving DecidableEq, Repr

namespace Level

/-- All levels, least first. -/
def all : List Level := [.debug, .info, .warning, .error, .critical]

/-- The name of a level. -/
def name : Level → String
  | .debug => "DEBUG"
  | .info => "INFO"
  | .warning => "WARNING"
  | .error => "ERROR"
  | .critical => "CRITICAL"

/-- The rank of a level among all that can be named. -/
def rank : Level → Nat
  | .debug => 10
  | .info => 20
  | .warning => 30
  | .error => 40
  | .critical => 50

/-- The file that takes the records of a level. -/
def fileName? : Level → Option String
  | .debug => some "debug.log"
  | .info => some "info.log"
  | .warning => some "warning.log"
  | .error => some "error.log"
  | .critical => none

/-- Further names of levels. -/
def aliases : List (String × Level) :=
  [("WARN", .warning), ("FATAL", .critical)]

/-- The level of a name. -/
def ofName? (name : String) : Option Level :=
  (all.find? fun level => level.name = name).or (aliases.lookup name)

end Level

/-! ### Records -/

/-- Where a record comes from. -/
inductive Origin where
  | component (name : String)
  /-- A logger, by its name with dots. -/
  | logger (name : String)
  deriving DecidableEq, Repr

/-- A record of an event. -/
structure Record where
  level : Level
  origin : Origin
  message : String
  data : Members := []

/-- The logger whose records, and those of the loggers below it, are written. -/
def rootLogger : String := "shellsense"

/-- Whether the records of an origin are written. -/
def Origin.isWritten : Origin → Bool
  | .component _ => true
  | .logger name => name = rootLogger || Text.startsWith name (rootLogger ++ ".")

/-- The component that a line of text names. -/
def Origin.short : Origin → String
  | .component name => Text.upper name
  | .logger name => Text.upper (Text.afterLast '.' name)

/-- The component that a JSON record names. -/
def Origin.full : Origin → String
  | .component name => Text.upper name
  | .logger name => name

/-- A text filled up with spaces behind it. -/
def padRight (width : Nat) (text : String) : String :=
  text ++ String.ofList (List.replicate (width - text.length) ' ')

/-- The line of text for a record. -/
def Record.line (r : Record) (clock : Double) : Except Failure String := do
  let seconds ← match clock.floor? with
    | some n => .ok n
    | none => .error .instantOutOfRange
  let _ ← Time.systemDate (fun _ => 0) seconds
  return Time.timeOfDay seconds ++ " [" ++ padRight 8 r.origin.short ++ "] " ++ r.message ++ "\n"

/-- The JSON value for a record. -/
def Record.toJson (r : Record) (clock : Double) : Except Failure Json := do
  let time ← Time.instant (← Time.microseconds clock)
  return .obj ([("time", .str time), ("level", .str r.level.name),
    ("component", .str r.origin.full), ("message", .str r.message)] ++ r.data)

/-! ### Events -/

/-- Something that is logged. -/
inductive Event where
  | completionRequest (word slot : String) (command : Option String)
  | completionResult (word : String) (count : Int) (isFuzzy : Bool) (millis : Double)
  | cacheHit (key : List Json)
  /-- A source gave no data. -/
  | sourceFailed (component source reason : String)
  | historyLoaded (source path : String) (count : Int)
  | historyResults (source query : String) (count : Int)
  | configMismatch (kind : String) (name : Option String) (fallback : String)
  | warning (component message : String)
  | error (component message : String) (cause : Option String)
  /-- A message to a logger. -/
  | logged (logger : String) (level : Level) (text : String)

/-- The items of a key in parentheses; a single one has a comma behind it. -/
def keyText : List Json → String
  | [] => "()"
  | [item] => "(" ++ String.ofList item.displayNested ++ ",)"
  | items =>
    "(" ++ String.intercalate ", " (items.map fun i => String.ofList i.displayNested) ++ ")"

/-- The lines that tell the cause of an error. -/
def causeText (cause : String) : String :=
  if cause.isEmpty then "\nValueError\n" else "\nValueError: " ++ cause ++ "\n"

/-- A debug record. -/
def debug (component message : String) (data : Members) : Record :=
  { level := .debug, origin := .component component, message, data }

/-- The record of an event. -/
def Event.toRecord : Event → Record
  | .completionRequest word slot command =>
    debug "complete"
      ("Request: word=" ++ Text.quoted word ++ " slot=" ++ slot ++ " command=" ++
        Text.quotedOption command)
      [("word", .str word), ("slot", .str slot), ("command", .ofString? command)]
  | .completionResult word count isFuzzy millis =>
    debug "complete"
      (digits count ++ " candidates for " ++ Text.quoted word ++
        (if isFuzzy then " (fuzzy, " else " (priority, ") ++ Decimal.fixed 1 millis ++ "ms)")
      [("word", .str word), ("count", .int count), ("fuzzy", .bool isFuzzy),
        ("elapsed_ms", .float (Decimal.rounded 1 millis))]
  | .cacheHit key => debug "cache" ("Hit: " ++ keyText key) [("key", .arr key)]
  | .sourceFailed component source reason =>
    debug component ("Source unavailable: " ++ source ++ " (" ++ reason ++ ")")
      [("source", .str source), ("reason", .str reason)]
  | .historyLoaded source path count =>
    debug "history"
      ("Loaded " ++ digits count ++ " entries from " ++ source ++ " (" ++ path ++ ")")
      [("source", .str source), ("path", .str path), ("count", .int count)]
  | .historyResults source query count =>
    debug "history" (source ++ ": " ++ digits count ++ " results for " ++ Text.quoted query)
      [("source", .str source), ("query", .str query), ("count", .int count)]
  | .configMismatch kind name fallback =>
    { level := .warning, origin := .component "config"
      message := "Unknown " ++ kind ++ " " ++ Text.quotedOption name ++ ", falling back to " ++
        fallback
      data := [("kind", .str kind), ("requested", .ofString? name), ("fallback", .str fallback)] }
  | .warning component message => { level := .warning, origin := .component component, message }
  | .error component message cause =>
    { level := .error, origin := .component component
      message := message ++ cause.elim "" causeText
      data := [("error", .ofString? cause)] }
  | .logged logger level text => { level, origin := .logger logger, message := text }
where
  digits (n : Int) : String := String.ofList (Decimal.ofInt n)

/-! ### Files -/

/-- How logs are to be written. -/
structure Settings where
  level : String := "INFO"
  /-- Records are JSON values instead of lines of text. -/
  json : Bool := false
  enabled : Bool := true
  deriving DecidableEq, Repr

namespace Settings

/-- The least rank that is written. A level that is not known stands for the informative one. -/
def threshold (s : Settings) : Nat :=
  let name := Text.upper s.level
  if name = "NOTSET" then 0 else ((Level.ofName? name).getD .info).rank

/-- The levels that have files. -/
def levels (s : Settings) : List Level :=
  Level.all.filter fun level => s.threshold ≤ level.rank

/-- The files that are written. -/
def fileNames (s : Settings) : List String :=
  s.levels.filterMap Level.fileName?

end Settings

/-- The text of a file with these records. A record that cannot be written is left out. -/
def Settings.text (nesting : Nat) (s : Settings) (clock : Double) (records : List Record) : String :=
  String.join (records.filterMap fun r =>
    if s.json then (r.toJson clock >>= Json.encode nesting).toOption.map (· ++ "\n")
    else (r.line clock).toOption)

/-- The files behind a series of settings and then events, with their texts. Every enabled setting
makes its files; the last one decides which of them the records reach, and how. -/
def files (nesting : Nat) (settings : List Settings) (events : List Event) (clock : Double) :
    List (String × String) :=
  let enabled := settings.filter (·.enabled)
  let records := (events.map Event.toRecord).filter fun r => r.origin.isWritten
  match enabled.getLast? with
  | none => []
  | some last =>
    let reaching (name : String) := records.filter fun r =>
      r.level.fileName? = some name && last.levels.contains r.level
    (Text.distinct (enabled.flatMap Settings.fileNames)).map fun name =>
      (name, last.text nesting clock (reaching name))

end ShellAssist.Log
