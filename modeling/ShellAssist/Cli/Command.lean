import ShellAssist.Cli.Arguments

namespace ShellAssist.Cli

/-!
# Commands

The commands, their options and operands, and their help texts.

* `Request.read` — the settings and the command's name at the front of a command line;
* `Command.read` — the command that a name and the words behind it make;
* `Manual.text` — the help text of a command.
-/

/-! ### Manuals -/

/-- How a command is used. -/
structure Manual where
  /-- The names that lead to the command. -/
  path : List String
  operands : List String := []
  about : List String
  flags : List Flag := []
  /-- The commands of a group. -/
  commands : List (String × String) := []
  deriving DecidableEq, Repr

namespace Manual

/-- The settings of all commands. -/
def main : Manual where
  path := ["main"]
  operands := ["COMMAND", "[ARGS]..."]
  about :=
    ["ShellSense - completion and history ranking for interactive shells", "",
     "Settings come from SHELLSENSE_* environment variables (a .env file in the",
     "current directory is loaded first); options override them."]
  flags :=
    [{ name := "--shell", value := some .text
       about := "Shell to complete for (default: $SHELL)" },
     { name := "--history-mode", value := some .text
       about := "History mode: solo, shell-only or unified" },
     { name := "--debug", about := "Write debug logs" },
     { name := "--log-dir", value := some .text
       about := "Log directory (default: logs/YYYY-MM-DD)" }]
  commands :=
    [("complete", "Rank completions for the word under the cursor of LINE."),
     ("history", "Search, inspect and record command history."),
     ("version", "Show version information.")]

/-- The completion of a line. -/
def complete : Manual where
  path := ["main", "complete"]
  operands := ["LINE"]
  about := ["Rank completions for the word under the cursor of LINE."]
  flags :=
    [{ name := "--cursor", value := some .whole
       about := "Cursor offset (default: end of line)" },
     { name := "--cwd", value := some .directory
       about := "Working directory for path completion" },
     { name := "--json", about := "Print candidates as JSON" }]

/-- The commands about the history. -/
def history : Manual where
  path := ["main", "history"]
  operands := ["COMMAND", "[ARGS]..."]
  about := ["Search, inspect and record command history."]
  commands :=
    [("add", "Record COMMAND in the ShellSense history file."),
     ("export", "Export the active provider's history to stdout."),
     ("search", "Most recent commands containing QUERY."),
     ("stats", "Per-provider history statistics.")]

/-- A search in the history. -/
def search : Manual where
  path := ["main", "history", "search"]
  operands := ["[QUERY]"]
  about := ["Most recent commands containing QUERY."]
  flags :=
    [{ name := "--limit", letter := some 'n', value := some .whole, about := "Maximum results" },
     { name := "--json", about := "Print entries as JSON records" }]

/-- Statistics of the history. -/
def stats : Manual where
  path := ["main", "history", "stats"]
  about := ["Per-provider history statistics."]
  flags := [{ name := "--json", about := "Print stats as JSON" }]

/-- The formats that the history can be written in. -/
def formats : List String := ["json", "plain", "bash", "zsh"]

/-- The history in some format. -/
def exported : Manual where
  path := ["main", "history", "export"]
  about := ["Export the active provider's history to stdout."]
  flags :=
    [{ name := "--format", value := some (.choice formats), about := "Output format" }]

/-- The recording of a command. -/
def add : Manual where
  path := ["main", "history", "add"]
  operands := ["COMMAND"]
  about := ["Record COMMAND in the ShellSense history file."]
  flags :=
    [{ name := "--exit-code", value := some .whole, about := "Exit status of the command" },
     { name := "--cwd", value := some .text, about := "Directory the command ran in" },
     { name := "--duration", value := some .whole, about := "Run time in milliseconds" }]

/-- The program's version. -/
def version : Manual where
  path := ["main", "version"]
  about := ["Show version information."]

/-- Two columns, the second of which is aligned. -/
def columns (rows : List (String × String)) : List String :=
  let width := (rows.map fun row => row.1.length).foldl max 0
  rows.map fun (left, right) =>
    "  " ++ left ++ String.ofList (List.replicate (width + 2 - left.length) ' ') ++ right

/-- An option as its manual shows it. -/
def flagText (f : Flag) : String :=
  (f.letter.elim "" fun c => "-" ++ c.toString ++ ", ") ++ f.name ++
    f.value.elim "" fun kind => " " ++ kind.name

/-- The help text of a command. -/
def text (m : Manual) : String :=
  let usage := "Usage: " ++ String.intercalate " " (m.path ++ "[OPTIONS]" :: m.operands)
  let about := m.about.map fun line => if line.isEmpty then line else "  " ++ line
  let flags := columns ((m.flags ++ [helpFlag]).map fun f => (flagText f, f.about))
  let commands := if m.commands.isEmpty then [] else ["", "Commands:"] ++ columns m.commands
  let lines := usage :: "" :: about ++ ["", "Options:"] ++ flags ++ commands
  String.intercalate "\n" lines ++ "\n"

end Manual

/-! ### Commands -/

/-- What a command line asks for. -/
inductive Command where
  | complete (line : String) (cursor : Option Int) (cwd : Option String) (json : Bool)
  | search (text : String) (limit : Int) (json : Bool)
  | stats (json : Bool)
  | exported (format : String)
  | add (command : String) (exitCode : Option Int) (cwd : Option String) (duration : Option Int)
  | version
  deriving DecidableEq, Repr

/-- The one operand of a command. -/
def operand : List String → Except Stop String
  | [text] => .ok text
  | _ => .error .misuse

/-- Nothing, for a command without operands. -/
def noOperand : List String → Except Stop Unit
  | [] => .ok ()
  | _ => .error .misuse

/-- Why words that name no command of a group stop. Behind a word of two hyphens such words can
look like options, and then they still may ask for help. -/
def unknownCommand (group : Manual) (words : List String) : Stop × Manual :=
  match Arguments.read group.flags true words with
  | .error stop => (stop, group)
  | .ok _ => (.misuse, group)

/-- The most entries of a search unless told otherwise. -/
def defaultLimit : Int := 20

namespace Command

/-- The completion of a line. -/
def readComplete (a : Arguments) : Except Stop Command := do
  let line ← operand a.positional
  return .complete line (a.whole? "--cursor") (a.value? "--cwd") (a.has "--json")

/-- A search in the history; without an operand it finds everything. -/
def readSearch (a : Arguments) : Except Stop Command := do
  let text ← if a.positional.isEmpty then pure "" else operand a.positional
  return .search text ((a.whole? "--limit").getD defaultLimit) (a.has "--json")

/-- Statistics of the history. -/
def readStats (a : Arguments) : Except Stop Command := do
  noOperand a.positional
  return .stats (a.has "--json")

/-- The history in a format. -/
def readExported (a : Arguments) : Except Stop Command := do
  noOperand a.positional
  return .exported ((a.value? "--format").getD "json")

/-- The recording of a command. -/
def readAdd (a : Arguments) : Except Stop Command := do
  let command ← operand a.positional
  return .add command (a.whole? "--exit-code") (a.value? "--cwd") (a.whole? "--duration")

/-- The program's version. -/
def readVersion (a : Arguments) : Except Stop Command := do
  noOperand a.positional
  return .version

/-- The commands about the history, with their manuals. -/
def ofHistory : List (String × Manual × (Arguments → Except Stop Command)) :=
  [("add", .add, readAdd), ("export", .exported, readExported), ("search", .search, readSearch),
   ("stats", .stats, readStats)]

/-- Reads a command by its manual. A misuse and a wish for help name the manual. -/
def readBy (manual : Manual) (make : Arguments → Except Stop Command) (words : List String) :
    Except (Stop × Manual) Command :=
  (Arguments.read manual.flags false words >>= make).mapError (·, manual)

/-- The command of a name and the words behind it; the commands about the history have a second
name. -/
def read (name : String) (words : List String) : Except (Stop × Manual) Command :=
  match name with
  | "complete" => readBy .complete readComplete words
  | "version" => readBy .version readVersion words
  | _ => do
    let a ← (Arguments.read Manual.history.flags true words).mapError (·, Manual.history)
    match a.positional with
    | [] => .error (.misuse, .history)
    | second :: rest =>
      match ofHistory.lookup second with
      | none => .error (unknownCommand .history (second :: rest))
      | some (manual, make) => readBy manual make rest

end Command

/-! ### Requests -/

/-- The front of a command line. -/
structure Request where
  shell : Option String
  historyMode : Option String
  debug : Bool
  logDirectory : Option String
  /-- The name of the command, and the words behind it. -/
  command : String
  words : List String
  deriving DecidableEq, Repr

/-- The settings of a command line and the name of its command. -/
def Request.read (words : List String) : Except (Stop × Manual) Request := do
  let a ← (Arguments.read Manual.main.flags true words).mapError (·, Manual.main)
  match a.positional with
  | [] => .error (.misuse, .main)
  | command :: rest =>
    if (Manual.main.commands.lookup command).isNone then
      .error (unknownCommand .main (command :: rest))
    else return {
      shell := (a.value? "--shell").filter (· ≠ "")
      historyMode := (a.value? "--history-mode").filter (· ≠ "")
      debug := a.has "--debug", logDirectory := a.value? "--log-dir", command, words := rest }

end ShellAssist.Cli
