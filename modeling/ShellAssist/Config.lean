import ShellAssist.Host.Environment
import ShellAssist.Host.Path
import ShellAssist.Number.Arithmetic
import ShellAssist.Number.Numeral
import ShellAssist.Text.Lower
import ShellAssist.Text.Blank
import ShellAssist.Failure

namespace ShellAssist

/-!
# Configuration

The settings of all components, their defaults, and how they are read from the variables
`SHELLSENSE_*` of an environment.
-/

open Number (Double Numeral.int Numeral.float?)

/-- The settings. A choice that is absent counts as empty. -/
structure Config where
  shell : Option String := none
  debug : Bool := false
  completionEnabled : Bool := true
  completionBackend : Option String := some "auto"
  historySuggestions : Bool := true
  maxSuggestions : Int := 10
  /-- Seconds a cached answer is good for. -/
  cacheTtl : Double := 300
  /-- Seconds an external command may take. -/
  commandTimeout : Double := 1
  fuzzySearch : Bool := true
  fuzzyBackend : Option String := some "auto"
  fuzzyMaxDistance : Int := 3
  fzfPath : Option String := none
  historyMode : Option String := some "unified"
  historyFile : String := "~/.shellsense_history"
  /-- The most entries kept; zero for no limit. -/
  historyMaxEntries : Int := 10000
  historyMaxResults : Int := 50
  historyDeduplicate : Bool := true
  saveCorrections : Bool := true
  /-- Seconds a save waits for more changes. -/
  saveDebounce : Double := 1
  providers : List (String × Bool) :=
    [("owned", true), ("bash", true), ("zsh", true), ("fish", true)]

namespace Config

/-- The names that may be enabled one by one. -/
def providerNames : List String := ["owned", "bash", "zsh", "fish"]

/-- Whether a history provider is enabled; one that is not mentioned is. -/
def providerEnabled (c : Config) (name : String) : Bool :=
  (c.providers.lookup name).getD true

/-- The shell to work for: the configured one, else the one the environment names, else the plain
one. -/
def resolveShell (c : Config) (env : Option Environment) : String :=
  match c.shell.filter (· ≠ "") with
  | some shell => shell
  | none => (env.bind fun e => Environment.filled? e "SHELL").getD "/bin/sh"

/-- The path of the history file: a leading tilde stands for the process's home directory. -/
def historyPath (c : Config) (processEnvironment : Environment) (users : Users) : Path :=
  match c.historyFile.toList with
  | '~' :: rest =>
    let home := (Path.ofString (Environment.home processEnvironment users)).toString
    Path.ofString (home ++ String.ofList rest)
  | _ => Path.ofString c.historyFile

/-! ### Reading from an environment -/

/-- A switch is on for a few words, off for all others. -/
def readSwitch (value : Option String) (default : Bool) : Bool :=
  match value with
  | none => default
  | some text => ["1", "true", "yes", "on"].contains (Text.lower (Text.strip text))

/-- The whole number that a text writes. -/
def readWhole (text : String) : Except Failure Int :=
  match Numeral.int text.toList with
  | .ok n => .ok n
  | .error .malformed => .error (.notWhole text)
  | .error (.tooLong digits) => .error (.tooManyDigits digits)

/-- The number that a text writes. -/
def readNumber (text : String) : Except Failure Double :=
  match Numeral.float? text.toList with
  | some d => .ok d
  | none => .error (.notNumber text)

/-- The providers that a list with commas enables; an empty list says nothing. -/
def readProviders (listed : Option String) : List (String × Bool) :=
  match listed.filter (· ≠ "") with
  | none => providerNames.map (·, true)
  | some text =>
    let enabled := (Text.splitOn ',' text).map Text.strip
    providerNames.map fun name => (name, enabled.contains name)

/-- The variables that make the settings. -/
def variableNames : List String :=
  ["SHELL", "DEBUG", "COMPLETION", "BACKEND", "HISTORY_SUGGESTIONS", "MAX_SUGGESTIONS", "CACHE_TTL",
   "COMMAND_TIMEOUT", "FUZZY", "FUZZY_BACKEND", "FUZZY_MAX_DISTANCE", "FZF_PATH", "HISTORY_MODE",
   "HISTORY_FILE", "HISTORY_MAX_ENTRIES", "HISTORY_MAX_RESULTS", "HISTORY_DEDUPLICATE",
   "SAVE_CORRECTIONS", "SAVE_DEBOUNCE", "PROVIDERS"].map ("SHELLSENSE_" ++ ·)

/-- The settings that an environment makes. -/
def ofEnvironment (env : Environment) : Except Failure Config := do
  let value (name : String) := Environment.get? env ("SHELLSENSE_" ++ name)
  let text (name default : String) := (value name).getD default
  let maxSuggestions ← readWhole (text "MAX_SUGGESTIONS" "10")
  let cacheTtl ← readNumber (text "CACHE_TTL" "300")
  let commandTimeout ← readNumber (text "COMMAND_TIMEOUT" "1.0")
  let fuzzyMaxDistance ← readWhole (text "FUZZY_MAX_DISTANCE" "3")
  let historyMaxEntries ← readWhole (text "HISTORY_MAX_ENTRIES" "10000")
  let historyMaxResults ← readWhole (text "HISTORY_MAX_RESULTS" "50")
  let saveDebounce ← readNumber (text "SAVE_DEBOUNCE" "1.0")
  return {
    shell := (value "SHELL").filter (· ≠ "")
    debug := readSwitch (value "DEBUG") false
    completionEnabled := readSwitch (value "COMPLETION") true
    completionBackend := some (text "BACKEND" "auto")
    historySuggestions := readSwitch (value "HISTORY_SUGGESTIONS") true
    maxSuggestions, cacheTtl, commandTimeout
    fuzzySearch := readSwitch (value "FUZZY") true
    fuzzyBackend := some (text "FUZZY_BACKEND" "auto")
    fuzzyMaxDistance
    fzfPath := (value "FZF_PATH").filter (· ≠ "")
    historyMode := some (text "HISTORY_MODE" "unified")
    historyFile := text "HISTORY_FILE" "~/.shellsense_history"
    historyMaxEntries, historyMaxResults
    historyDeduplicate := readSwitch (value "HISTORY_DEDUPLICATE") true
    saveCorrections := readSwitch (value "SAVE_CORRECTIONS") true
    saveDebounce
    providers := readProviders (value "PROVIDERS") }

end Config

end ShellAssist
