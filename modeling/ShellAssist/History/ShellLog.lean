import ShellAssist.History.Dialect.Bash
import ShellAssist.History.Dialect.Zsh
import ShellAssist.History.Dialect.Fish
import ShellAssist.History.Search
import ShellAssist.Host.World
import ShellAssist.Host.Shell
import ShellAssist.Config

namespace ShellAssist.History

/-!
# The shells' own histories

A shell log holds the entries of a shell's own history file and never writes it. Before every query
it looks at the file's stamp and reads the file again if the stamp has changed.
-/

/-- The shells whose history files can be read. -/
inductive Dialect where
  | bash
  | zsh
  | fish
  deriving DecidableEq, Repr

namespace Dialect

/-- The name of a shell. -/
def name : Dialect → String
  | .bash => "bash"
  | .zsh => "zsh"
  | .fish => "fish"

/-- The shell of a name. -/
def ofName? (name : String) : Option Dialect :=
  [Dialect.bash, .zsh, .fish].find? fun d => d.name = name

/-- The shell whose history a shell's path or name stands for. -/
def ofShell? (shell : Option String) : Option Dialect :=
  match shell.filter (· ≠ "") with
  | none => none
  | some path =>
    let program := Shell.programName path
    if Text.contains "zsh" program then some .zsh
    else if Text.contains "fish" program then some .fish
    else if Text.contains "bash" program || program = "sh" then some .bash
    else none

/-- The entries of a history file's bytes, oldest first. -/
def parseBytes (d : Dialect) (content : List UInt8) : Except Failure (List Entry) :=
  let text := Text.decodeLossy
  match d with
  | .bash => .ok (Bash.parse (String.ofList (Chars.unifyNewlines (text content))))
  | .zsh => Zsh.parse (String.ofList (text (Zsh.unmetafy content)))
  | .fish => .ok (Fish.parse (String.ofList (Chars.unifyNewlines (text content))))

end Dialect

/-- The home directory of an environment, else of the process. -/
def homeOf (env : Environment) (w : World) : Path :=
  Path.ofString ((Environment.filled? env "HOME").getD (Environment.home w.environment w.users))

/-- A path text as a path; a tilde, alone or before a slash, is the home directory. -/
def expandTilde (env : Environment) (w : World) (text : String) : Path :=
  if text = "~" || Text.startsWith text "~/" then (homeOf env w).join (Text.drop 2 text)
  else Path.ofString text

/-- A shell's own history as last read. -/
structure ShellLog where
  dialect : Dialect
  environment : Environment
  defaults : SearchDefaults := {}
  /-- Oldest first. -/
  entries : List Entry := []
  /-- The newest entry of each command, oldest first. -/
  unique : List Entry := []
  /-- The stamp of the file version that was looked at last; absent if there was no file. -/
  stamp : Option Nat := none
  loaded : Bool := false

namespace ShellLog

/-- The history file that the environment names, unless it belongs to another shell. -/
def configuredPath? (log : ShellLog) (w : World) : Option Path := do
  let file ← Environment.filled? log.environment "HISTFILE"
  let shell := Path.baseName ((Environment.get? log.environment "SHELL").getD "")
  if shell ≠ "" && !Text.contains log.dialect.name shell then none
  else some (expandTilde log.environment w file)

/-- The fish session that the environment names, else the common one. -/
def fishSession (log : ShellLog) : String :=
  (Environment.filled? log.environment "fish_history").getD "fish"

/-- The history file of a fish session. -/
def fishFile (log : ShellLog) (w : World) (session : String) : Path :=
  let base := match Environment.filled? log.environment "XDG_DATA_HOME" with
    | some dir => Path.ofString dir
    | none => ((homeOf log.environment w).join ".local").join "share"
  (base.join "fish").join (session ++ "_history")

/-- The history file of the fish session, if there is one, else the common one. -/
def fishPath (log : ShellLog) (w : World) : Path :=
  let path := log.fishFile w log.fishSession
  if log.fishSession ≠ "fish" && !w.disk.isFile w.cwd path.toString then log.fishFile w "fish"
  else path

/-- The paths that zsh's history may have in the home directory. -/
def zshPaths (log : ShellLog) (w : World) : List Path :=
  [".zsh_history", ".zhistory", ".history"].map (homeOf log.environment w).join

/-- The history file. -/
def path (log : ShellLog) (w : World) : Path :=
  let inHome (name : String) := (homeOf log.environment w).join name
  match log.dialect with
  | .bash => (log.configuredPath? w).getD (inHome ".bash_history")
  | .zsh => (log.configuredPath? w).getD <|
      ((log.zshPaths w).find? fun p => w.disk.isFile w.cwd p.toString).getD
        (inHome ".zsh_history")
  | .fish => log.fishPath w

/-- Whether the system denies to see which of several paths has the history file. -/
def isDenied (log : ShellLog) (w : World) : Bool :=
  let denies (p : Path) := w.disk.denies w.cwd p.toString
  match log.dialect with
  | .bash => false
  | .zsh => (log.configuredPath? w).isNone &&
      ((log.zshPaths w).find? fun p => denies p || w.disk.isFile w.cwd p.toString).any denies
  | .fish => log.fishSession ≠ "fish" && denies (log.fishFile w log.fishSession)

/-- Reads the file. One that is missing or unreadable has no entries. -/
def load (log : ShellLog) (w : World) : Except Failure Unit × ShellLog :=
  let parsed :=
    if log.isDenied w then .error (.system "denied")
    else match w.disk.read w.cwd (log.path w).toString with
      | .ok content => log.dialect.parseBytes content
      | .error .refused => .ok []
      | .error .nul => .error .embeddedNul
  match parsed with
  | .error failure => (.error failure, log)
  | .ok entries =>
    (.ok (), { log with entries, unique := (dedupe entries.reverse).reverse, loaded := true })

/-- The stamp of the version of the file that is there; nothing if there is none or if it cannot be
looked for. -/
def currentStamp (log : ShellLog) (w : World) : Except AccessError (Option Nat) :=
  if log.isDenied w then .ok none else w.disk.stamp? w.cwd (log.path w).toString

/-- Reads the file again if it is another version than the last one. -/
def refresh (log : ShellLog) (w : World) : Except Failure Unit × ShellLog :=
  match log.currentStamp w with
  | .error _ => (.error .embeddedNul, log)
  | .ok stamp =>
    if log.loaded && stamp = log.stamp then (.ok (), log) else { log with stamp }.load w

/-- Forgets what was read. -/
def clear (log : ShellLog) : ShellLog :=
  { log with entries := [], unique := [], stamp := none, loaded := false }

end ShellLog

end ShellAssist.History
