import ShellAssist.Cli.Command
import ShellAssist.Completion.Completer
import ShellAssist.Screen.Show
import ShellAssist.Text.ControlSequence

namespace ShellAssist.Cli

/-!
# Sessions

A session carries out command lines one after the other on one world. Each makes its components
anew from the environment; what a command leaves to be done when the program ends is kept.

* `Session.run` — the answer to a command line;
* `Session.exit` — the end of the program.
-/

open Screen (Shown)

/-- What a command line comes to. -/
structure Answer where
  exitCode : Nat := 0
  /-- The text written to the output. -/
  output : String := ""
  /-- What is shown on the screen. -/
  shown : List Shown := []
  /-- What is shown on the screen for errors. -/
  complaints : List Shown := []
  deriving DecidableEq, Repr

/-- The answer to a command line that is not carried out. -/
def Answer.ofStop : Stop × Manual → Except Failure Answer
  | (.help, manual) => .ok { output := manual.text }
  | (.misuse, _) => .ok { exitCode := 2 }
  | (.failure cause, _) => .error cause

/-- A wish for debug logs, in a directory if one is named. -/
structure LogRequest where
  directory : Option String
  deriving DecidableEq, Repr

/-- Command lines on one world. -/
structure Session where
  world : World
  /-- The wishes for debug logs so far, first to last. -/
  logRequests : List LogRequest := []
  /-- The histories that wait for the end of the program, latest first. -/
  waiting : List History.Archive := []

namespace Session

/-- What a step of a session gives: its result and the session behind it. -/
abbrev Step (α : Type) := Except Failure α × Session

/-- Output with a line break behind it. Control sequences of terminals are left out. -/
def written (text : String) : Answer :=
  { output := Text.dropControls (text ++ "\n") }

/-- Output of a value as JSON. -/
def writtenJson (nesting : Nat) (value : Value) : Except Failure Answer :=
  (value.encode nesting .indented).map written

/-- The settings of a request: those of the environment, overridden by its own. -/
def configOf (request : Request) (w : World) : Except Failure Config := do
  let config ← Config.ofEnvironment w.environment
  return { config with
    shell := request.shell.or config.shell
    historyMode := request.historyMode.or config.historyMode
    debug := request.debug || config.debug }

/-- A fresh history archive. -/
def openHistory (s : Session) (config : Config) : History.Archive × Session :=
  let (archive, world) := History.Archive.create config s.world.environment none s.world
  (archive, { s with world })

/-- Whether a directory can be worked in: it has to exist and to be readable. -/
def canEnter (w : World) (directory : String) : Bool :=
  w.disk.isDirectory w.cwd directory && w.disk.isReadable w.cwd directory

/-- The completions of a line. -/
def complete (s : Session) (config : Config) (line : String) (cursor : Option Int)
    (cwd : Option String) (json : Bool) : Step Answer :=
  if !cwd.all (canEnter s.world) then (.ok { exitCode := 2 }, s)
  else
    let (completer, world) := Completion.Completer.create config none none none s.world
    let (found, _, world) := completer.complete line cursor cwd world
    let answer := do
      let candidates ← found
      let title := "Completions for " ++ Text.quoted line
      if json then writtenJson world.nesting (.ofJson (.arr (candidates.map Candidate.toJson)))
      else return { shown := [Screen.candidates candidates title] }
    (answer, { s with world })

/-- An entry as a record that tells its source. -/
def record (e : History.Entry) : Value :=
  .dict (Members.set "source" (.str e.source) e.recordMembers)

/-- The newest matching entries. -/
def search (s : Session) (config : Config) (text : String) (limit : Int) (json : Bool) :
    Step Answer :=
  let (archive, s) := s.openHistory config
  let (found, _) := archive.search s.world text (some limit) none
  let answer := do
    let entries ← found
    if json then writtenJson s.world.nesting (.list (entries.map record))
    else return { shown := [← Screen.history entries s.world.offset s.world.millis] }
  (answer, s)

/-- The statistics of the histories. -/
def stats (s : Session) (config : Config) (json : Bool) : Step Answer :=
  let (archive, s) := s.openHistory config
  let (all, _) := archive.stats s.world
  let answer :=
    if json then writtenJson s.world.nesting
      (.ofJson (.obj (all.map fun (name, members) => (name, .obj members))))
    else .ok { shown := Screen.statistics all }
  (answer, s)

/-- The active history in a format. -/
def exported (s : Session) (config : Config) (format : String) : Step Answer :=
  let (archive, s) := s.openHistory config
  match (archive.exportAs s.world format).1 with
  | .ok text => (.ok (written text), s)
  | .error failure =>
    if failure.kind = .value then
      (.ok { exitCode := 1, complaints := [Screen.error failure.message] }, s)
    else (.error failure, s)

/-- The session with a history that waits for the end of the program. -/
def await (s : Session) (archive : History.Archive) (world : World) : Session :=
  { s with world, waiting := archive :: s.waiting }

/-- Records a command at once. -/
def add (s : Session) (config : Config) (entry : History.Entry) : Step Answer :=
  let (archive, s) := s.openHistory config
  let (stored, archive, world) := archive.add entry s.world
  match stored with
  | .error failure => (.error failure, s.await archive world)
  | .ok stored =>
    let (flushed, archive, world) := archive.flush world
    let complaints :=
      if stored then [] else [Screen.warning "Not recorded (empty or repeated command)"]
    (flushed.map fun () => { complaints }, s.await archive world)

/-- The name and number of this version. -/
def versionLine : Shown :=
  .line "[bold]ShellSense[/bold] v0.1.0"

/-- Carries out a command. -/
def execute (s : Session) (config : Config) : Command → Step Answer
  | .complete line cursor cwd json => s.complete config line cursor cwd json
  | .search text limit json => s.search config text limit json
  | .stats json => s.stats config json
  | .exported format => s.exported config format
  | .add command exitCode cwd duration => s.add config { command, exitCode, cwd, duration }
  | .version => (.ok { shown := [versionLine] }, s)

/-- Carries out a command line. -/
def run (s : Session) (words : List String) : Step Answer :=
  match Request.read words with
  | .error stop => (Answer.ofStop stop, s)
  | .ok request =>
    match configOf request s.world with
    | .error failure => (.error failure, s)
    | .ok config =>
      let s := if config.debug then
        { s with logRequests := s.logRequests ++ [⟨request.logDirectory⟩] } else s
      match Command.read request.command request.words with
      | .error stop => (Answer.ofStop stop, s)
      | .ok command => s.execute config command

/-- The files of histories and hosts that command lines read. -/
def files (w : World) : List String :=
  let env := w.environment
  let config := (Config.ofEnvironment env).toOption.getD {}
  let home := History.homeOf env w
  let shellLogs := [History.Dialect.bash, .zsh, .fish].map fun dialect =>
    ({ dialect, environment := env } : History.ShellLog).path w
  let known := [".zsh_history", ".zhistory", ".history", ".ssh/known_hosts", ".ssh/config"]
  let paths := (History.Store.create config env w).path :: shellLogs ++ known.map home.join
  Text.distinct (paths.map Path.toString ++ ["/etc/hosts", Path.joinRaw w.cwd "package.json"])

/-- One step of each waiting history, latest first; the counts are added up. -/
def overWaiting (op : History.Archive → World → History.Archive.Step Nat) :
    List History.Archive → World → Except Failure Nat × List History.Archive × World
  | [], w => (.ok 0, [], w)
  | archive :: rest, w =>
    let (count, archive, w) := op archive w
    let (others, rest, w) := overWaiting op rest w
    (do return (← count) + (← others), archive :: rest, w)

/-- Lets the timers of saves fire; says how many did. -/
def fireTimers (s : Session) : Step Nat :=
  let (count, waiting, world) := overWaiting History.Archive.fireTimer s.waiting s.world
  (count, { s with waiting, world })

/-- Ends the program; says how many histories were waiting for that. -/
def exit (s : Session) : Step Nat :=
  let (count, waiting, world) := overWaiting History.Archive.exit s.waiting s.world
  (count, { s with waiting, world })

end Session

end ShellAssist.Cli
