import ShellAssist.Cli.Session
import ShellAssist.Log
import ShellAssist.Screen.Plain
import Std.Time.DateTime.Timestamp

/-!
# The command line

Reads the environment and the files that a command line can need, carries the command line out on
that world, prints the answer, and writes the files that have changed and the logs. Directories are
not listed and no other program is run: such sources contribute nothing.
-/

namespace ShellAssist.Main

open Number (Double)

/-- The variables that the program reads. -/
def variableNames : List String :=
  ["HOME", "PATH", "SHELL", "HISTFILE", "XDG_DATA_HOME", "fish_history"] ++
    Config.variableNames

/-- The variables that are set. -/
def readEnvironment : IO Environment :=
  variableNames.filterMapM fun name => do return (← IO.getEnv name).map (name, ·)

/-- The disk with a file as it is now, if it can be read. -/
def readFile (disk : Disk) (path : String) : IO Disk := do
  try
    let content ← IO.FS.readBinFile path
    return disk.install (Disk.placeOf path) (.file content.toList false false)
  catch _ => return disk

/-- The world as it is now, as far as command lines need it. -/
def readWorld : IO World := do
  let cwd := (← IO.currentDir).toString
  let now ← Std.Time.Timestamp.now
  let clock := (Double.quotient? now.toMillisecondsSinceUnixEpoch.toInt 1000).getD 0
  let environment ← readEnvironment
  let disk : Disk := Disk.install {} (Disk.placeOf cwd) (.directory false)
  let bare : World := { disk, cwd, clock, environment }
  return { bare with disk := ← (Cli.Session.files bare).foldlM readFile disk }

/-- Writes a file beside the old one and moves it into place. -/
def writeFile (path : String) (content : List UInt8) : IO Unit := do
  let beside := path ++ ".tmp"
  IO.FS.createDirAll (Path.ofString path).parent.toString
  IO.FS.writeBinFile beside ⟨content.toArray⟩
  IO.FS.rename beside path

/-- Writes the files that are not as they were. -/
def writeChanges (before after : Disk) : IO Unit :=
  after.nodes.forM fun (place, found) =>
    match found.node with
    | .file content .. => do
      if (before.get? place).map (·.stamp) ≠ some found.stamp then
        writeFile ("/" ++ String.intercalate "/" place) content
    | _ => return

/-- The event of a notice. -/
def eventOf (notice : Notice) : Log.Event :=
  match notice.severity with
  | .warning => .warning notice.component notice.text
  | .error => .error notice.component notice.text none

/-- The directory of the logs: the wished one, else one named for the day. -/
def logDirectory (request : Cli.LogRequest) (clock : Double) : String :=
  match request.directory.filter (· ≠ "") with
  | some directory => directory
  | none =>
    let day := Time.Date.ofDays ((clock.floor?.getD 0) / Time.daySeconds)
    "logs/" ++ day.iso

/-- Appends the notices of a command line to the logs. -/
def writeLogs (request : Cli.LogRequest) (w : World) : IO Unit := do
  let directory := logDirectory request w.clock
  let events := w.notices.reverse.map eventOf
  IO.FS.createDirAll directory
  (Log.files w.nesting [{ level := "DEBUG" }] events w.clock).forM fun (name, text) => do
    let file ← IO.FS.Handle.mk (directory ++ "/" ++ name) .append
    file.putStr text

/-- Carries out a command line; the result is its exit code. -/
def run (words : List String) : IO UInt32 := do
  let w ← readWorld
  let (result, session) := Cli.Session.run { world := w } words
  let session := session.exit.2
  writeChanges w.disk session.world.disk
  session.logRequests.getLast?.forM fun request => writeLogs request session.world
  session.world.notices.reverse.forM fun notice => IO.eprintln notice.text
  match result with
  | .error failure =>
    IO.eprintln failure.message
    return 1
  | .ok answer =>
    IO.print answer.output
    answer.shown.forM fun shown => shown.lines.forM IO.println
    answer.complaints.forM fun shown => shown.lines.forM IO.eprintln
    return answer.exitCode.toUInt32

end ShellAssist.Main

/-- Carries out the command line of the process. -/
def main (words : List String) : IO UInt32 :=
  ShellAssist.Main.run words
