import ShellAssist.Host.Disk
import ShellAssist.Host.Environment
import ShellAssist.Time.Age

namespace ShellAssist

/-!
# The world

Everything outside the program that an operation can see or change, as one value: the disk, the
process's directory and environment, the clock, the answers of external commands, the process list,
and the faults that will hit the next saves. The calls made and the notices logged are recorded in
it.

An `Action` is a step on the world that may fail; what it did before failing stays done.
-/

open Number (Double)

/-- One run of an external command. -/
structure Call where
  args : List String
  cwd : Option String
  /-- Seconds the command may take; absent if it may take any time. -/
  timeout : Option Double
  /-- Text fed to its standard input. -/
  input : Option String

/-- What a run of an external command comes to. -/
inductive Outcome where
  /-- It ended with a code; its output is given as it is read. -/
  | finished (output : String) (code : Int)
  | timedOut
  /-- There is no such program, or it may not be run. -/
  | notRunnable
  /-- The system could not run it. -/
  | broken
  deriving DecidableEq, Repr

namespace Outcome

/-- The outcome of a program that prints a text: all its line ends are read as line feeds. -/
def ofPrinted (printed : String) (code : Int) : Outcome :=
  .finished (String.ofList (Chars.unifyNewlines printed.toList)) code

/-- Whether the program was started, and so is waited for. -/
def isStarted : Outcome → Bool
  | .finished .. | .timedOut => true
  | .notRunnable | .broken => false

/-- The output of a program that ended with one of the accepted codes. -/
def accepted? (codes : List Int) : Outcome → Option String
  | .finished output code => if codes.contains code then some output else none
  | _ => none

end Outcome

/-- How serious a logged notice is. -/
inductive Severity where
  | warning
  | error
  deriving DecidableEq, Repr

/-- A logged notice: the component it comes from, in upper case, and its first line. -/
structure Notice where
  severity : Severity
  component : String
  text : String
  deriving DecidableEq, Repr

/-- The list of running processes. -/
inductive ProcessList where
  | running (processes : List (Int × Option String))
  | unavailable
  deriving DecidableEq, Repr

/-- Where a save is hit by a fault. -/
inductive SaveFault where
  /-- The directories above the file cannot be made. -/
  | directories
  /-- The new file cannot be opened. -/
  | opening
  /-- Only the first `kept` bytes of the new file are written. -/
  | writing (kept : Nat)
  /-- The new file cannot be moved into place. -/
  | renaming
  deriving DecidableEq, Repr

/-- The outside of the program. -/
structure World where
  disk : Disk := {}
  cwd : String := "/work"
  /-- Whether the working directory has been removed, so that its path cannot be asked for. -/
  cwdRemoved : Bool := false
  environment : Environment := []
  users : Users := .superuser
  /-- Seconds since the start of 1970. -/
  clock : Double := 1700000000
  /-- What the clock is set to when time passes; beyond the list it stands still. -/
  readings : List Double := []
  /-- Seconds by which local time is ahead of universal time in a zone, at an instant in seconds; a
  process whose environment names no zone is in that of the system. -/
  zones : Option String → Int → Int := fun _ _ => 0
  /-- The answers of external commands. Of several for the same arguments each is given once, in
  order, and the last one stays. -/
  commands : List (List String × Outcome) := []
  processes : ProcessList := .running []
  /-- The faults of the saves to come, one for each; beyond the list there are none. -/
  saveFaults : List (Option SaveFault) := []
  /-- The commands run so far, latest first. -/
  calls : List Call := []
  /-- The notices logged so far, latest first. -/
  notices : List Notice := []
  /-- How deep the arrays and objects of a JSON text may be nested that is read or written. The system
  limits how deep calls may be nested, and what it leaves depends on those that are under way. -/
  nesting : Nat := 985

/-- A step on the world that may fail. -/
abbrev Action (α : Type) := ExceptT Failure (StateM World) α

/-- A failed access as a failure of the operation. -/
def AccessError.toFailure : AccessError → Failure
  | .nul => .embeddedNul
  | .refused => .system "refused"

namespace World

/-- The most milliseconds for which the system waits for a program. -/
def longestWait : Double := 2147483647

/-- The most milliseconds that the system's clock counts, in nanoseconds. -/
def clockRange : Double := 9223372036854

/-- Why the system does not wait for a program as long as it may take. The time that has passed since
its start is not counted. -/
def waitFailure? (timeout : Option Double) : Option Failure := do
  let millis := (← timeout) * 1000
  if ¬ longestWait < millis then none
  else if millis.isInfinite then some .wholeOfInfinity
  else if clockRange < millis then some .waitOffClock
  else some .waitTooLong

/-- The outcome that waits for these arguments, and the answers that are left. -/
def answer (args : List String) :
    List (List String × Outcome) → Outcome × List (List String × Outcome)
  | [] => (.notRunnable, [])
  | (expected, outcome) :: rest =>
    if expected = args then
      if rest.any fun later => later.1 = args then (outcome, rest)
      else (outcome, (expected, outcome) :: rest)
    else
      let (found, left) := answer args rest
      (found, (expected, outcome) :: left)

/-- Runs an external command and records the call. A program that was started may not be waited for
too long. -/
def run (call : Call) : Action Outcome := fun w =>
  let (outcome, left) := answer call.args w.commands
  let result := match waitFailure? call.timeout with
    | some failure => if outcome.isStarted then .error failure else .ok outcome
    | none => .ok outcome
  (result, { w with commands := left, calls := call :: w.calls })

/-- Runs a command; its output counts if it ends with one of the accepted codes. Every failure of the
program is no output. -/
def output (args : List String) (timeout : Option Double) (cwd : Option String := none)
    (input : Option String := none) (acceptedCodes : List Int := [0]) : Action (Option String) := do
  let outcome ← run { args, cwd, timeout, input }
  return outcome.accepted? acceptedCodes

/-- Runs a command that need not name a program; without one it cannot fail quietly. -/
def outputOf (args : List String) (timeout : Option Double) (cwd input : Option String)
    (acceptedCodes : List Int) : Action (Option String) := do
  match ← output args timeout cwd input acceptedCodes with
  | none => if args.isEmpty then throw .noProgram else return none
  | found => return found

/-- The world with a notice logged; only the first line of its text is kept. -/
def noted (w : World) (severity : Severity) (component text : String) : World :=
  let line := String.ofList (text.toList.takeWhile (· ≠ '\n'))
  { w with notices := ⟨severity, component, line⟩ :: w.notices }

/-- Logs a notice. -/
def note (severity : Severity) (component text : String) : StateM World Unit :=
  modify fun w => w.noted severity component text

/-- Logs that a configured name is unknown and what is taken instead. -/
def noteMismatch (kind : String) (name : Option String) (fallback : String) : StateM World Unit :=
  note .warning "CONFIG"
    ("Unknown " ++ kind ++ " " ++ Text.quotedOption name ++ ", falling back to " ++ fallback)

/-- The fault of the next save, and the world in which it is used up. -/
def takeSaveFault (w : World) : Option SaveFault × World :=
  match w.saveFaults with
  | [] => (none, w)
  | fault :: rest => (fault, { w with saveFaults := rest })

/-- The milliseconds of the clock. -/
def millis (w : World) : Except Failure Int :=
  Time.millisOfClock w.clock

/-- The world some time later. -/
def later (w : World) : World :=
  match w.readings with
  | [] => w
  | clock :: readings => { w with clock, readings }

/-- The offset of the zone that the process is in. -/
def offset (w : World) : Int → Int :=
  w.zones (Environment.get? w.environment "TZ")

/-- The path of the working directory. -/
def workingDirectory (w : World) : Except Failure String :=
  if w.cwdRemoved then .error (.system "the working directory is gone") else .ok w.cwd

end World

/-- The result of an action, or a substitute if it fails. -/
def Action.orElse {α : Type} (action : Action α) (substitute : α) : StateM World α := fun w =>
  match action w with
  | (.ok a, w') => (a, w')
  | (.error _, w') => (substitute, w')

end ShellAssist
