import ShellAssist.Json.Value
import ShellAssist.Number.Numeral
import ShellAssist.Text.Blank

namespace ShellAssist.History

/-!
# History entries

One command of a history log with what is known of its run. A record is stored as a JSON object; older
ones use shorter names.

* `Entry.toRecord` — the record of an entry;
* `Entry.ofRecord` — the entry of a stored record;
* `dedupe` — the first entry of each command.
-/

open Number (Double)

/-- One command of a history log. -/
structure Entry where
  /-- May hold line breaks. -/
  command : String
  /-- Milliseconds since the start of 1970. -/
  timestamp : Option Int := none
  exitCode : Option Int := none
  cwd : Option String := none
  /-- Milliseconds. -/
  duration : Option Int := none
  /-- The log that the entry comes from. -/
  source : String := "unknown"
  /-- What programs know besides, whatever values that may be. -/
  metadata : List (Key × Value) := []
  deriving Inhabited, Repr

namespace Entry

/-- An entry that comes from outside: its command must not be blank. -/
def checked (e : Entry) : Except Failure Entry :=
  if Text.isBlank e.command then .error .blankCommand else .ok e

/-- Whether the command failed, as far as is known. -/
def failed (e : Entry) : Bool :=
  match e.exitCode with
  | some code => code ≠ 0
  | none => false

/-- The members of an entry's record. -/
def recordMembers (e : Entry) : List (Key × Value) :=
  [("command", .str e.command), ("timestamp", .ofInt? e.timestamp),
   ("exit_code", .ofInt? e.exitCode), ("cwd", .ofString? e.cwd),
   ("duration", .ofInt? e.duration), ("metadata", .dict e.metadata)]

/-- The record that an entry is stored as. -/
def toRecord (e : Entry) : Value :=
  .dict e.recordMembers

/-! ### Reading records -/

/-- The first of the names whose value is not null. -/
def firstOf (record : Members) (names : List String) : Option Json :=
  names.findSome? fun name =>
    match Members.get? record name with
    | some .null => none
    | found => found

/-- A value as a whole number: numbers are cut to their whole part, texts are read, all else counts
as nothing. Infinity fails. -/
def wholeOf : Option Json → Except Failure (Option Int)
  | some (.int n) => .ok (some n)
  | some (.float d) =>
    if d.isInfinite then .error .wholeOfInfinity else .ok d.truncate?
  | some (.str s) => .ok (Number.Numeral.int s.toList).toOption
  | _ => .ok none

/-- A value as a text. -/
def textOf : Option Json → Option String
  | some (.str s) => some s
  | _ => none

/-- The entry that a record stores. -/
def ofRecord (record : Members) (source : String) : Except Failure Entry := do
  let some command := textOf (firstOf record ["command", "cmd"]) | .error .recordWithoutCommand
  let timestamp ← wholeOf (firstOf record ["timestamp", "ts"])
  let exitCode ← wholeOf (firstOf record ["exit_code", "exitCode", "exit"])
  let duration ← wholeOf (firstOf record ["duration", "dur"])
  let metadata := match Members.get? record "metadata" with
    | some (.obj members) => Value.ofMembers members
    | _ => []
  let cwd := textOf (firstOf record ["cwd", "dir"])
  checked { command, timestamp, exitCode, cwd, duration, source, metadata }

/-- The entry of a JSON value, which has to be a record. -/
def ofValue (value : Json) (source : String) : Except Failure Entry :=
  match value with
  | .obj record => ofRecord record source
  | other => .error (.notRecord other.typeName)

end Entry

/-- The first entry of each command, in order; commands in `seen` are left out. -/
def dedupeFrom (seen : List String) : List Entry → List Entry
  | [] => []
  | e :: rest =>
    if seen.contains e.command then dedupeFrom seen rest
    else e :: dedupeFrom (e.command :: seen) rest

/-- The first entry of each command, in order. -/
def dedupe (entries : List Entry) : List Entry :=
  dedupeFrom [] entries

end ShellAssist.History
