import ShellAssist.History.Entry
import ShellAssist.Text.Basic

namespace ShellAssist.History

/-!
# History statistics

Counts of a list of entries: totals, the most frequent command words and directories, the average
duration and the failures.
-/

open Number (Double)

/-- How often each word occurs, in order of first occurrence. -/
abbrev Tally := List (String × Nat)

namespace Tally

/-- The tally with some more occurrences of a word. -/
def add (word : String) (n : Nat) : Tally → Tally
  | [] => [(word, n)]
  | (w, k) :: rest => if w = word then (w, k + n) :: rest else (w, k) :: add word n rest

/-- The tally of a list of words. -/
def ofList (words : List String) : Tally :=
  words.foldl (fun tally w => add w 1 tally) []

/-- The most frequent words; of equally frequent ones the one that occurs first. -/
def top (n : Nat) (tally : Tally) : Tally :=
  (tally.mergeSort fun a b => b.2 ≤ a.2).take n

/-- The words with their counts as JSON objects. -/
def toJson (label : String) (tally : Tally) : Json :=
  .arr (tally.map fun (w, n) => .obj [(label, .str w), ("count", .int n)])

end Tally

/-- Counts of a list of entries. -/
structure Stats where
  total : Int
  unique : Nat
  topCommands : Tally
  topDirectories : Tally
  averageDuration : Option Double
  /-- Absent unless failures were to be counted. -/
  failed : Option Nat
  deriving Repr

namespace Stats

/-- The word of a command: its text up to the first space. -/
def commandWord (e : Entry) : String :=
  String.ofList (e.command.toList.takeWhile (· ≠ ' '))

/-- The average of the durations that are known and not zero. -/
def average (durations : List Int) : Except Failure (Option Double) :=
  if durations.isEmpty then .ok none
  else match Double.quotient? (durations.foldr (· + ·) 0) durations.length with
    | some d => .ok (some d)
    | none => .error .quotientTooLarge

/-- Counts of a list of entries; `total` stands for their number if it is given. -/
def ofEntries (entries : List Entry) (total : Option Int) (countFailures : Bool) :
    Except Failure Stats := do
  let averageDuration ← average (entries.filterMap fun e => e.duration.filter (· ≠ 0))
  return {
    total := total.getD entries.length
    unique := (dedupe entries).length
    topCommands := (Tally.ofList (entries.map commandWord)).top 10
    topDirectories :=
      (Tally.ofList (entries.filterMap fun e => e.cwd.filter (· ≠ ""))).top 5
    averageDuration
    failed := if countFailures then some (entries.countP Entry.failed) else none }

/-- The counts as the members of a JSON object. Empty and absent parts are left out. -/
def toMembers (s : Stats) : Members :=
  [("total", .int s.total), ("unique", .int s.unique),
   ("top_commands", s.topCommands.toJson "command"),
   ("average_duration", s.averageDuration.elim .null .float)] ++
  (if s.topDirectories.isEmpty then []
   else [("top_directories", s.topDirectories.toJson "directory")]) ++
  (s.failed.map fun n => ("failed_commands", Json.int n)).toList

end Stats

end ShellAssist.History
