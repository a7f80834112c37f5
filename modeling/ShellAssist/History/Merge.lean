import ShellAssist.History.Entry
import ShellAssist.Text.Basic

namespace ShellAssist.History

/-!
# Merging histories

Entries of several logs in one list, newest first. Entries without a timestamp come last; where
timestamps do not decide, the order of the lists and the order within them stay.
-/

/-- Whether the first entry may stand before the second, newest first. -/
def noOlder (a b : Entry) : Bool :=
  match a.timestamp, b.timestamp with
  | _, none => true
  | none, some _ => false
  | some s, some t => t ≤ s

/-- A limit on the length of a list: zero or none is no limit, and a negative one cuts from the
end. -/
def cut (limit : Option Int) (entries : List Entry) : List Entry :=
  match limit with
  | none => entries
  | some n => if n = 0 then entries else Slice.before entries n

/-- The entries of several logs, newest first. -/
def merge (logs : List (List Entry)) (deduplicate : Bool) (limit : Option Int) : List Entry :=
  let merged := logs.flatten.mergeSort noOlder
  cut limit (if deduplicate then dedupe merged else merged)

end ShellAssist.History
