import ShellAssist.History.Entry
import ShellAssist.Json.Reader
import ShellAssist.Text.Lines

namespace ShellAssist.History.Journal

/-!
# The program's own history file

One JSON record a line. A line that is no record is a command as it stands.

* `render` — the file's text for a list of entries;
* `parse` — the entries of a file's text.
-/

/-- The name of the program's own history. -/
def sourceName : String := "owned"

/-- The file's text for a list of entries. It fails if a record cannot be written. -/
def render (nesting : Nat) (entries : List Entry) : Except Failure String := do
  let lines ← entries.mapM fun e => e.toRecord.encode nesting
  return String.join (lines.map (· ++ "\n"))

/-- The entry of a line's record, nothing if the line writes no usable record. A record with an
infinite number fails, and so does one that is nested too deep. -/
def recordOf (nesting : Nat) (stripped : List Char) : Except Failure (Option Entry) :=
  match stripped with
  | '\x7b' :: _ =>
    match Json.read nesting stripped >>= fun value => Entry.ofValue value sourceName with
    | .ok e => .ok (some e)
    | .error failure => if failure.kind = .value then .ok none else .error failure
  | _ => .ok none

/-- The entries of a line: none if it is blank, else one. -/
def entriesOfLine (nesting : Nat) (line : List Char) : Except Failure (List Entry) :=
  let stripped := Chars.strip line
  if stripped.isEmpty then .ok []
  else do
    let found ← recordOf nesting stripped
    return [found.getD { command := String.ofList line, source := sourceName }]

/-- The entries of the file's text, oldest first. -/
def parse (nesting : Nat) (content : String) : Except Failure (List Entry) :=
  List.flatten <$> (Chars.lines content.toList).mapM (entriesOfLine nesting)

end ShellAssist.History.Journal
