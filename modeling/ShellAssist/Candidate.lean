import ShellAssist.Json.Basic
import ShellAssist.Failure
import ShellAssist.Text.Basic

namespace ShellAssist

/-!
# Candidates

One proposed completion: the text that replaces the word under the cursor, how it is shown, and what
it is ranked by.
-/

/-- A stretch of a text from one signed position up to, not including, another. -/
structure Span where
  start : Int
  stop : Int
  deriving DecidableEq, Repr

/-- What kind of thing a candidate names. -/
inductive Category where
  | command
  | file
  | directory
  | option
  | argument
  | variable
  | hostname
  | history
  | other
  deriving DecidableEq, Repr

/-- The name of a category. -/
def Category.name : Category → String
  | .command => "command"
  | .file => "file"
  | .directory => "directory"
  | .option => "option"
  | .argument => "argument"
  | .variable => "variable"
  | .hostname => "hostname"
  | .history => "history"
  | .other => "other"

/-- All categories but the one for everything else. -/
def Category.known : List Category :=
  [.command, .file, .directory, .option, .argument, .variable, .hostname, .history]

/-- The category of a name; an unknown name has the one for everything else. -/
def Category.ofName (name : String) : Category :=
  (Category.known.find? fun c => c.name = name).getD .other

/-- A proposed completion. -/
structure Candidate where
  /-- Replaces the word under the cursor. -/
  text : String
  /-- The label shown to the user. -/
  display : String := text
  description : String := ""
  category : Category := .other
  /-- Higher comes first where candidates are not scored. -/
  priority : Int := 0
  metadata : Members := []
  /-- Set once the candidate is scored. -/
  score : Option Number.Double := none
  highlights : List Span := []

namespace Candidate

/-- A candidate that comes from outside: it needs a text, and an empty label becomes the text. -/
def checked (c : Candidate) : Except Failure Candidate :=
  if c.text = "" then .error .emptyCandidate
  else .ok (if c.display = "" then { c with display := c.text } else c)

/-- The candidates of one category whose texts are the names that begin with `stem`. -/
def ofNames (names : List String) (stem description : String) (category : Category)
    (priority : Int) : List Candidate :=
  (names.filter fun name => Text.startsWith name stem).map fun name =>
    { text := name, description, category, priority }

/-- The first candidate of each text, in order; texts in `seen` are left out. -/
def distinctFrom (seen : List String) : List Candidate → List Candidate
  | [] => []
  | c :: rest =>
    if seen.contains c.text then distinctFrom seen rest
    else c :: distinctFrom (c.text :: seen) rest

/-- The first candidate of each text, in order. -/
def distinct (candidates : List Candidate) : List Candidate :=
  distinctFrom [] candidates

/-- The candidate as a JSON object. -/
def toJson (c : Candidate) : Json :=
  .obj ([("text", .str c.text), ("display", .str c.display), ("description", .str c.description),
    ("category", .str c.category.name), ("priority", .int c.priority),
    ("metadata", .obj c.metadata)] ++
    match c.score with
    | none => []
    | some s => [("score", .float s),
        ("matches", .arr (c.highlights.map fun h => .arr [.int h.start, .int h.stop]))])

end Candidate

end ShellAssist
