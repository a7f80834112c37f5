import ShellAssist.Candidate
import ShellAssist.History.Entry
import ShellAssist.Host.World
import ShellAssist.Json.Printer
import ShellAssist.Screen.Markup

namespace ShellAssist.Screen

/-!
# What is shown

Candidates, history entries and statistics as tables of markup, and messages. The layout of tables
is left to the screen.
-/

open Number (Decimal.ofInt Decimal.ofNat Decimal.fixed)

/-- A table of markup. -/
structure Table where
  title : Option String := none
  columns : List String
  rows : List (List String)
  deriving DecidableEq, Repr

/-- A thing that is shown. -/
inductive Shown where
  | line (markup : String)
  | table (table : Table)
  deriving DecidableEq, Repr

/-- The digits of a whole number. -/
def digits (n : Int) : String :=
  String.ofList (Decimal.ofInt n)

/-- A warning. -/
def warning (message : String) : Shown :=
  .line ("[bold yellow]" ++ message ++ "[/bold yellow]")

/-- An error message. -/
def error (message : String) : Shown :=
  .line ("[bold red]Error:[/bold red] " ++ message)

/-- What a candidate is ranked by: its score, else its priority. -/
def rankText (c : Candidate) : String :=
  match c.score with
  | some s => Decimal.fixed 3 s
  | none => digits c.priority

/-- Candidates, best first, with their places. -/
def candidates (all : List Candidate) (title : Option String) : Shown :=
  if all.isEmpty then .line "[dim]No completions[/dim]"
  else .table {
    title := (title.filter (· ≠ "")).map escape
    columns := ["#", "Completion", "Category", "Rank", "Description"]
    rows := (all.zip (List.range all.length)).map fun (c, i) =>
      [digits (i + 1), escape c.display, c.category.name, rankText c, escape c.description] }

/-- An exit code, in red unless it is zero. -/
def exitText (code : Option Int) : String :=
  match code with
  | none => ""
  | some n => if n = 0 then digits n else "[red]" ++ digits n ++ "[/red]"

/-- A history entry as a row. -/
def historyRow (offset : Int → Int) (now : Except Failure Int) (e : History.Entry) :
    Except Failure (List String) := do
  let age ← match e.timestamp with
    | none => .ok ""
    | some t => do Time.age offset t (← now)
  return [age, escape e.command, exitText e.exitCode, escape e.source]

/-- History entries with their ages, by the offset of a zone. -/
def history (entries : List History.Entry) (offset : Int → Int) (now : Except Failure Int) :
    Except Failure Shown :=
  if entries.isEmpty then .ok (.line "[dim]No matching history[/dim]")
  else do
    let rows ← entries.mapM (historyRow offset now)
    return .table { columns := ["When", "Command", "Exit", "Source"], rows }

/-! ### Statistics -/

/-- A number without decimal places, a half to even. -/
def roundedText : Json → String
  | .float d => Decimal.fixed 0 d
  | .int n => Decimal.fixed 0 (.ofInt n)
  | other => other.display

/-- A frequent command with its count. -/
def countText (item : Json) : String :=
  escape ((item.get? "command").getD .null).display ++ " (" ++
    ((item.get? "count").getD .null).display ++ ")"

/-- The items of an array. -/
def itemsOf : Option Json → List Json
  | some (.arr items) => items
  | _ => []

/-- The most frequent commands that are shown. -/
def shownCommands : Nat := 5

/-- The statistics of one history. -/
def statsTable (name : String) (stats : Members) : Table :=
  let value (key : String) := (Members.get? stats key).getD (.int 0)
  let known (key : String) := (Members.get? stats key).filter fun
    | .null => false
    | _ => true
  let top := ((itemsOf (Members.get? stats "top_commands")).take shownCommands).map countText
  { title := some ("History: " ++ escape name)
    columns := ["Attribute", "Value"]
    rows :=
      [["Total", (value "total").display], ["Unique", (value "unique").display]] ++
      ((known "failed_commands").map fun n => ["Failed", n.display]).toList ++
      ((known "average_duration").map fun n => ["Avg duration", roundedText n ++ "ms"]).toList ++
      [["Top commands", if top.isEmpty then "-" else String.intercalate ", " top]] }

/-- The statistics of several histories, a table for each. -/
def statistics (all : List (String × Members)) : List Shown :=
  all.map fun (name, stats) => .table (statsTable name stats)

end ShellAssist.Screen
