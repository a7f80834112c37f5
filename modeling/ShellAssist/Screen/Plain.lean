import ShellAssist.Screen.Show

namespace ShellAssist.Screen

/-!
# Plain text

What is shown, as lines of text without styles: tags are left out, and the columns of a table are
aligned.
-/

/-- The text that markup shows; `run` counts the backslashes right before it. Two of them before a
tag show one, and an odd one shows the tag itself. -/
def plainFrom (inTag : Bool) (run : Nat) : List Char → List Char
  | [] => List.replicate run '\\'
  | c :: rest =>
    if inTag then plainFrom (c ≠ ']') 0 rest
    else if c = '\\' then plainFrom false (run + 1) rest
    else if c = '[' && isTag rest then
      List.replicate (run / 2) '\\' ++
        if run % 2 = 1 then c :: plainFrom false 0 rest else plainFrom true 0 rest
    else List.replicate run '\\' ++ c :: plainFrom false 0 rest

/-- The text that markup shows. -/
def plain (markup : String) : String :=
  String.ofList (plainFrom false 0 markup.toList)

/-- The rows with spaces behind their cells, so that all cells of a column have one width. -/
def aligned (rows : List (List String)) : List (List String) :=
  let count := (rows.map List.length).foldl max 0
  let width (column : Nat) := (rows.map fun row => (row.getD column "").length).foldl max 0
  rows.map fun row => (List.range count).map fun column =>
    let cell := row.getD column ""
    cell ++ String.ofList (List.replicate (width column - cell.length) ' ')

/-- The cells of a row on one line, without the spaces at its end. -/
def rowLine (cells : List String) : String :=
  String.ofList (Chars.dropEndWhile (· = ' ') (String.intercalate "  " cells).toList)

/-- The lines of a table. -/
def Table.lines (t : Table) : List String :=
  let rows := (t.columns :: t.rows).map fun row => row.map plain
  (t.title.map plain).toList ++ (aligned rows).map rowLine

/-- The lines of a thing that is shown. -/
def Shown.lines : Shown → List String
  | .line markup => [plain markup]
  | .table t => t.lines

end ShellAssist.Screen
