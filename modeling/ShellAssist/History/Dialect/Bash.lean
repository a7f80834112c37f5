import ShellAssist.History.Entry
import ShellAssist.Text.Lines
import ShellAssist.Text.Letter

namespace ShellAssist.History.Bash

/-!
# Bash history

One command a line. A backslash at the end of a line continues the command on the next one, and
lines with a hash mark and digits only are marks between them.
-/

/-- Whether a line is a time mark: a hash mark and digits. -/
def isMark : List Char → Bool
  | '#' :: digits => !digits.isEmpty && digits.all Chars.isDecimalDigit
  | _ => false

/-- A line's text before a backslash at its end, if it ends in one. -/
def continued? (line : List Char) : Option (List Char) :=
  if line.getLast? = some '\\' then some line.dropLast else none

/-- Lines put together again. -/
def joinLines (lines : List (List Char)) : List Char :=
  List.intercalate ['\n'] lines

/-- A command made of lines, unless it is blank. -/
def finish (lines : List (List Char)) : List (List Char) :=
  let command := joinLines lines
  if command.all Chars.isBlank then [] else [command]

/-- The commands of the lines to come; `pending` holds the continued lines read so far. -/
def commandsFrom (pending : List (List Char)) : List (List Char) → List (List Char)
  | [] => finish pending
  | line :: rest =>
    if pending.isEmpty && line.all Chars.isBlank then commandsFrom pending rest
    else if isMark line then commandsFrom pending rest
    else match continued? line with
      | some text => commandsFrom (pending ++ [text]) rest
      | none => finish (pending ++ [line]) ++ commandsFrom [] rest

/-- The commands of a history file. -/
def commands (content : List Char) : List (List Char) :=
  commandsFrom [] (Chars.lines content)

/-- The entries of a history file, oldest first. -/
def parse (content : String) : List Entry :=
  (commands content.toList).map fun c => { command := String.ofList c, source := "bash" }

end ShellAssist.History.Bash
