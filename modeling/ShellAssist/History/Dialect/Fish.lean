import ShellAssist.History.Entry
import ShellAssist.Text.Lines

namespace ShellAssist.History.Fish

/-!
# Fish history

A record begins with a line `- cmd: <command>` and goes on with indented lines: `when:` with the
seconds, `paths:` with one path a line behind it, and more lines of the command before either. Line
feeds and backslashes are escaped.

The entries are sorted by time, those without one first. A record's first path is the entry's
directory, and all of them are kept in its metadata.
-/

/-- A text with the escapes of line feeds and backslashes undone. -/
def unescapeChars : List Char → List Char
  | '\\' :: 'n' :: rest => '\n' :: unescapeChars rest
  | '\\' :: '\\' :: rest => '\\' :: unescapeChars rest
  | c :: rest => c :: unescapeChars rest
  | [] => []

/-- A text with the escapes of line feeds and backslashes undone. -/
def unescape (text : String) : String :=
  String.ofList (unescapeChars text.toList)

/-- What a line of the file says. -/
inductive Line where
  | command (text : List Char)
  | seconds (text : List Char)
  | paths
  | path (text : List Char)
  | more (text : List Char)
  | other
  deriving DecidableEq, Repr

/-- What stands behind `mark`, if the line begins with it. -/
def behind? (mark : String) (line : List Char) : Option (List Char) :=
  if mark.toList.isPrefixOf line then some (line.drop mark.toList.length) else none

/-- What a line says. -/
def Line.ofChars (line : List Char) : Line :=
  match behind? "- cmd: " line with
  | some text => .command text
  | none =>
    match behind? "  when: " line with
    | some text => .seconds text
    | none =>
      if Chars.dropEndWhile Chars.isBlank line = "  paths:".toList then .paths
      else match behind? "    - " line with
        | some text => .path text
        | none =>
          match behind? "  " line with
          | some text => .more text
          | none => .other

/-- A record being read. -/
structure Record where
  command : List Char
  seconds : Option Int := none
  paths : List (List Char) := []
  /-- Whether further lines belong to the command. -/
  inCommand : Bool := true

/-- A record with what one more line says of it; a time that is no number changes nothing. -/
def Record.add (r : Record) : Line → Record
  | .seconds text =>
    match Number.Numeral.int (Chars.strip text) with
    | .ok n => { r with seconds := some n, inCommand := false }
    | .error _ => { r with inCommand := false }
  | .paths => { r with inCommand := false }
  | .path text => { r with paths := r.paths ++ [unescapeChars text] }
  | .more text =>
    if r.inCommand then { r with command := r.command ++ '\n' :: unescapeChars text } else r
  | _ => r

/-- The records of the lines to come; lines before the first record say nothing. -/
def recordsFrom (current : Option Record) : List (List Char) → List Record
  | [] => current.toList
  | line :: rest =>
    match Line.ofChars line with
    | .command text =>
      current.toList ++ recordsFrom (some { command := unescapeChars text }) rest
    | said => recordsFrom (current.map (·.add said)) rest

/-- The entry of a record, unless its command is blank. -/
def Record.entry? (r : Record) : Option Entry :=
  if r.command.all Chars.isBlank then none
  else
    let paths := r.paths.map String.ofList
    some { command := String.ofList r.command, timestamp := r.seconds.map (· * 1000),
           cwd := paths.head?, source := "fish",
           metadata := [("paths", .list (paths.map .str))] }

/-- Whether the first entry may stand before the second, oldest first and those without a time
before all others. -/
def noNewer (a b : Entry) : Bool :=
  match a.timestamp, b.timestamp with
  | none, _ => true
  | some _, none => false
  | some s, some t => s ≤ t

/-- The entries of a history file, oldest first. -/
def parse (content : String) : List Entry :=
  ((recordsFrom none (Chars.lines content.toList)).filterMap Record.entry?).mergeSort noNewer

end ShellAssist.History.Fish
