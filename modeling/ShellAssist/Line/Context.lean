import ShellAssist.Line.Token
import ShellAssist.Host.Environment
import ShellAssist.Text.Basic

namespace ShellAssist.Line

/-!
# The word under the cursor

A request for completion is a line with a cursor. `classify` finds the word that ends at the cursor,
the words before it, and the slot: what kind of word is expected there.
-/

/-- What kind of word stands at a place of a command line. -/
inductive Slot where
  | command
  | argument
  | option
  | path
  | variable
  deriving DecidableEq, Repr

/-- The name of a slot. -/
def Slot.name : Slot → String
  | .command => "command"
  | .argument => "argument"
  | .option => "option"
  | .path => "path"
  | .variable => "variable"

/-- The slot of a word behind other words. The first rule that applies decides. -/
def Slot.ofWord (word : String) (previous : List String) : Slot :=
  if Text.startsWith word "$" then .variable
  else if Text.startsWith word "-" then .option
  else if Text.contains "/" word || Text.startsWith word "~" then .path
  else if previous.isEmpty then .command
  else .argument

/-- A completion request. -/
structure Context where
  line : String
  /-- The cursor's offset in the line. -/
  cursor : Nat
  /-- The word that ends at the cursor, as written. -/
  word : String
  /-- The words before it, as written. -/
  previous : List String
  cwd : String
  /-- The environment of the request, if it brings one. -/
  environment : Option Environment

namespace Context

/-- The command that the word belongs to, as written. -/
def commandName (c : Context) : Option String :=
  c.previous.head?

/-- What kind of word is expected. -/
def slot (c : Context) : Slot :=
  Slot.ofWord c.word c.previous

/-- How many words stand before the word. -/
def position (c : Context) : Nat :=
  c.previous.length

/-- The word right before the word. -/
def lastWord (c : Context) : Option String :=
  c.previous.getLast?

/-- The word's text without its quoting. -/
def typed (c : Context) : String :=
  unquote c.word

/-- The quote that the word begins with, empty if it does not. -/
def openingQuote (c : Context) : String :=
  match c.word.toList with
  | first :: _ => if isQuote first then String.ofList [first] else ""
  | [] => ""

/-- The first word behind the command that is no option, without its quoting. -/
def subcommand (c : Context) : Option String :=
  ((c.previous.drop 1).find? fun w => !Text.startsWith w "-").map unquote

end Context

/-- An offset brought into the line; absent means the line's end. -/
def clampCursor (line : List Char) (cursor : Option Int) : Nat :=
  match cursor with
  | none => line.length
  | some n => min n.toNat line.length

/-- The request for a line and a cursor. -/
def classify (line : String) (cursor : Option Int) (cwd : String) (env : Option Environment) :
    Context :=
  let offset := clampCursor line.toList cursor
  let words := tokenize (Text.take offset line)
  { line, cursor := offset
    word := words.getLast?.getD ""
    previous := words.dropLast
    cwd, environment := env }

end ShellAssist.Line
