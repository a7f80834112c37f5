import ShellAssist.Failure
import ShellAssist.Number.Numeral
import ShellAssist.Text.Basic

namespace ShellAssist.Cli

/-!
# Arguments of a command

The words behind a command's name are options, their values, and positional arguments. Long options
take their value from the next word or behind an equals sign, short ones from the rest of their word
or from the next one; switches can share a word. A word of two hyphens ends the options.

* `Arguments.scan` — the options and positional arguments that words hold;
* `Arguments.checkValues` — whether the values are what their options take;
* `Arguments.read` — both, and the wish for help, which wins over a value that does not fit.
-/

/-- Why a command line is not carried out. -/
inductive Stop where
  /-- It asks for the command's help text. -/
  | help
  /-- It breaks the command's rules. -/
  | misuse
  /-- A value cannot even be looked at. -/
  | failure (cause : Failure)
  deriving DecidableEq, Repr

/-- What the value of an option is. -/
inductive ValueKind where
  | text
  | whole
  | directory
  | choice (names : List String)
  deriving DecidableEq, Repr

namespace ValueKind

/-- The name of a kind in a help text. -/
def name : ValueKind → String
  | .text => "TEXT"
  | .whole => "INTEGER"
  | .directory => "DIRECTORY"
  | .choice names => "[" ++ String.intercalate "|" names ++ "]"

/-- Whether a text is a value of a kind. Of a directory only its name is judged: the system looks
for no name with a NUL character. -/
def check : ValueKind → String → Except Stop Unit
  | .text, _ => .ok ()
  | .whole, value =>
    match Number.Numeral.int value.toList with
    | .ok _ => .ok ()
    | .error _ => .error .misuse
  | .directory, value =>
    if value.toList.contains '\x00' then .error (.failure .embeddedNul) else .ok ()
  | .choice names, value => if names.contains value then .ok () else .error .misuse

end ValueKind

/-- An option of a command. -/
structure Flag where
  /-- With its hyphens. -/
  name : String
  letter : Option Char := none
  /-- What its value is; a switch has none. -/
  value : Option ValueKind := none
  about : String
  deriving DecidableEq, Repr

/-- Whether an option has a value. -/
def Flag.takesValue (f : Flag) : Bool :=
  f.value.isSome

/-- The option that every command has. -/
def helpFlag : Flag := { name := "--help", about := "Show this message and exit." }

/-- What the words behind a command's name say. -/
structure Arguments where
  /-- The options by their names, with their values, in order; a switch has an empty value. -/
  options : List (String × String) := []
  positional : List String := []
  deriving DecidableEq, Repr

/-- Options found in a word, and the name of the one whose value is the next word. -/
abbrev Found := List (String × String) × Option String

/-- The options of a word of letters. -/
def readLetters (flags : List Flag) : List Char → Option Found
  | [] => some ([], none)
  | c :: rest => do
    let flag ← flags.find? fun f => f.letter = some c
    if flag.takesValue then
      if rest.isEmpty then some ([], some flag.name)
      else some ([(flag.name, String.ofList rest)], none)
    else do
      let (found, open?) ← readLetters flags rest
      some ((flag.name, "") :: found, open?)

/-- A word at its first equals sign. -/
def splitValue (word : String) : String × Option String :=
  let name := word.toList.takeWhile (· ≠ '=')
  match word.toList.dropWhile (· ≠ '=') with
  | [] => (word, none)
  | _ :: value => (String.ofList name, some (String.ofList value))

/-- The options of a word that begins with a hyphen. -/
def readWord (flags : List Flag) (word : String) : Option Found :=
  let (name, value) := splitValue word
  match flags.find? fun f => f.name = name with
  | some flag =>
    match flag.takesValue, value with
    | true, some v => some ([(flag.name, v)], none)
    | true, none => some ([], some flag.name)
    | false, some _ => none
    | false, none => some ([(flag.name, "")], none)
  | none =>
    if Text.startsWith word "--" then none else readLetters flags (word.toList.drop 1)

/-- Whether a word holds options. -/
def isOptionWord (word : String) : Bool :=
  Text.startsWith word "-" && word ≠ "-"

namespace Arguments

/-- The arguments with options before them. -/
def withOptions (found : List (String × String)) (a : Arguments) : Arguments :=
  { a with options := found ++ a.options }

/-- The arguments with a positional one before them. -/
def withPositional (word : String) (a : Arguments) : Arguments :=
  { a with positional := word :: a.positional }

/-- Reads words. In the words of a group of commands the first positional one, which names the
command, ends the options. -/
def scan (flags : List Flag) (isGroup : Bool) : List String → Except Stop Arguments
  | [] => .ok {}
  | word :: rest =>
    if word = "--" then .ok { positional := rest }
    else if isOptionWord word then
      match readWord flags word, rest with
      | none, _ => .error .misuse
      | some (found, none), rest => (scan flags isGroup rest).map (withOptions found)
      | some (_, some _), [] => .error .misuse
      | some (found, some name), value :: rest =>
        (scan flags isGroup rest).map (withOptions (found ++ [(name, value)]))
    else if isGroup then .ok { positional := word :: rest }
    else (scan flags isGroup rest).map (withPositional word)

/-- The value of an option, the last one if it is repeated. -/
def value? (a : Arguments) (name : String) : Option String :=
  (a.options.reverse.lookup name)

/-- Whether a switch is given. -/
def has (a : Arguments) (name : String) : Bool :=
  (a.value? name).isSome

/-- The value of an option that takes whole numbers. -/
def whole? (a : Arguments) (name : String) : Option Int :=
  (a.value? name).bind fun text => (Number.Numeral.int text.toList).toOption

/-- The options that are given, in the order of their first occurrences. -/
def given (a : Arguments) : List String :=
  Text.distinct (a.options.map (·.1))

/-- Whether the value of an option is what the option takes. -/
def checkValue (flags : List Flag) (a : Arguments) (name : String) : Except Stop Unit :=
  match (flags.find? fun f => f.name = name).bind (·.value), a.value? name with
  | some kind, some text => kind.check text
  | _, _ => .ok ()

/-- Whether the values of all options are what the options take. The option that occurs first is
looked at first; of its values only the last one counts. -/
def checkValues (flags : List Flag) (a : Arguments) : Except Stop Unit :=
  a.given.forM (checkValue flags a)

/-- Reads words, and stops if they ask for help or a value does not fit. -/
def read (flags : List Flag) (isGroup : Bool) (words : List String) : Except Stop Arguments := do
  let a ← scan (flags ++ [helpFlag]) isGroup words
  if a.has helpFlag.name then throw .help
  checkValues flags a
  return a

end Arguments

end ShellAssist.Cli
