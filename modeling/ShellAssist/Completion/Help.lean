import ShellAssist.Candidate
import ShellAssist.Text.Letter
import ShellAssist.Text.Lines

namespace ShellAssist.Completion

/-!
# Options in help texts

The options of a command are read off the lines of its help text that begin with a hyphen. An option
is one or two hyphens, an ASCII letter or digit, and word characters and hyphens as far as they go;
it does not begin in the middle of such characters.
-/

namespace Help

/-- Whether a character can stand inside an option. -/
def isOptionChar (c : Char) : Bool :=
  Chars.isWordChar c || c = '-'

/-- The option at the front, if one begins there. -/
def option? (text : List Char) : Option (List Char) :=
  let body := match text with
    | '-' :: '-' :: rest => some rest
    | '-' :: rest => some rest
    | _ => none
  match body with
  | some (c :: _) => if c.isAlphanum then some (text.takeWhile isOptionChar) else none
  | _ => none

/-- The options in a text; `inside` says whether the character before could belong to one. -/
def optionsFrom (inside : Bool) : List Char → List (List Char)
  | [] => []
  | c :: rest =>
    let later := optionsFrom (isOptionChar c) rest
    if inside then later
    else match option? (c :: rest) with
      | some found => found :: later
      | none => later

/-- The most lines of a help text that are read. -/
def maxLines : Nat := 20

/-- The most characters of a line that describe its options. -/
def maxDescription : Nat := 50

/-- The lines that describe options. -/
def optionLines (text : List Char) : List (List Char) :=
  let begins (line : List Char) := (line.dropWhile Chars.isBlank).head? = some '-'
  ((Chars.lines text).filter begins).take maxLines

/-- A line with its white space reduced to single blanks, cut to the length of a description. -/
def description (line : List Char) : List Char :=
  (List.intercalate [' '] (Chars.fields line)).take maxDescription

/-- The options of a help text that begin with `stem`, each once. -/
def candidates (text stem : String) : List Candidate :=
  let found := (optionLines text.toList).flatMap fun line =>
    ((optionsFrom false line).filter fun o => stem.toList.isPrefixOf o).map fun o =>
      ({ text := String.ofList o, description := String.ofList (description line)
         category := .option, priority := 6 } : Candidate)
  Candidate.distinct found

/-- Options that most commands have, for a command without a help text. -/
def commonOptions : List (String × String) :=
  [("--help", "Show help"), ("-h", "Show help"), ("--version", "Show version"),
   ("-v", "Verbose output"), ("--verbose", "Verbose output"), ("-q", "Quiet mode"),
   ("--quiet", "Quiet mode"), ("-f", "Force"), ("--force", "Force operation")]

/-- The common options that begin with `stem`. -/
def commonCandidates (stem : String) : List Candidate :=
  (commonOptions.filter fun o => Text.startsWith o.1 stem).map fun (text, description) =>
    { text, description, category := .option, priority := 5 }

end Help

end ShellAssist.Completion
