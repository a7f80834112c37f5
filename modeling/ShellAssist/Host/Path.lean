import ShellAssist.Text.Basic

namespace ShellAssist

/-!
# Paths

A `Path` is a path in normal form: a root mark and the components, without empty ones and without
`.`; `..` stays. Paths that come from listings and joins of raw text keep their spelling and are
plain strings; `joinRaw` and `baseName` work on those.
-/

/-- A path in normal form. -/
structure Path where
  /-- Empty for a relative path, one slash for an absolute one, two where the text began with
  exactly two. -/
  root : String
  components : List String
  deriving DecidableEq, Repr

namespace Path

/-- The root mark at the front of a text. -/
def rootOf : List Char → String
  | '/' :: '/' :: '/' :: _ => "/"
  | '/' :: '/' :: _ => "//"
  | '/' :: _ => "/"
  | _ => ""

/-- The normal form of a path text. -/
def ofString (text : String) : Path where
  root := rootOf text.toList
  components := (Text.splitOn '/' text).filter fun c => c ≠ "" && c ≠ "."

/-- The text of a path; the empty relative path is `.`. -/
def toString (p : Path) : String :=
  if p.root = "" && p.components.isEmpty then "."
  else p.root ++ String.intercalate "/" p.components

/-- A path seen from another: an absolute path stays, a relative one is appended. -/
def join (base : Path) (text : String) : Path :=
  let p := ofString text
  if p.root = "" then { base with components := base.components ++ p.components } else p

/-- The last component, empty for a path that has none. -/
def name (p : Path) : String :=
  p.components.getLast?.getD ""

/-- The path without its last component; a path without components stays. -/
def parent (p : Path) : Path :=
  { p with components := p.components.dropLast }

/-- The path with another last component; none for a path without components. -/
def withName? (p : Path) (name : String) : Option Path :=
  if p.components.isEmpty then none
  else some { p with components := p.components.dropLast ++ [name] }

/-! ### Raw path texts -/

/-- Whether a path text is absolute. -/
def isAbsolute (text : String) : Bool :=
  Text.startsWith text "/"

/-- A path text seen from another: an absolute one stays, another is appended behind a slash. -/
def joinRaw (base text : String) : String :=
  if isAbsolute text then text
  else if base = "" || Text.endsWith base "/" then base ++ text
  else base ++ "/" ++ text

/-- The text behind the last slash. -/
def baseName (text : String) : String :=
  Text.afterLast '/' text

/-- Path text of an entry of a listed directory. -/
def entryOf (directory name : String) : String :=
  if Text.endsWith directory "/" then directory ++ name else directory ++ "/" ++ name

end Path

end ShellAssist
