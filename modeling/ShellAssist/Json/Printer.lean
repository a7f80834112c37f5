import ShellAssist.Json.Basic
import ShellAssist.Number.Decimal
import ShellAssist.Text.Hex
import ShellAssist.Text.Quoted

namespace ShellAssist.Json

/-!
# Writing JSON

The text is ASCII: other characters are written as `\u` escapes, in pairs beyond U+FFFF. Members and
items stand on one line, or, when indented, on a line each. Doubles that are not finite are written
`NaN`, `Infinity` and `-Infinity`.

* `render` — the text of a value.

`display` writes a value the way messages show nested data: text in message quotes, and `None`,
`True`, `False` for the constants.
-/

open Number

/-- An escape of a 16-bit unit. -/
def unitEscape (unit : Nat) : List Char :=
  '\\' :: 'u' :: Text.hex 4 unit

/-- A character inside a JSON string. -/
def escapeChar (c : Char) : List Char :=
  if c = '"' then ['\\', '"']
  else if c = '\\' then ['\\', '\\']
  else if c = '\n' then ['\\', 'n']
  else if c = '\r' then ['\\', 'r']
  else if c = '\t' then ['\\', 't']
  else if c = '\x0c' then ['\\', 'f']
  else if c = '\x08' then ['\\', 'b']
  else if 0x20 ≤ c.toNat && c.toNat < 0x7F then [c]
  else if c.toNat < 0x10000 then unitEscape c.toNat
  else
    unitEscape (0xD800 + (c.toNat - 0x10000) / 0x400) ++
      unitEscape (0xDC00 + (c.toNat - 0x10000) % 0x400)

/-- A JSON string. -/
def writeString (text : String) : List Char :=
  '"' :: text.toList.flatMap escapeChar ++ ['"']

/-- The names of values that are not finite. -/
def floatNames : Decimal.Names where
  infinity := "Infinity"
  nan := "NaN"

/-- How the items of an array or object are laid out. -/
inductive Layout where
  /-- On one line. -/
  | line
  /-- Each on a line of its own, indented by two blanks a level. -/
  | indented
  deriving DecidableEq, Repr

/-- What stands before the first item at a depth, and after the last one of the depth below. -/
def Layout.break : Layout → (depth : Nat) → List Char
  | .line, _ => []
  | .indented, depth => '\n' :: List.replicate (2 * depth) ' '

/-- What stands between two items at a depth. -/
def Layout.between : Layout → (depth : Nat) → List Char
  | .line, _ => [',', ' ']
  | .indented, depth => ',' :: Layout.indented.break depth

mutual

/-- The JSON text of a value at a depth. -/
def write (layout : Layout) (depth : Nat) : Json → List Char
  | .null => "null".toList
  | .bool true => "true".toList
  | .bool false => "false".toList
  | .int n => Decimal.ofInt n
  | .float d => Decimal.shortest floatNames d
  | .str s => writeString s
  | .arr [] => ['[', ']']
  | .arr (item :: items) =>
    '[' :: (layout.break (depth + 1) ++ write layout (depth + 1) item ++
      writeItems layout (depth + 1) items ++ layout.break depth ++ [']'])
  | .obj [] => ['\x7b', '\x7d']
  | .obj ((name, value) :: members) =>
    '\x7b' :: (layout.break (depth + 1) ++ writeString name ++ [':', ' '] ++
      write layout (depth + 1) value ++ writeMembers layout (depth + 1) members ++
      layout.break depth ++ ['\x7d'])

/-- The items behind the first. -/
def writeItems (layout : Layout) (depth : Nat) : List Json → List Char
  | [] => []
  | item :: items =>
    layout.between depth ++ write layout depth item ++ writeItems layout depth items

/-- The members behind the first. -/
def writeMembers (layout : Layout) (depth : Nat) : List (String × Json) → List Char
  | [] => []
  | (name, value) :: members =>
    layout.between depth ++ writeString name ++ [':', ' '] ++ write layout depth value ++
      writeMembers layout depth members

end

/-- The JSON text of a value. -/
def render (value : Json) (layout : Layout := .line) : String :=
  String.ofList (write layout 0 value)

/-! ### Display -/

mutual

/-- A value as messages show it inside other data. -/
def displayNested : Json → List Char
  | .null => "None".toList
  | .bool true => "True".toList
  | .bool false => "False".toList
  | .int n => Decimal.ofInt n
  | .float d => Decimal.shortest Decimal.plainNames d
  | .str s => (Text.quoted s).toList
  | .arr [] => ['[', ']']
  | .arr (item :: items) => '[' :: (displayNested item ++ displayItems items ++ [']'])
  | .obj [] => ['\x7b', '\x7d']
  | .obj ((name, value) :: members) =>
    '\x7b' :: ((Text.quoted name).toList ++ [':', ' '] ++ displayNested value ++
      displayMembers members ++ ['\x7d'])

/-- The items behind the first. -/
def displayItems : List Json → List Char
  | [] => []
  | item :: items => [',', ' '] ++ displayNested item ++ displayItems items

/-- The members behind the first. -/
def displayMembers : List (String × Json) → List Char
  | [] => []
  | (name, value) :: members =>
    [',', ' '] ++ (Text.quoted name).toList ++ [':', ' '] ++ displayNested value ++
      displayMembers members

end

/-- A value as messages show it: a text stands for itself. -/
def display : Json → String
  | .str s => s
  | value => String.ofList (displayNested value)

end ShellAssist.Json
