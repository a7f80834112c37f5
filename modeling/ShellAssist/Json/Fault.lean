namespace ShellAssist.Json

/-!
# What can be wrong with JSON text

* `Fault`, `Fault.message` — the causes for which a text is no JSON value, and their messages;
* `Position.behind` — where in a text such a cause is found;
-/

/-- What is wrong with a text at the place where reading it stops. -/
inductive Fault where
  /-- No value begins here. -/
  | noValue
  /-- No member of an object begins here. -/
  | noName
  /-- The name of a member has no colon behind it. -/
  | noColon
  /-- An item or member has neither a comma nor a closing bracket behind it. -/
  | noComma
  /-- The string that begins here has no end. -/
  | openString
  /-- A control character stands in a string. -/
  | controlCharacter
  /-- A backslash in a string makes no escape. -/
  | badEscape
  /-- The escape of a unit has no four hexadecimal digits. -/
  | badUnit
  /-- The value has text behind it. -/
  | extraData
  /-- The text begins with a byte order mark. -/
  | byteOrderMark
  deriving DecidableEq, Repr

/-- The message of a fault. -/
def Fault.message : Fault → String
  | .noValue => "Expecting value"
  | .noName => "Expecting property name enclosed in double quotes"
  | .noColon => "Expecting ':' delimiter"
  | .noComma => "Expecting ',' delimiter"
  | .openString => "Unterminated string starting at"
  | .controlCharacter => "Invalid control character at"
  | .badEscape => "Invalid \\escape"
  | .badUnit => "Invalid \\uXXXX escape"
  | .extraData => "Extra data"
  | .byteOrderMark => "Unexpected UTF-8 BOM (decode using utf-8-sig)"

/-- A place in a text: its line and column, counted from one, and the count of the characters before
it. -/
structure Position where
  line : Nat
  column : Nat
  offset : Nat
  deriving DecidableEq, Repr

/-- The place behind the characters of a text. -/
def Position.behind (text : List Char) : Position where
  line := text.count '\n' + 1
  column := (text.reverse.takeWhile (· ≠ '\n')).length + 1
  offset := text.length

/-- What nests values. -/
inductive Nesting where
  | array
  | object
  deriving DecidableEq, Repr

/-- The word for what nests values. -/
def Nesting.name : Nesting → String
  | .array => "array"
  | .object => "object"

end ShellAssist.Json
