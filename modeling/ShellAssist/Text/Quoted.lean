import ShellAssist.Text.Letter
import ShellAssist.Text.Hex

namespace ShellAssist.Text

/-!
# Quoted text in messages

A text shown in a message stands in single quotes, or in double quotes if it holds a single quote
and no double one. A backslash, the chosen quote and every character without a printed form are
written as escapes; all else stands for itself.
-/

/-- The escape of a character without a printed form: two, four or eight hexadecimal digits. -/
def escapeUnprintable (c : Char) : List Char :=
  if c.toNat < 0x100 then '\\' :: 'x' :: hex 2 c.toNat
  else if c.toNat < 0x10000 then '\\' :: 'u' :: hex 4 c.toNat
  else '\\' :: 'U' :: hex 8 c.toNat

/-- A character inside the given quotes. -/
def quoteChar (quote c : Char) : List Char :=
  if c = quote || c = '\\' then ['\\', c]
  else if c = '\n' then ['\\', 'n']
  else if c = '\r' then ['\\', 'r']
  else if c = '\t' then ['\\', 't']
  else if Chars.isPrintable c then [c]
  else escapeUnprintable c

/-- The text in quotes, as messages show it. -/
def quoted (text : String) : String :=
  let cs := text.toList
  let quote := if cs.contains '\'' && !cs.contains '"' then '"' else '\''
  String.ofList (quote :: cs.flatMap (quoteChar quote) ++ [quote])

/-- An absent text is shown as the bare word `None`. -/
def quotedOption : Option String → String
  | some text => quoted text
  | none => "None"

end ShellAssist.Text
