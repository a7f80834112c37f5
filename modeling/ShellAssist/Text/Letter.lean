import ShellAssist.Text.Blank
import ShellAssist.Text.Table.WordChar
import ShellAssist.Text.Table.Unprintable
import ShellAssist.Text.Table.DecimalDigit

namespace ShellAssist.Chars

/-!
# Letters, digits and printed characters

Classes of characters over all scripts. ASCII is decided directly, the rest by table.
-/

/-- Whether a character is a letter or numeral of any script, or the underscore. -/
def isWordChar (c : Char) : Bool :=
  if c.toNat < 0x80 then c.isAlphanum || c = '_' else inRanges Text.wordCharRanges c.toNat

/-- Whether a character has a printed form; of the blanks only the plain space has. -/
def isPrintable (c : Char) : Bool :=
  if c.toNat < 0x80 then 0x20 ≤ c.toNat && c.toNat < 0x7F
  else !inRanges Text.unprintableRanges c.toNat

/-- The value of a decimal digit of any script. -/
def digitValue? (c : Char) : Option Nat :=
  if c.isDigit then some (c.toNat - '0'.toNat)
  else (Text.digitZeros.find? fun z => z ≤ c.toNat && c.toNat < z + 10).map (c.toNat - ·)

/-- Whether a character is a decimal digit of any script. -/
def isDecimalDigit (c : Char) : Bool :=
  (digitValue? c).isSome

/-- The value of a run of decimal digits; other characters are passed over. -/
def digitsValue (digits : List Char) : Nat :=
  digits.foldl (fun n c => match digitValue? c with | some d => 10 * n + d | none => n) 0

end ShellAssist.Chars
