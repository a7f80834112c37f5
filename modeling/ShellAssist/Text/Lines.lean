import ShellAssist.Text.Blank

namespace ShellAssist

/-!
# Lines

A line ends at any line-boundary character, and a carriage return with a line feed behind it is one
boundary. The characters behind the last boundary are a line if there are any.
-/

namespace Chars

/-- Whether a character ends a line. -/
def isLineBreak (c : Char) : Bool :=
  inRanges [(0x0A, 0x0D), (0x1C, 0x1E), (0x85, 0x85), (0x2028, 0x2029)] c.toNat

/-- The lines of a text, without their boundaries. -/
def lines : List Char → List (List Char)
  | [] => []
  | '\r' :: '\n' :: rest => [] :: lines rest
  | c :: rest =>
    if isLineBreak c then [] :: lines rest
    else match lines rest with
      | [] => [[c]]
      | line :: more => (c :: line) :: more

/-- The text with every carriage return, alone or before a line feed, turned into a line feed. -/
def unifyNewlines : List Char → List Char
  | [] => []
  | '\r' :: '\n' :: rest => '\n' :: unifyNewlines rest
  | '\r' :: rest => '\n' :: unifyNewlines rest
  | c :: rest => c :: unifyNewlines rest

end Chars

namespace Text

/-- The lines of a text, without their boundaries. -/
def lines (text : String) : List String :=
  (Chars.lines text.toList).map String.ofList

/-- The lines stripped of white space, blank ones left out. -/
def strippedLines (text : String) : List String :=
  ((Chars.lines text.toList).map Chars.strip).filter (· ≠ []) |>.map String.ofList

end Text

end ShellAssist
