import ShellAssist.Text.Basic

namespace ShellAssist

/-!
# White space

White space of all scripts, together with the four information separators U+001C to U+001F.
`Chars.fields` cuts a text into its maximal runs of other characters.
-/

namespace Chars

/-- The closed ranges of the white space code points. -/
def blankRanges : List (Nat × Nat) :=
  [(0x09, 0x0D), (0x1C, 0x20), (0x85, 0x85), (0xA0, 0xA0), (0x1680, 0x1680), (0x2000, 0x200A),
   (0x2028, 0x2029), (0x202F, 0x202F), (0x205F, 0x205F), (0x3000, 0x3000)]

/-- Whether a character is white space. -/
def isBlank (c : Char) : Bool :=
  inRanges blankRanges c.toNat

/-- The text without white space at its ends. -/
def strip (text : List Char) : List Char :=
  trim isBlank text

/-- The maximal runs of characters that are not white space. -/
def fields : List Char → List (List Char)
  | [] => []
  | c :: rest =>
    if isBlank c then fields rest
    else match rest with
      | [] => [[c]]
      | d :: _ =>
        if isBlank d then [c] :: fields rest
        else match fields rest with
          | [] => [[c]]
          | word :: words => (c :: word) :: words

end Chars

namespace Text

/-- The text without white space at its ends. -/
def strip (text : String) : String :=
  String.ofList (Chars.strip text.toList)

/-- Whether the text holds nothing but white space. -/
def isBlank (text : String) : Bool :=
  text.toList.all Chars.isBlank

/-- The maximal runs of characters that are not white space. -/
def fields (text : String) : List String :=
  (Chars.fields text.toList).map String.ofList

end Text

end ShellAssist
