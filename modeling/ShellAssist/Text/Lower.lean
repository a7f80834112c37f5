import ShellAssist.Text.Basic
import ShellAssist.Text.Table.LowerCase
import ShellAssist.Text.Table.Cased

namespace ShellAssist

/-!
# Lower case

The full mapping to lower case over all scripts. Two letters are special: the dotted capital I
becomes two characters, and a capital sigma at the end of a word becomes the final sigma.
-/

namespace Chars

/-- The lower case of a character, its neighbours left aside. -/
def lowerChar (c : Char) : List Char :=
  if c.toNat < 0x80 then [c.toLower]
  else if c.toNat = 0x130 then ['i', Char.ofNat 0x307]
  else
    match Text.lowerCaseRuns.find? fun (first, last, step, _) =>
        first ≤ c.toNat && c.toNat ≤ last && (c.toNat - first) % step = 0 with
    | some (_, _, _, shift) => [Char.ofNat (c.toNat + shift).toNat]
    | none => [c]

/-- Whether the nearest character that case does not look through is cased. -/
def meetsCased (neighbours : List Char) : Bool :=
  match neighbours.dropWhile fun c => inRanges Text.caseIgnorableRanges c.toNat with
  | [] => false
  | c :: _ => inRanges Text.casedRanges c.toNat

/-- Lower case of a text; `before` holds the characters already passed, nearest first. -/
def lowerFrom (before : List Char) : List Char → List Char
  | [] => []
  | c :: rest =>
    let folded :=
      if c.toNat = 0x3A3 then
        [Char.ofNat (if meetsCased before && !meetsCased rest then 0x3C2 else 0x3C3)]
      else lowerChar c
    folded ++ lowerFrom (c :: before) rest

/-- Lower case of a text. -/
def lower (text : List Char) : List Char :=
  lowerFrom [] text

end Chars

namespace Text

/-- Lower case of a text. -/
def lower (text : String) : String :=
  String.ofList (Chars.lower text.toList)

end Text

end ShellAssist
