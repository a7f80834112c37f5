namespace ShellAssist

/-!
# Searching and cutting text

A text is a sequence of code points. The algorithms work on `List Char`, in the namespace `Chars`;
the functions of the same names in `Text` lift them to `String`. Lengths and positions count code
points.

* `Chars.indexOf?`, `Chars.contains` — first occurrence of a text in another;
* `Chars.splitOn`, `Chars.throughLast`, `Chars.afterLast` — cuts at a separator;
* `Slice.between` — cuts by signed positions, where a negative one counts from the end.
-/

namespace Chars

/-- Whether a code point lies in one of the closed ranges. -/
def inRanges (ranges : List (Nat × Nat)) (n : Nat) : Bool :=
  ranges.any fun r => r.1 ≤ n && n ≤ r.2

/-- Position of the first occurrence of `needle`. -/
def indexOf? (needle : List Char) : List Char → Option Nat
  | [] => if needle.isEmpty then some 0 else none
  | c :: rest =>
    if needle.isPrefixOf (c :: rest) then some 0 else (indexOf? needle rest).map (· + 1)

/-- Whether `needle` occurs somewhere in the text. -/
def contains (needle text : List Char) : Bool :=
  (indexOf? needle text).isSome

/-- The pieces between the occurrences of `sep`; one more than there are separators. -/
def splitOn (sep : Char) : List Char → List (List Char)
  | [] => [[]]
  | c :: rest =>
    if c = sep then [] :: splitOn sep rest
    else match splitOn sep rest with
      | [] => [[c]]
      | piece :: pieces => (c :: piece) :: pieces

/-- The text up to and including the last `sep`; empty when there is none. -/
def throughLast (sep : Char) (text : List Char) : List Char :=
  (text.reverse.dropWhile (· ≠ sep)).reverse

/-- The text behind the last `sep`; all of it when there is none. -/
def afterLast (sep : Char) (text : List Char) : List Char :=
  (text.reverse.takeWhile (· ≠ sep)).reverse

/-- The text without the characters at its end that satisfy `p`. -/
def dropEndWhile (p : Char → Bool) (text : List Char) : List Char :=
  (text.reverse.dropWhile p).reverse

/-- The text without the characters at either end that satisfy `p`. -/
def trim (p : Char → Bool) (text : List Char) : List Char :=
  dropEndWhile p (text.dropWhile p)

/-- The order of texts by code point. -/
def le (a b : List Char) : Bool :=
  !(decide (b < a))

end Chars

namespace Text

/-- Whether the text begins with `stem`. -/
def startsWith (text stem : String) : Bool :=
  stem.toList.isPrefixOf text.toList

/-- Whether the text ends with `tail`. -/
def endsWith (text tail : String) : Bool :=
  tail.toList.isSuffixOf text.toList

/-- Whether `needle` occurs somewhere in the text. -/
def contains (needle text : String) : Bool :=
  Chars.contains needle.toList text.toList

/-- The first `n` characters. -/
def take (n : Nat) (text : String) : String :=
  String.ofList (text.toList.take n)

/-- The text without its first `n` characters. -/
def drop (n : Nat) (text : String) : String :=
  String.ofList (text.toList.drop n)

/-- The pieces between the occurrences of `sep`. -/
def splitOn (sep : Char) (text : String) : List String :=
  (Chars.splitOn sep text.toList).map String.ofList

/-- The text behind the last `sep`; all of it when there is none. -/
def afterLast (sep : Char) (text : String) : String :=
  String.ofList (Chars.afterLast sep text.toList)

/-- The text up to and including the last `sep`; empty when there is none. -/
def throughLast (sep : Char) (text : String) : String :=
  String.ofList (Chars.throughLast sep text.toList)

/-- The order of texts by code point. -/
def le (a b : String) : Bool :=
  Chars.le a.toList b.toList

/-- Texts in code point order. -/
def sort (texts : List String) : List String :=
  texts.mergeSort le

/-- The texts in order of first appearance, without repeats. -/
def distinct (texts : List String) : List String :=
  texts.foldl (fun seen t => if seen.contains t then seen else seen ++ [t]) []

end Text

namespace Slice

/-- The place of a signed position in a list of length `n`: a negative position counts from the
end, and one beyond either end stands at that end. -/
def position (n : Nat) (i : Int) : Nat :=
  if i < 0 then (n + i).toNat else min i.toNat n

/-- The elements from position `start` up to, not including, position `stop`. -/
def between {α : Type} (xs : List α) (start stop : Int) : List α :=
  (xs.take (position xs.length stop)).drop (position xs.length start)

/-- The elements before position `stop`. -/
def before {α : Type} (xs : List α) (stop : Int) : List α :=
  xs.take (position xs.length stop)

/-- The elements from position `start` on. -/
def after {α : Type} (xs : List α) (start : Int) : List α :=
  xs.drop (position xs.length start)

end Slice

end ShellAssist
