import ShellAssist.Score.Basic

namespace ShellAssist

/-!
# Edit distance

The least number of insertions, deletions and substitutions that turn one text into another, row by
row: the row of a prefix `p` of the longer text holds its distances from all prefixes of the shorter
one.

`EditScorer` matches texts within a bound of the query.
-/

namespace EditDistance

/-- The rest of the row for one more character `a`, given the cell to its left and the row above
from the diagonal cell on. -/
def rowFrom (a : Char) (left : Nat) : List Char → List Nat → List Nat
  | b :: bs, diagonal :: above :: more =>
    let cell := if a = b then diagonal else 1 + min above (min left diagonal)
    cell :: rowFrom a cell bs (above :: more)
  | _, _ => []

/-- The row behind `i` characters of the longer text. -/
def rows (b : List Char) : (i : Nat) → List Char → List Nat → List Nat
  | _, [], row => row
  | i, a :: as, row => rows b (i + 1) as ((i + 1) :: rowFrom a (i + 1) b row)

/-- The distance between a text and one that is no longer. -/
def ofLonger (a b : List Char) : Nat :=
  (rows b 0 a (List.range (b.length + 1))).getLast?.getD 0

end EditDistance

/-- The least number of edits that turn one text into the other. -/
def editDistance (a b : List Char) : Nat :=
  if a.length < b.length then EditDistance.ofLonger b a else EditDistance.ofLonger a b

/-- Scores a text by its distance from the query, relative to the longer of the two. -/
structure EditScorer where
  /-- Texts further away do not match. -/
  maxDistance : Int := 3
  caseInsensitive : Bool := true
  deriving DecidableEq, Repr

/-- One minus the distance as a part of the longer text's length. -/
def EditScorer.score {σ : Type} [Scalar σ] (s : EditScorer) (query text : List Char) :
    ScoreResult σ :=
  let q := foldCase s.caseInsensitive query
  let t := foldCase s.caseInsensitive text
  let longest := max q.length t.length
  let distance := editDistance q t
  if longest = 0 || s.maxDistance < distance then .noMatch
  else { score := Scalar.ofNat 1 - Scalar.ofNat distance / Scalar.ofNat longest }

end ShellAssist
