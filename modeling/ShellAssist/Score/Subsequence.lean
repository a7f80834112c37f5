import ShellAssist.Score.EditDistance

namespace ShellAssist

/-!
# The reference scorer

A text matches a query, in this order, if it equals it, begins with it, contains it, or contains its
characters in order; with typo tolerance also if it is a few edits away, at half the weight.

In the third case every matched character adds 1 and half the length of the run of matches that it
ends, and 2 more at the start of a word. The sum is related to three times the query's length, cut
off at 1, and lowered by up to a fifth for the characters of the text that the query does not have.
-/

namespace Subsequence

variable {σ : Type} [Scalar σ]

/-- Whether a character behind `previous` starts a word; so does the first of a text. -/
def startsWord (previous : Option Char) : Bool :=
  match previous with
  | none => true
  | some c => c = ' ' || c = '_' || c = '-'

/-- What a matched character adds that ends a run of `run` matches. -/
def bonus (run : Nat) : σ :=
  Scalar.ofNat 1 + Scalar.ofNat run * 0.5

/-- A scan of a text for the characters of a query, each at its first possible place. `previous` is
the character before the text, `opened` where the current run of matches began, `run` its length and
`total` what the matches have added. Gives the final sum and the runs, or nothing if the text ends
before the query. -/
def scan (previous : Option Char) (position : Nat) (opened : Option Nat) (run : Nat) (total : σ) :
    (query text : List Char) → Option (σ × List Span)
  | [], _ => some (total, (opened.map fun start => ⟨start, position⟩).toList)
  | _ :: _, [] => none
  | q :: query, t :: text =>
    if q = t then
      let gained := total + bonus (run + 1)
      let gained := if startsWord previous then gained + Scalar.ofNat 2 else gained
      scan (some t) (position + 1) (some (opened.getD position)) (run + 1) gained query text
    else
      (scan (some t) (position + 1) none 0 total (q :: query) text).map fun (sum, spans) =>
        (sum, (opened.map fun start => Span.mk start position).toList ++ spans)

/-- The sum of a match as a score. -/
def normalize (total : σ) (queryLength textLength : Nat) : σ :=
  let share := total / Scalar.ofNat (queryLength * 3)
  let capped := if Scalar.less (Scalar.ofNat 1) share then Scalar.ofNat 1 else share
  let unmatched := Scalar.ofNat (textLength - queryLength) / Scalar.ofNat textLength
  capped * (Scalar.ofNat 1 - unmatched * 0.2)

/-- The score of a text that contains the characters of a query in order. -/
def score (query text : List Char) : ScoreResult σ :=
  match scan none 0 none 0 (Scalar.ofNat 0 : σ) query text with
  | none => .noMatch
  | some (total, spans) => { score := normalize total query.length text.length, spans }

end Subsequence

/-- The reference scorer's settings. -/
structure ReferenceScorer where
  caseInsensitive : Bool := true
  typoTolerance : Bool := true
  maxDistance : Int := 3
  deriving DecidableEq, Repr

namespace ReferenceScorer

variable {σ : Type} [Scalar σ]

/-- The scorer that a text must satisfy as a typo. -/
def typos (s : ReferenceScorer) : EditScorer where
  maxDistance := s.maxDistance
  caseInsensitive := s.caseInsensitive

/-- The score of a text that matches at most as a typo: half of its score by edits. -/
def typoScore (s : ReferenceScorer) (query text : List Char) : ScoreResult σ :=
  let typo : ScoreResult σ := s.typos.score query text
  if typo.isMatch then { score := typo.score * 0.5 } else .noMatch

/-- The score of a text for a query. -/
def score (s : ReferenceScorer) (query text : List Char) : ScoreResult σ :=
  let q := foldCase s.caseInsensitive query
  let t := foldCase s.caseInsensitive text
  if q = t then { score := Scalar.ofNat 1, spans := [⟨0, text.length⟩] }
  else if q.isPrefixOf t then { score := 0.9, spans := [⟨0, q.length⟩] }
  else match Chars.indexOf? q t with
    | some i => { score := 0.8, spans := [⟨i, i + q.length⟩] }
    | none =>
      let inOrder : ScoreResult σ := Subsequence.score q t
      if inOrder.isMatch || !s.typoTolerance then inOrder else s.typoScore query text

end ReferenceScorer

end ShellAssist
