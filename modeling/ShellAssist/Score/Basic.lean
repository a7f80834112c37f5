import ShellAssist.Candidate
import ShellAssist.Text.Lower

namespace ShellAssist

/-!
# Scores

A scorer gives a text its relevance for a query: a score between zero and one, where zero is no
match, and the spans of the text that matched. Scores are computed in any `Scalar`: doubles where
the program runs, rational numbers where its formulas are reasoned about.
-/

/-- Numbers that scores are computed in. -/
class Scalar (σ : Type) extends Add σ, Sub σ, Mul σ, Div σ, OfScientific σ where
  ofNat : Nat → σ
  less : σ → σ → Bool

instance : Scalar Float where
  ofNat := Float.ofNat
  less a b := decide (a < b)

instance : Scalar Rat where
  ofNat n := n
  less a b := decide (a < b)

/-- The relevance of one text. -/
structure ScoreResult (σ : Type) where
  score : σ
  spans : List Span := []

namespace ScoreResult

variable {σ : Type} [Scalar σ]

/-- The result of a text that does not match. -/
def noMatch : ScoreResult σ where
  score := Scalar.ofNat 0

/-- Whether the text matches at all. -/
def isMatch (r : ScoreResult σ) : Bool :=
  Scalar.less (Scalar.ofNat 0) r.score

end ScoreResult

/-- A text as it is compared: in lower case where case does not count. -/
def foldCase (caseInsensitive : Bool) (text : List Char) : List Char :=
  if caseInsensitive then Chars.lower text else text

/-- The mark that begins bold text on a terminal. -/
def boldMark : List Char := "\x1b[1m".toList

/-- The mark that ends it. -/
def plainMark : List Char := "\x1b[0m".toList

/-- A text with marks put around its spans; what stands between the spans is copied. -/
def highlight (text : List Char) (spans : List Span) (opening : List Char := boldMark)
    (closing : List Char := plainMark) : List Char :=
  if spans.isEmpty then text else go 0 spans
where
  /-- The text from a position on. -/
  go (position : Int) : List Span → List Char
    | [] => Slice.after text position
    | s :: rest =>
      Slice.between text position s.start ++ opening ++ Slice.between text s.start s.stop ++
        closing ++ go s.stop rest

end ShellAssist
