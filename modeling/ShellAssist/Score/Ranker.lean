import ShellAssist.Score.Filter
import ShellAssist.Score.Subsequence
import ShellAssist.Config

namespace ShellAssist

/-!
# Rankers

A ranker asks its primary scorer and, where that is the external filter and does not answer, the
reference scorer. Scorers are chosen by name.
-/

/-- A way to score texts. -/
inductive Scorer where
  | reference (settings : ReferenceScorer)
  | edits (settings : EditScorer)
  | filter (filter : Filter)

namespace Scorer

variable {σ : Type} [Scalar σ]

/-- The name of a scorer. -/
def name : Scorer → String
  | .reference _ => "subsequence"
  | .edits _ => "levenshtein"
  | .filter _ => "fzf"

/-- The bound on edits, of the scorer that has only that. -/
def maxDistance? : Scorer → Option Int
  | .edits s => some s.maxDistance
  | _ => none

/-- The path of the external filter, once found. -/
def filterPath? : Scorer → Option String
  | .filter f => f.path
  | _ => none

/-- Whether the scorer answers; the external filter is tried for that. -/
def probe : Scorer → StateM World (Bool × Scorer)
  | .filter f => do
    let (works, f) ← f.probe
    return (works, .filter f)
  | s => return (true, s)

/-- Scores texts; the results line up with them. -/
def scoreMany (s : Scorer) (query : String) (texts : List String) :
    StateM World (Except Failure (List (ScoreResult σ)) × Scorer) :=
  match s with
  | .reference r => return (.ok (texts.map fun t => r.score query.toList t.toList), s)
  | .edits e => return (.ok (texts.map fun t => e.score query.toList t.toList), s)
  | .filter f => do
    let (results, f) ← f.scoreMany query texts
    return (results, .filter f)

/-- The names that choose a scorer. -/
def choices : List String := ["auto", "fzf", "subsequence", "levenshtein"]

/-- The reference scorer of a configuration. -/
def referenceOf (config : Config) : ReferenceScorer where
  maxDistance := config.fuzzyMaxDistance

/-- The scorer of a name. -/
def create (config : Config) (env : Option Environment) (name : String) : Except Failure Scorer :=
  let folded := Text.lower name
  if folded = "subsequence" then .ok (.reference (referenceOf config))
  else if folded = "levenshtein" then .ok (.edits { maxDistance := config.fuzzyMaxDistance })
  else if folded = "fzf" || folded = "auto" then
    .ok (.filter { configuredPath := config.fzfPath, timeout := config.commandTimeout,
                   environment := env })
  else .error (.unknownName "fuzzy backend" (some folded) choices)

end Scorer

/-- A primary scorer with the reference scorer behind it. -/
structure Ranker where
  primary : Scorer
  fallback : ReferenceScorer

namespace Ranker

variable {σ : Type} [Scalar σ]

/-- The ranker of a configuration. An unknown name is noted, and the reference scorer is taken. -/
def create (config : Config) (env : Option Environment) : StateM World Ranker := do
  let requested := (config.fuzzyBackend.filter (· ≠ "")).getD "auto"
  let fallback := Scorer.referenceOf config
  match Scorer.create config env requested with
  | .ok primary => return { primary, fallback }
  | .error _ =>
    World.noteMismatch "fuzzy backend" (some requested) "subsequence"
    return { primary := .reference fallback, fallback }

/-- The name of the scorer that answers. -/
def name (r : Ranker) : StateM World (String × Ranker) := do
  let (works, primary) ← r.primary.probe
  return (if works then primary.name else (Scorer.reference r.fallback).name, { r with primary })

/-- Scores texts by the primary scorer if that answers, else by the reference scorer. Of the failures
of the primary scorer only those of a filter are made up for. -/
def scoreMany (r : Ranker) (query : String) (texts : List String) :
    StateM World (Except Failure (List (ScoreResult σ)) × Ranker) := do
  let fallback := texts.map fun t => r.fallback.score query.toList t.toList
  let (works, primary) ← r.primary.probe
  if works then
    let (results, primary) ← primary.scoreMany query texts
    let results := match results with
      | .ok results => .ok results
      | .error failure => if failure.kind = .filter then .ok fallback else .error failure
    return (results, { r with primary })
  else return (.ok fallback, { r with primary })

/-- Which scorers a configuration has at hand; the external filter is looked for anew. -/
def available (config : Config) (env : Option Environment) :
    StateM World (List (String × Bool)) := do
  let filter : Filter :=
    { configuredPath := config.fzfPath, timeout := config.commandTimeout, environment := env }
  let (works, _) ← filter.probe
  return [("fzf", works), ("subsequence", true), ("levenshtein", true)]

end Ranker

end ShellAssist
