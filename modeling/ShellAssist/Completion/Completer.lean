import ShellAssist.Completion.Backend
import ShellAssist.Completion.Cache
import ShellAssist.History.Archive
import ShellAssist.Score.Ranker

namespace ShellAssist.Completion

/-!
# Completion requests

A request is answered from the cache, or from the candidates of the backend and, for a command, of
the history. These are scored and sorted, or sorted by priority; the best of them are cached and
returned.

* `rank`, `byPriority` — the two orders of candidates;
* `Completer.complete` — the answer to a line and a cursor.
-/

open Line (Context Slot)
open History (Entry)

/-! ### Orders -/

/-- Whether a scored candidate may stand before another: higher scores first, then in text order. -/
def ranksBefore {σ : Type} [Scalar σ] (a b : Candidate × ScoreResult σ) : Bool :=
  if Scalar.less b.2.score a.2.score then true
  else if Scalar.less a.2.score b.2.score then false
  else Text.le a.1.text b.1.text

/-- The candidates that match, best first. -/
def rank {σ : Type} [Scalar σ] (candidates : List Candidate) (results : List (ScoreResult σ)) :
    List (Candidate × ScoreResult σ) :=
  ((candidates.zip results).filter fun c => c.2.isMatch).mergeSort ranksBefore

/-- Whether a candidate may stand before another by priority: higher first, then in text order. -/
def precedes (a b : Candidate) : Bool :=
  if a.priority = b.priority then Text.le a.text b.text else b.priority < a.priority

/-- The candidates by priority. -/
def byPriority (candidates : List Candidate) : List Candidate :=
  candidates.mergeSort precedes

/-- The first candidates, as many as are wanted; all of them if that is no positive number. -/
def truncate {α : Type} (maxSuggestions : Int) (candidates : List α) : List α :=
  if 0 < maxSuggestions then candidates.take maxSuggestions.toNat else candidates

/-- A candidate with the result of its scoring. -/
def attach (scored : Candidate × ScoreResult Float) : Candidate :=
  { scored.1 with score := some (.ofFloat scored.2.score), highlights := scored.2.spans }

/-! ### History as candidates -/

/-- The most history entries offered for a request. -/
def historyLimit : Int := 20

/-- The priority of the newest history entry. -/
def historyPriority : Int := 100

/-- The description of an entry of this age. -/
def historyDescription (w : World) (e : Entry) : Except Failure String :=
  match e.timestamp with
  | none => .ok "history"
  | some t => do
    let now ← w.millis
    let age ← Time.age w.offset t now
    return "history - " ++ age

/-- The candidate of the entry at a place in the search result. -/
def historyCandidate (w : World) (e : Entry) (index : Nat) : Except Failure Candidate := do
  let description ← historyDescription w e
  return {
    text := e.command, description, category := .history, priority := historyPriority - index
    metadata := [("timestamp", .ofInt? e.timestamp), ("exit_code", .ofInt? e.exitCode),
      ("source", .str e.source)] }

/-- The candidates of a search result. -/
def historyCandidates (w : World) (entries : List Entry) : Except Failure (List Candidate) :=
  (entries.zip (List.range entries.length)).mapM fun (e, index) => historyCandidate w e index

/-! ### The completer -/

/-- Candidates that an embedding program supplies, the same for every request. -/
structure FixedSource where
  /-- The candidates, or why every request fails. -/
  candidates : Except Failure (List Candidate)
  initialized : Bool := false
  /-- How often candidates were asked for. -/
  resolved : Nat := 0
  /-- How often the source was initialised. -/
  initializations : Nat := 0

/-- Where candidates come from. -/
inductive Source where
  | shell (backend : Backend)
  | fixed (source : FixedSource)

/-- The candidates of a source for a request; the source is initialised first. -/
def Source.resolve (source : Source) (context : Context) :
    StateM World (Except Failure (List Candidate) × Source) := do
  match source with
  | .shell backend =>
    match ← (backend.resolve context).run with
    | .ok (found, backend) => return (.ok found, .shell backend)
    | .error failure => return (.error failure, source)
  | .fixed s =>
    let started := if s.initialized then 0 else 1
    return (s.candidates, .fixed { s with
      initialized := true, resolved := s.resolved + 1
      initializations := s.initializations + started })

/-- What an answer depends on: the word, the command, the word's position and the directory. -/
structure CacheKey where
  word : String
  command : String
  position : Nat
  cwd : String
  deriving DecidableEq, Repr

/-- The key of a request for a word. -/
def CacheKey.ofContext (word : String) (context : Context) : CacheKey where
  word
  command := context.commandName.getD ""
  position := context.position
  cwd := context.cwd

/-- Answers completion requests. -/
structure Completer where
  config : Config
  environment : Option Environment
  source : Source
  history : History.Archive
  ranker : Ranker
  cache : Cache CacheKey (List Candidate) Number.Double

namespace Completer

/-- The completer of a configuration. A source or a history that is given is used instead of the
configured one. -/
def create (config : Config) (env : Option Environment) (source : Option Source)
    (history : Option History.Archive) : StateM World Completer := do
  let w ← get
  let environment := env.getD w.environment
  let source ← match source with
    | some given => pure given
    | none => Source.shell <$> Backend.create config environment
  let history ← match history with
    | some given => pure given
    | none => History.Archive.create config environment none
  let ranker ← Ranker.create config env
  return { config, environment := env, source, history, ranker
           cache := { ttl := config.cacheTtl } }

/-- What an operation on a completer gives: its result, the completer and the world behind it. -/
abbrev Step (α : Type) := Except Failure α × Completer × World

/-- The request for a line and a cursor, in the working directory unless another one is given. -/
def classify (c : Completer) (line : String) (cursor : Option Int) (cwd : Option String)
    (w : World) : Except Failure Context := do
  let directory ← (cwd.filter (· ≠ "")).elim w.workingDirectory .ok
  return Line.classify line cursor directory c.environment

/-- The candidates of the source, if completion is on. -/
def sourceCandidates (c : Completer) (context : Context) :
    StateM World (Except Failure (List Candidate) × Completer) := do
  if c.config.completionEnabled then
    let (found, source) ← c.source.resolve context
    return (found, { c with source })
  else return (.ok [], c)

/-- The candidates of the history, for a command and if they are wanted. -/
def recalled (c : Completer) (word : String) (context : Context) (w : World) :
    Except Failure (List Candidate) × Completer :=
  if c.config.historySuggestions && context.slot = .command then
    let (found, history) := c.history.search w word (some historyLimit) none
    (found.bind (historyCandidates w), { c with history })
  else (.ok [], c)

/-- The candidates in the order of the answer: scored by the word unless that is blank or scoring is
off, else by priority. -/
def order (c : Completer) (word : String) (candidates : List Candidate) :
    StateM World (Except Failure (List Candidate) × Completer) := do
  if c.config.fuzzySearch && !Text.isBlank word then
    if candidates.isEmpty then return (.ok [], c)
    let (results, ranker) ← c.ranker.scoreMany (σ := Float) word (candidates.map (·.text))
    return (results.map fun all => (rank candidates all).map attach, { c with ranker })
  else return (.ok (byPriority candidates), c)

/-- The answer for a word that is not in the cache. Until it is put there, time may pass. -/
def compute (c : Completer) (word : String) (context : Context) (w : World) :
    Step (List Candidate) :=
  match c.sourceCandidates context w with
  | ((.error failure, c), w) => (.error failure, c, w)
  | ((.ok found, c), w) =>
    match c.recalled word context w with
    | (.error failure, c) => (.error failure, c, w)
    | (.ok remembered, c) =>
      match c.order word (found ++ remembered) w with
      | ((.error failure, c), w) => (.error failure, c, w)
      | ((.ok ordered, c), w) =>
        let w := w.later
        let answer := truncate c.config.maxSuggestions ordered
        let cache := c.cache.put w.clock (CacheKey.ofContext word context) answer
        (.ok answer, { c with cache }, w)

/-- The answer for a word, from the cache if it is there. -/
def getCompletions (c : Completer) (word : String) (context : Context) (w : World) :
    Step (List Candidate) :=
  let (cached, cache) := c.cache.get w.clock (CacheKey.ofContext word context)
  let c := { c with cache }
  match cached with
  | some answer => (.ok answer, c, w)
  | none => c.compute word context w

/-- The answer for a line and a cursor. -/
def complete (c : Completer) (line : String) (cursor : Option Int) (cwd : Option String)
    (w : World) : Step (List Candidate) :=
  match c.classify line cursor cwd w with
  | .error failure => (.error failure, c, w)
  | .ok context => c.getCompletions context.word context w

/-- The history entries for a reverse search, newest first. -/
def historySearch (c : Completer) (text : String) (limit : Option Int) (w : World) :
    Except Failure (List Entry) × Completer :=
  let (found, history) := c.history.search w text limit none
  (found, { c with history })

/-- The completer with an empty cache. -/
def clearCache (c : Completer) : Completer :=
  { c with cache := c.cache.clear }

/-! ### For a line editor -/

/-- A completion as a line editor takes it: the text replaces the characters from `start` before the
cursor on. -/
structure Insertion where
  text : String
  start : Int
  display : String
  note : String
  deriving DecidableEq, Repr

/-- The text of an edited line before the cursor, which stands at the end unless told otherwise. A
negative cursor counts from the end; the cursor of an editor is never behind the end. -/
def editedText (line : String) : Option Int → Except Failure String
  | none => .ok line
  | some cursor =>
    if line.length < cursor then .error (.cursorBehindEnd cursor line.length)
    else .ok (String.ofList (Slice.before line.toList cursor))

/-- The completions at the cursor of an edited line. -/
def insertions (c : Completer) (line : String) (cursor : Option Int) (cwd : Option String)
    (w : World) : Step (List Insertion) :=
  match (do c.classify (← editedText line cursor) none cwd w : Except Failure Context) with
  | .error failure => (.error failure, c, w)
  | .ok context =>
    let (answer, c, w) := c.getCompletions context.word context w
    let insertion (candidate : Candidate) : Insertion :=
      { text := candidate.text, start := -(context.word.length : Int)
        display := candidate.display, note := candidate.description }
    (answer.map fun found => found.map insertion, c, w)

end Completer

end ShellAssist.Completion
