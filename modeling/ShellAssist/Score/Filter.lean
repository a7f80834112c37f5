import ShellAssist.Score.Basic
import ShellAssist.Host.World

namespace ShellAssist

/-!
# Scoring by an external filter

Texts are handed to the external program `fzf`, which prints those that match, best first. It
reports no numbers, so the text in place `i` of `n` scores `1 - i / n`. The filter is looked for and
tried once; a failure takes it out of use for good.
-/

/-- The external filter and what is known of it. -/
structure Filter where
  configuredPath : Option String
  timeout : Number.Double
  environment : Option Environment
  path : Option String := none
  /-- Absent until the filter has been looked for. -/
  available : Option Bool := none

namespace Filter

/-- The directories that are searched for programs: those of the given list, else of the process's
own, else the standard ones. -/
def searchPath (env processEnvironment : Environment) : List String :=
  match (Environment.get? env "PATH").or (Environment.get? processEnvironment "PATH") with
  | none => ["/bin", "/usr/bin"]
  | some "" => []
  | some dirs => Text.splitOn ':' dirs

/-- Whether a path names a file that may be executed. -/
def isProgram (w : World) (path : String) : Bool :=
  w.disk.isFile w.cwd path && w.disk.isExecutable w.cwd path

/-- The filter in the search path, else in the home directory. -/
def findInstalled (w : World) (env : Environment) : Option String :=
  let candidates := (searchPath env w.environment).map (Path.joinRaw · "fzf")
  match candidates.find? (isProgram w) with
  | some path => some path
  | none =>
    let home := (Environment.filled? env "HOME").getD (Environment.expandHome w.environment w.users "~")
    let own := Path.joinRaw (Path.joinRaw (Path.joinRaw home ".fzf") "bin") "fzf"
    if isProgram w own then some own else none

/-- The filter's path: the configured one, else an installed one. A configured path that is no
program is noted. -/
def find (f : Filter) : StateM World (Option String) := do
  let w ← get
  let env := f.environment.getD w.environment
  match f.configuredPath.filter (· ≠ "") with
  | none => return findInstalled w env
  | some configured =>
    let path := Environment.expandHome w.environment w.users configured
    if isProgram w path then return some path
    World.note .warning "FUZZY" ("Configured fzf path not found: " ++ path)
    return findInstalled w env

/-- Seconds that a trial of the filter may take. -/
def trialSeconds : Number.Double := 1

/-- Looks for the filter and tries it, unless that has been done. A trial can always be waited for. -/
def probe (f : Filter) : StateM World (Bool × Filter) := do
  match f.available with
  | some known => return (known, f)
  | none =>
    let path ← f.find
    let works ← match path with
      | none => pure false
      | some program => do
        let answer ← (World.output [program, "--version"] (some trialSeconds)).orElse none
        pure answer.isSome
    return (works, { f with path, available := some works })

/-- The arguments of a request. -/
def request (program query : String) : List String :=
  [program, "--filter", query, "--tiebreak=index", "-i", "--read0", "--print0"]

/-- The index of the first text in the list that is the line, and the list without it. -/
def takeIndex (line : String) : List (Nat × String) → Option (Nat × List (Nat × String))
  | [] => none
  | (i, text) :: rest =>
    if text = line then some (i, rest)
    else (takeIndex line rest).map fun (j, left) => (j, (i, text) :: left)

/-- Places of the lines in the output, by the index of the text each stands for: of equal texts the
first comes first. A line that stands for no text is passed over. -/
def places (place : Nat) : (lines : List String) → (texts : List (Nat × String)) →
    List (Nat × Nat)
  | [], _ => []
  | line :: lines, texts =>
    match takeIndex line texts with
    | none => places (place + 1) lines texts
    | some (i, left) => (i, place) :: places (place + 1) lines left

/-- The results for the texts from the filter's output. -/
def readOutput {σ : Type} [Scalar σ] (output : String) (texts : List String) :
    List (ScoreResult σ) :=
  let lines := (Text.splitOn '\x00' output).filter (· ≠ "")
  let indexed := (List.range texts.length).zip texts
  let found := places 0 lines indexed
  indexed.map fun (i, _) =>
    match found.lookup i with
    | none => .noMatch
    | some place =>
      { score := Scalar.ofNat 1 - Scalar.ofNat place / Scalar.ofNat lines.length }

/-- Scores texts by one request. A failed request takes the filter out of use, but not one for which
the system does not wait. -/
def scoreMany {σ : Type} [Scalar σ] (f : Filter) (query : String) (texts : List String) :
    StateM World (Except Failure (List (ScoreResult σ)) × Filter) := do
  let (works, f) ← f.probe
  match works, f.path with
  | true, some program =>
    if texts.isEmpty then return (.ok [], f)
    let input := String.intercalate "\x00" texts
    match ← (World.output (request program query) (some f.timeout) none (some input) [0, 1]).run with
    | .error failure => return (.error failure, f)
    | .ok none => return (.error .filterFailed, { f with available := some false })
    | .ok (some output) => return (.ok (readOutput output texts), f)
  | _, _ => return (.error .filterMissing, f)

end Filter

end ShellAssist
