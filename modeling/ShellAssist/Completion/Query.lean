import ShellAssist.Candidate
import ShellAssist.Host.World
import ShellAssist.Json.Reader
import ShellAssist.Json.Printer
import ShellAssist.Line.Context

namespace ShellAssist.Completion

/-!
# Asking other programs

Candidates for the arguments of some commands, from what those programs, their files or the system
know. A question that gets no answer contributes nothing.

A `Query` is an external question in the directory of the request.
-/

open Line (Context)

/-- Asks an external command with these arguments; absent if it gave no answer. -/
abbrev Query := List String → Action (Option String)

/-- The lines of an answer, stripped, without blank ones. -/
def answerLines (answer : Option String) : List String :=
  (answer.map Text.strippedLines).getD []

/-- Candidates among the names, as the arguments of commands are offered. -/
def argumentsOf (names : List String) (stem description : String) : List Candidate :=
  Candidate.ofNames names stem description .argument 8

/-! ### git -/

namespace Git

/-- The subcommands that are offered. -/
def subcommands : List String :=
  ["add", "commit", "push", "pull", "clone", "checkout", "branch", "merge", "rebase", "status",
   "diff", "log", "stash", "fetch", "remote", "tag", "reset", "revert", "init", "mv", "rm", "show",
   "blame", "grep", "switch", "restore"]

/-- The subcommands that take references. -/
def refSubcommands : List String :=
  ["checkout", "switch", "merge", "rebase", "branch", "diff", "log"]

/-- The subcommands that take changed files. -/
def fileSubcommands : List String :=
  ["add", "rm", "diff", "restore"]

/-- The references that begin with `stem`. -/
def references (ask : Query) (stem : String) : Action (List Candidate) := do
  let answer ← ask ["git", "for-each-ref", "--format=%(refname:short)", "refs/"]
  return argumentsOf (answerLines answer) stem "git ref"

/-- The text behind the first arrow, for a renamed file; else all of it. -/
def renamedTo (path : List Char) : List Char :=
  match Chars.indexOf? " -> ".toList path with
  | some i => path.drop (i + 4)
  | none => path

/-- The status and the path of a line of the status list; the line has two marks and a blank before
the path. -/
def changedFile? (line : List Char) : Option (List Char × List Char) :=
  if line.length < 4 then none
  else
    some (Chars.strip (line.take 2), Chars.trim (· = '"') (renamedTo (line.drop 3)))

/-- The changed files that begin with `stem`. A file without a name is a failure. -/
def changedFiles (ask : Query) (stem : String) : Action (List Candidate) := do
  let answer ← ask ["git", "status", "--porcelain"]
  let lines := Chars.lines (answer.getD "").toList
  let files := (lines.filterMap changedFile?).filter fun f => stem.toList.isPrefixOf f.2
  files.mapM fun (status, path) =>
    ExceptT.mk (pure (Candidate.checked {
      text := String.ofList path, description := "modified file", category := .file, priority := 8
      metadata := [("status", .str (String.ofList status))] }))

/-- The candidates for an argument of git. -/
def candidates (ask : Query) (context : Context) : Action (List Candidate) := do
  let stem := context.typed
  match context.subcommand with
  | none => return argumentsOf subcommands stem "git subcommand"
  | some subcommand =>
    let refs ← if refSubcommands.contains subcommand then references ask stem else pure []
    let files ← if fileSubcommands.contains subcommand then changedFiles ask stem else pure []
    return Candidate.distinct (refs ++ files)

end Git

/-! ### npm -/

namespace Npm

/-- The commands that are offered. -/
def commands : List String :=
  ["install", "uninstall", "run", "test", "start", "init", "publish", "update", "audit", "ci", "ls",
   "outdated", "prune", "rebuild", "link"]

/-- The scripts of a package file's text; one that is no JSON has none. A text that is nested too
deep is a failure. -/
def scriptsOf (nesting : Nat) (text : List Char) : Except Failure Members :=
  match Json.read nesting text with
  | .ok package =>
    match package.get? "scripts" with
    | some (.obj members) => .ok members
    | _ => .ok []
  | .error failure => if failure.kind = .value then .ok [] else .error failure

/-- The scripts of the package in a directory; one that cannot be read has none. -/
def scripts (w : World) (cwd : String) : Except Failure Members :=
  match w.disk.read w.cwd ((Path.ofString cwd).join "package.json").toString with
  | .error _ => .ok []
  | .ok bytes =>
    match Text.decodeStrict? bytes with
    | some text => scriptsOf w.nesting (Chars.unifyNewlines text)
    | none => .ok []

/-- The scripts whose names begin with `stem`. -/
def scriptCandidates (scripts : Members) (stem : String) : List Candidate :=
  (scripts.filter fun s => s.1 ≠ "" && Text.startsWith s.1 stem).map fun (name, script) =>
    { text := name, description := Text.take 50 script.display, category := .argument
      priority := 9, metadata := [("script", script)] }

/-- The candidates for an argument of npm. -/
def candidates (w : World) (context : Context) : Except Failure (List Candidate) :=
  let stem := context.typed
  let scripts := (scripts w context.cwd).map (scriptCandidates · stem)
  match context.subcommand with
  | none => scripts.map fun found =>
    Candidate.distinct (argumentsOf commands stem "npm command" ++ found)
  | some "run" => scripts
  | some _ => .ok []

end Npm

/-! ### docker -/

namespace Docker

/-- The commands that are offered. -/
def commands : List String :=
  ["run", "exec", "ps", "build", "pull", "push", "images", "container", "volume", "network", "stop",
   "start", "restart", "rm", "rmi", "logs", "inspect", "compose", "swarm"]

/-- The subcommands that take containers. -/
def containerSubcommands : List String :=
  ["exec", "stop", "start", "restart", "rm", "logs", "inspect"]

/-- The subcommands that take images. -/
def imageSubcommands : List String :=
  ["run", "rmi"]

/-- A field's place holder in an output format. -/
def fieldMark (name : String) : String :=
  "\x7b\x7b." ++ name ++ "\x7d\x7d"

/-- The candidates for an argument of docker. -/
def candidates (ask : Query) (context : Context) : Action (List Candidate) := do
  let stem := context.typed
  match context.subcommand with
  | none => return argumentsOf commands stem "docker command"
  | some subcommand =>
    if containerSubcommands.contains subcommand then
      let answer ← ask ["docker", "ps", "--format", fieldMark "Names"]
      return Candidate.distinct (argumentsOf (answerLines answer) stem "docker container")
    else if imageSubcommands.contains subcommand then
      let answer ← ask
        ["docker", "images", "--format", fieldMark "Repository" ++ ":" ++ fieldMark "Tag"]
      let images := (answerLines answer).filter fun i => !Text.contains "<none>" i
      return Candidate.distinct (argumentsOf images stem "docker image")
    else return []

end Docker

/-! ### Processes -/

/-- The processes whose numbers begin with `stem`. -/
def processCandidates (processes : ProcessList) (stem : String) : List Candidate :=
  match processes with
  | .unavailable => []
  | .running all =>
    let offered := all.filterMap fun (pid, name) =>
      let text := String.ofList (Number.Decimal.ofInt pid)
      let name := name.getD ""
      if Text.startsWith text stem then
        some { text, description := Text.take 30 name, category := .argument, priority := 7
               metadata := [("command", .str name)] : Candidate }
      else none
    Candidate.distinct offered

end ShellAssist.Completion
