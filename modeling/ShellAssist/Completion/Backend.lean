import ShellAssist.Completion.Listing
import ShellAssist.Completion.Help
import ShellAssist.Completion.Hosts
import ShellAssist.Completion.Query
import ShellAssist.Host.Shell
import ShellAssist.Config

namespace ShellAssist.Completion

/-!
# Shell backends

A backend finds the candidates for the word under the cursor, before ranking. All backends read the
environment, the file system and the help texts of commands; those for bash and zsh know more
builtin commands and ask their shell, where that works.

Every candidate completes the word under the cursor, and no two have the same text. A source that
fails contributes nothing.

* `Resolver`, `builtinResolvers` — how the arguments of some commands are completed;
* `Backend.create` — the backend of a configuration;
* `Backend.resolve` — the candidates for a request.
-/

open Line (Context Slot)

/-! ### Resolvers -/

/-- How the arguments of a command are found. -/
inductive ResolverKind where
  | git
  | npm
  | docker
  | processes
  | hosts
  | directories
  /-- The same candidates always. -/
  | fixed (candidates : List Candidate)
  /-- Always fails. -/
  | failing

/-- How the arguments of a command are completed. -/
structure Resolver where
  name : String
  kind : ResolverKind
  /-- Whether file names are offered as well. -/
  includeFiles : Bool := true

/-- The resolvers by the names of their commands. -/
abbrev Registry := List Resolver

namespace Registry

/-- The resolvers that are always there. -/
def builtin : Registry :=
  [{ name := "git", kind := .git }, { name := "npm", kind := .npm },
   { name := "docker", kind := .docker },
   { name := "kill", kind := .processes, includeFiles := false },
   { name := "ssh", kind := .hosts, includeFiles := false }, { name := "scp", kind := .hosts },
   { name := "rsync", kind := .hosts },
   { name := "cd", kind := .directories, includeFiles := false },
   { name := "pushd", kind := .directories, includeFiles := false }]

/-- The registry with a resolver put in, instead of another for the same command. -/
def register (registry : Registry) (resolver : Resolver) : Registry :=
  resolver :: registry.filter fun r => r.name ≠ resolver.name

/-- The resolver for a command as written, quoted or with its path. -/
def find? (registry : Registry) (command : Option String) : Option Resolver := do
  let written ← command.filter (· ≠ "")
  let name := Path.baseName (Line.unquote written)
  List.find? (fun r : Resolver => r.name = name) registry

end Registry

/-! ### Families -/

/-- The shells that backends are made for. -/
inductive Family where
  | generic
  | bash
  | zsh
  deriving DecidableEq, Repr

namespace Family

/-- The name of a family. -/
def name : Family → String
  | .generic => "generic"
  | .bash => "bash"
  | .zsh => "zsh"

/-- The family of a shell by its path or name. -/
def ofShell (shell : Option String) : Family :=
  match shell.filter (· ≠ "") with
  | none => .generic
  | some path =>
    let program := Shell.programName path
    if Text.startsWith program "zsh" then .zsh
    else if Text.startsWith program "bash" then .bash
    else .generic

/-- The names that choose a family. -/
def choices : List (String × Family) :=
  [("base", .generic), ("bash", .bash), ("generic", .generic), ("zsh", .zsh)]

/-- The family of a chosen name. -/
def ofName (name : String) : Except Failure Family :=
  match choices.lookup (Text.lower name) with
  | some family => .ok family
  | none => .error (.unknownName "completion backend" (some name) (choices.map (·.1)))

/-- Builtin commands of every shell. -/
def commonBuiltins : List String :=
  ["cd", "pwd", "echo", "export", "alias", "unalias", "source", ".", "eval", "exec", "exit",
   "return", "break", "continue", "shift", "set", "unset", "readonly", "declare", "local",
   "typeset", "bg", "fg", "jobs", "kill", "wait", "true", "false", "test", "read", "trap", "umask"]

/-- Builtin commands that only this family has. -/
def extraBuiltins : Family → List String
  | .generic => []
  | .bash =>
    ["bind", "builtin", "caller", "command", "compgen", "complete", "compopt", "dirs", "disown",
     "enable", "help", "history", "logout", "mapfile", "popd", "pushd", "readarray", "shopt",
     "suspend", "times", "type", "ulimit"]
  | .zsh =>
    ["autoload", "bindkey", "builtin", "chdir", "compctl", "compadd", "compdef", "dirs", "disable",
     "disown", "echotc", "echoti", "emulate", "enable", "fc", "float", "functions", "getln",
     "getopts", "hash", "history", "integer", "limit", "logout", "popd", "print", "pushd", "pushln",
     "r", "rehash", "sched", "setopt", "suspend", "times", "ttyctl", "type", "ulimit", "unfunction",
     "unhash", "unlimit", "unsetopt", "vared", "whence", "where", "which", "zcompile", "zformat",
     "zle", "zmodload", "zparseopts", "zstyle"]

/-- The builtin commands. -/
def builtins (family : Family) : List String :=
  commonBuiltins ++ family.extraBuiltins

end Family

/-! ### Backends -/

/-- A source of candidates for one shell. -/
structure Backend where
  family : Family
  /-- How the shell is run. -/
  shellPath : String
  environment : Environment
  /-- Seconds an external command may take. -/
  timeout : Number.Double
  registry : Registry := Registry.builtin
  initialized : Bool := false
  /-- Whether the shell itself can be asked; absent until it has been tried. -/
  native : Option Bool := none

namespace Backend

/-- A backend of a family. -/
def ofFamily (family : Family) (shellPath : String) (config : Config) (environment : Environment) :
    Backend where
  family
  shellPath
  environment
  timeout := config.commandTimeout

/-- The backend of a configuration: the family that it names, or that of the shell. An unknown name
is noted. A shell of the chosen family is run by its own path. -/
def create (config : Config) (environment : Environment) : StateM World Backend := do
  let shell := config.resolveShell (some environment)
  let detected := Family.ofShell (some shell)
  let requested := Text.lower ((config.completionBackend.filter (· ≠ "")).getD "auto")
  let family ←
    if requested = "auto" then pure detected
    else match Family.ofName requested with
      | .ok family => pure family
      | .error _ => do
        World.noteMismatch "completion backend" (some requested) detected.name
        pure detected
  return ofFamily family (if detected = family then shell else family.name) config environment

/-- Runs a command for a request, in its directory. -/
def ask (b : Backend) (cwd : Option String) : Query := fun args =>
  World.output args (some b.timeout) cwd

/-- The environment of a request: its own, else the backend's. -/
def environmentOf (b : Backend) (context : Context) : Environment :=
  context.environment.getD b.environment

/-! ### The shell itself -/

/-- The command that shows whether the shell can be asked. -/
def detection (b : Backend) : Option (List String) :=
  match b.family with
  | .generic => none
  | .bash => some [b.shellPath, "-c", "compgen -A command ls"]
  | .zsh => some [b.shellPath, "-f", "-c", "print ok"]

/-- Tries once whether the shell can be asked; fails if the system does not wait for it. -/
def prepare (b : Backend) : Action Backend := do
  if b.initialized then return b
  match b.detection with
  | none => return { b with initialized := true }
  | some args =>
    let answer ← b.ask none args
    return { b with initialized := true, native := some answer.isSome }

/-- The names that bash completes a word to, as one kind of thing; absent if it cannot be asked. -/
def compgen (b : Backend) (action word : String) (context : Context) :
    Action (Option (List String)) := do
  if b.native = some true then
    let answer ← b.ask (some context.cwd)
      [b.shellPath, "-c", "compgen -A \"$1\" -- \"$2\"", "bash", action, word]
    return answer.map fun text => answerLines (some text)
  else return none

/-- The commands that the shell itself knows and that begin with `stem`. -/
def nativeCommands (b : Backend) (context : Context) (stem : String) :
    Action (List Candidate) := do
  let names ← match b.family with
    | .generic => pure []
    | .bash => do
      let names ← b.compgen "command" stem context
      pure (names.getD [])
    | .zsh =>
      if b.native = some true then do
        let answer ← b.ask (some context.cwd)
          [b.shellPath, "-f", "-c", "print -rl -- $\x7b(k)commands\x7d"]
        pure (answerLines answer)
      else pure []
  return Candidate.ofNames (Text.sort (Text.distinct names)) stem "command" .command 5

/-- The candidate of a directory that bash names. -/
def nativeDirectory (quote name : String) : Candidate :=
  let path := Environment.dropSlashes name
  { text := quote ++ (if quote = "" then Line.escapeName path else path) ++ "/"
    display := Text.afterLast '/' path ++ "/"
    description := "directory"
    category := .directory
    priority := 9 }

/-- The directories that the typed word can become. -/
def directories (b : Backend) (context : Context) : Action (List Candidate) := do
  let names ← match b.family with
    | .bash => b.compgen "directory" context.typed context
    | _ => pure none
  match names with
  | none => do
    let w ← get
    ExceptT.mk (pure (listDirectory w context true))
  | some names =>
    let typed := context.typed
    let offered := (Text.sort (Text.distinct names)).filter fun name =>
      Text.startsWith name typed && (!Text.startsWith name "." || Text.startsWith typed ".")
    return offered.map (nativeDirectory context.openingQuote)

/-! ### Slots -/

/-- The variables that begin as typed; behind a brace the name is closed by one. -/
def variableCandidates (b : Backend) (context : Context) : List Candidate :=
  let typed := context.word.toList.drop 1
  let braced := typed.head? = some '\x7b'
  let stem := String.ofList (if braced then typed.drop 1 else typed)
  let sorted := (b.environmentOf context).mergeSort fun p q => Text.le p.1 q.1
  (sorted.filter fun p => Text.startsWith p.1 stem).map fun (name, value) =>
    { text := if braced then "$\x7b" ++ name ++ "\x7d" else "$" ++ name
      description := Text.take 50 value ++ if 50 < value.length then "..." else ""
      category := .variable
      priority := 3
      metadata := [("value", .str value)] }

/-- The paths that the typed word can become; only directories for a command that takes no files. -/
def paths (b : Backend) (context : Context) : Action (List Candidate) := do
  let directoriesOnly := (b.registry.find? context.commandName).any fun r => !r.includeFiles
  let w ← get
  ExceptT.mk (pure (listDirectory w context directoriesOnly))

/-- The commands that the typed word can become: builtins, programs, and what the shell itself
knows. -/
def commands (b : Backend) (context : Context) : Action (List Candidate) := do
  let stem := context.typed
  let builtins :=
    Candidate.ofNames (Text.sort (Text.distinct b.family.builtins)) stem "builtin" .command 10
  let w ← get
  let searchPath := (Environment.get? (b.environmentOf context) "PATH").getD ""
  let programs ← ExceptT.mk (pure (pathPrograms w searchPath stem))
  let known ← b.nativeCommands context stem
  return builtins ++ programs.map (fun (name, path) =>
    { text := name, description := "command", category := .command, priority := 5
      metadata := [("path", .str path)] }) ++ known

/-- The options in the command's help text that begin with `stem`. -/
def helpOptions (b : Backend) (context : Context) (stem : String) :
    Action (List Candidate) := do
  let command := Line.unquote (context.commandName.getD "")
  if command = "" then return []
  let answer ← b.ask (some context.cwd) [command, "--help"]
  return Help.candidates (answer.getD "") stem

/-- The options that the typed word can become. -/
def options (b : Backend) (context : Context) : Action (List Candidate) := do
  if context.commandName.isNone then return []
  let stem := context.typed
  let found ← b.helpOptions context stem
  return if found.isEmpty then Help.commonCandidates stem else found

/-- The candidates of a resolver. -/
def resolved (b : Backend) (kind : ResolverKind) (context : Context) : Action (List Candidate) := do
  let ask := b.ask (some context.cwd)
  let w ← get
  match kind with
  | .git => Git.candidates ask context
  | .npm => ExceptT.mk (pure (Npm.candidates w context))
  | .docker => Docker.candidates ask context
  | .processes => return processCandidates w.processes context.typed
  | .hosts =>
    let home := (Environment.filled? (b.environmentOf context) "HOME").getD
      (Environment.home w.environment w.users)
    ExceptT.mk (pure (Hosts.candidates w (Path.ofString home) context.typed))
  | .directories => b.directories context
  | .fixed candidates => return candidates
  | .failing => throw (.system "failed")

/-- The arguments that the typed word can become: those of the command's resolver, and files unless
the resolver excludes them. -/
def arguments (b : Backend) (context : Context) : Action (List Candidate) := do
  let files (_ : Unit) : Action (List Candidate) := do
    let w ← get
    ExceptT.mk (pure (listDirectory w context false))
  match b.registry.find? context.commandName with
  | none => files ()
  | some resolver =>
    let found ← ((b.resolved resolver.kind context).orElse [] : StateM World _)
    if resolver.includeFiles then return found ++ (← files ()) else return found

/-- The candidates for a slot. -/
def candidatesFor (b : Backend) (context : Context) : Slot → Action (List Candidate)
  | .variable => return b.variableCandidates context
  | .path => b.paths context
  | .option => b.options context
  | .command => b.commands context
  | .argument => b.arguments context

/-- The candidates for a request, and the backend once it is initialised. Only trying the shell can
fail: a slot that fails has no candidates. -/
def resolve (b : Backend) (context : Context) : Action (List Candidate × Backend) := do
  let b ← b.prepare
  let found ← ((b.candidatesFor context context.slot).orElse [] : StateM World _)
  return (Candidate.distinct found, b)

end Backend

end ShellAssist.Completion
