import ShellAssist.History.Provider

namespace ShellAssist.History

/-!
# The history archive

An archive is the histories of several providers under one mode: the program's own store alone, the
shell's own history alone, or all of them merged. New commands go to the program's own store only.
-/

open Number (Double)

/-- Which histories are used. -/
inductive Mode where
  | solo
  | shellOnly
  | unified
  deriving DecidableEq, Repr

namespace Mode

/-- The name of a mode. -/
def name : Mode → String
  | .solo => "solo"
  | .shellOnly => "shell-only"
  | .unified => "unified"

/-- All modes. -/
def all : List Mode := [.solo, .shellOnly, .unified]

/-- Older names of modes. -/
def aliases : List (String × Mode) :=
  [("aish", .solo), ("owned", .solo), ("shell", .shellOnly)]

/-- The mode of a name. -/
def ofName (name : Option String) : Except Failure Mode :=
  let folded := Text.lower (Text.strip (name.getD ""))
  match aliases.lookup folded with
  | some mode => .ok mode
  | none =>
    match all.find? fun mode => mode.name = folded with
    | some mode => .ok mode
    | none => .error (.unknownName "history mode" name (all.map Mode.name))

end Mode

/-- Histories under one mode. -/
structure Archive where
  config : Config
  mode : Mode
  /-- The shell that is worked for, if its history can be read. -/
  shell : Option Dialect
  /-- Whether the shell's own history is among the providers. -/
  hasNative : Bool
  /-- By their names, in the order they are asked. -/
  providers : List (String × Provider)
  /-- The program's own history where it is not among the providers. -/
  detached : Option Provider := none

namespace Archive

/-- The name of the program's own history. -/
def ownedName : String := Journal.sourceName

/-- The provider of a shell's own history, if it is enabled and its file can be read. -/
def nativeProvider (config : Config) (env : Environment) (shell : Option Dialect) (w : World) :
    Option (String × Provider) := do
  let dialect ← shell
  if config.providerEnabled dialect.name then
    let provider ← Provider.ofName? dialect.name config env w
    if provider.isAvailable w then some (dialect.name, provider) else none
  else none

/-- The mode of a configuration. An unknown one is noted, and the program's own history is used. -/
def modeOf (config : Config) : StateM World Mode := do
  match Mode.ofName config.historyMode with
  | .ok mode => return mode
  | .error _ =>
    World.noteMismatch "history mode" config.historyMode "solo"
    return .solo

/-- The archive over given providers, or over those that mode and shell call for. -/
def create (config : Config) (env : Environment) (given : Option (List (String × Provider))) :
    StateM World Archive := do
  let mode ← modeOf config
  let w ← get
  let shell := Dialect.ofShell? (some (config.resolveShell (some env)))
  let owned := Provider.store (Store.create config env w)
  match given with
  | some providers =>
    let hasOwned := (providers.lookup ownedName).isSome
    return { config, mode, shell, providers
             hasNative := shell.any fun d => (providers.lookup d.name).isSome
             detached := if hasOwned then none else some owned }
  | none =>
    let listed := (ownedName, owned)
    let shellsOwn := if mode = .solo then none else nativeProvider config env shell w
    let providers := match mode, shellsOwn with
      | .solo, _ => [listed]
      | .shellOnly, some provider => [provider]
      | .shellOnly, none => [listed]
      | .unified, _ =>
        (if config.providerEnabled ownedName then [listed] else []) ++ shellsOwn.toList
    let hasOwned := (providers.lookup ownedName).isSome
    return { config, mode, shell, providers, hasNative := shellsOwn.isSome
             detached := if hasOwned then none else some owned }

/-- The name under which the shell's own history is among the providers. -/
def nativeName (a : Archive) : Option String :=
  if a.hasNative then a.shell.map Dialect.name else none

/-- A provider by its name; the program's own history also where it is not listed. -/
def provider? (a : Archive) (name : String) : Option Provider :=
  match a.providers.lookup name with
  | some p => some p
  | none => if name = ownedName then a.detached else none

/-- The archive with the state of a provider replaced. -/
def setProvider (a : Archive) (name : String) (p : Provider) : Archive :=
  if (a.providers.lookup name).isSome then
    { a with providers := a.providers.map fun (n, old) => if n = name then (n, p) else (n, old) }
  else if name = ownedName then { a with detached := some p }
  else a

/-- The name of the one provider that is used where histories are not merged. -/
def activeName (a : Archive) : String :=
  match a.mode, a.nativeName with
  | .shellOnly, some name => name
  | _, _ => ownedName

/-- The provider of a name, an empty log if there is none. -/
def providerAt (a : Archive) (name : String) : Provider :=
  (a.provider? name).getD (.memory { name })

/-- Asks one provider and keeps its new state. -/
def ask {α : Type} (a : Archive) (name : String)
    (question : Provider → Except Failure α × Provider) : Except Failure α × Archive :=
  let (answer, p) := question (a.providerAt name)
  (answer, a.setProvider name p)

/-- The answers of those providers that do not fail, by their names in order, and the providers'
new states. -/
def answers {α : Type} (question : Provider → Except Failure α × Provider) :
    List (String × Provider) → List (String × α) × List (String × Provider)
  | [] => ([], [])
  | (name, p) :: rest =>
    let (answer, p) := question p
    let (found, left) := answers question rest
    match answer with
    | .ok a => ((name, a) :: found, (name, p) :: left)
    | .error _ => (found, (name, p) :: left)

/-- Asks all providers and keeps their new states. -/
def askAll {α : Type} (a : Archive) (question : Provider → Except Failure α × Provider) :
    List (String × α) × Archive :=
  let (found, providers) := answers question a.providers
  (found, { a with providers })

/-! ### Queries -/

/-- The matching entries, newest first. -/
def search (a : Archive) (w : World) (text : String) (limit : Option Int)
    (deduplicate : Option Bool) : Except Failure (List Entry) × Archive :=
  let limit := limit.getD a.config.historyMaxResults
  let deduplicate := deduplicate.getD a.config.historyDeduplicate
  let question (p : Provider) := p.search w text (some limit) (some deduplicate)
  if a.mode = .unified then
    let (found, a) := a.askAll question
    (.ok (merge (found.map (·.2)) deduplicate (some limit)), a)
  else a.ask a.activeName question

/-- The equal share of each of several in a limit: the quotient as a double, rounded up. -/
def share (limit : Int) (count : Nat) : Except Failure Int :=
  match (Double.quotient? limit count).bind Double.ceil? with
  | some n => .ok n
  | none => .error .quotientTooLarge

/-- The newest entries, newest first. Merged histories contribute equal shares. -/
def getRecent (a : Archive) (w : World) (limit : Int) : Except Failure (List Entry) × Archive :=
  if a.mode = .unified then
    if a.providers.isEmpty then (.ok [], a)
    else
      match share limit a.providers.length with
      | .error failure => (.error failure, a)
      | .ok count =>
        let (found, a) := a.askAll fun p => p.getRecent w (some count)
        (.ok (merge (found.map (·.2)) true (some limit)), a)
  else a.ask a.activeName fun p => p.getRecent w (some limit)

/-- The tallies of several histories as one. -/
def combineTallies (tallies : List Tally) : Tally :=
  tallies.flatten.foldl (fun all word => Tally.add word.1 word.2 all) []

/-- The statistics of merged histories as members of a JSON object. -/
def combined (all : List Stats) : Members :=
  [("total", .int (all.foldr (fun s n => s.total + n) 0)),
   ("unique", .int (all.foldr (fun s n => s.unique + n) 0)),
   ("top_commands", ((combineTallies (all.map (·.topCommands))).top 10).toJson "command")]

/-- The statistics of each history by its name, and of all together where they are merged. -/
def stats (a : Archive) (w : World) : List (String × Members) × Archive :=
  let (found, a) := a.askAll fun p => p.stats w
  let each := found.map fun (name, s) => (name, s.toMembers)
  (if a.mode = .unified then
      (each.filter fun p => p.1 ≠ "combined") ++ [("combined", combined (found.map (·.2)))]
    else each, a)

/-- The active history in a format. -/
def exportAs (a : Archive) (w : World) (format : String) : Except Failure String × Archive :=
  a.ask a.activeName fun p => p.exportAs w format

/-! ### Changes -/

/-- What an operation on an archive gives: its result, the archive and the world behind it. -/
abbrev Step (α : Type) := Except Failure α × Archive × World

/-- An operation on the program's own history. -/
def onOwned {α : Type} (a : Archive) (w : World) (op : Provider → World → Provider.Step α) :
    Step α :=
  let (result, p, w) := op (a.providerAt ownedName) w
  (result, a.setProvider ownedName p, w)

/-- Records a command, and says whether it was; a blank one is not. -/
def add (a : Archive) (entry : Entry) (w : World) : Step Bool :=
  if Text.isBlank entry.command then (.ok false, a, w)
  else a.onOwned w fun p w => p.add { entry with source := p.name } w

/-- Writes pending changes. -/
def flush (a : Archive) (w : World) : Step Unit :=
  a.onOwned w Provider.flush

/-- Deletes the program's own history. -/
def clear (a : Archive) (w : World) : Step Unit :=
  a.onOwned w Provider.clear

/-- Lets the timer of a save fire. -/
def fireTimer (a : Archive) (w : World) : Step Nat :=
  a.onOwned w Provider.fireTimer

/-- Ends the program. -/
def exit (a : Archive) (w : World) : Step Nat :=
  a.onOwned w Provider.exit

end Archive

end ShellAssist.History
