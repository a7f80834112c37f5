import ShellAssist.History.Store

namespace ShellAssist.History

/-!
# Providers

A provider is a source of history entries: a shell's own log, the program's own store, or a log that
an embedding program holds in memory. All are refreshed before a query and then answer from the
entries they hold.
-/

/-- A log held in memory. -/
structure MemoryLog where
  name : String
  /-- Oldest first. -/
  entries : List Entry := []
  /-- Why the log cannot be refreshed, if it cannot. -/
  trouble : Option String := none

/-- A source of history entries. -/
inductive Provider where
  | shellLog (log : ShellLog)
  | store (s : Store)
  | memory (log : MemoryLog)

namespace Provider

/-- A provider's name. -/
def name : Provider → String
  | .shellLog log => log.dialect.name
  | .store _ => Journal.sourceName
  | .memory log => log.name

/-- Whether nothing can be added. -/
def readOnly : Provider → Bool
  | .store _ => false
  | _ => true

/-- Whether the entries of a file have been read. -/
def loaded : Provider → Bool
  | .shellLog log => log.loaded
  | .store s => s.loaded
  | .memory _ => false

/-- The shell log or store of a name. -/
def ofName? (name : String) (config : Config) (env : Environment) (w : World) : Option Provider :=
  if name = Journal.sourceName then some (.store (Store.create config env w))
  else (Dialect.ofName? name).map fun dialect =>
    .shellLog { dialect, environment := env,
                defaults := { maxResults := config.historyMaxResults,
                              deduplicate := config.historyDeduplicate } }

/-- All entries, oldest first. -/
def entries : Provider → List Entry
  | .shellLog log => log.entries
  | .store s => s.entries
  | .memory log => log.entries

/-- The entries that are listed, oldest first: for zsh the newest of each command. -/
def view : Provider → List Entry
  | .shellLog log => if log.dialect = .zsh then log.unique else log.entries
  | p => p.entries

/-- How queries are answered that leave it open. -/
def defaults : Provider → SearchDefaults
  | .shellLog log => log.defaults
  | .store s => s.defaults
  | .memory _ => {}

/-- Brings the entries up to date. -/
def refresh (p : Provider) (w : World) : Except Failure Unit × Provider :=
  match p with
  | .shellLog log => let (r, log) := log.refresh w; (r, .shellLog log)
  | .store s => let (r, s) := s.refresh w; (r, .store s)
  | .memory log => (log.trouble.elim (.ok ()) fun reason => .error (.system reason), p)

/-- Reads the file. -/
def load (p : Provider) (w : World) : Except Failure Unit × Provider :=
  match p with
  | .shellLog log => let (r, log) := log.load w; (r, .shellLog log)
  | .store s => let (r, s) := s.load w; (r, .store s)
  | .memory _ => (.ok (), p)

/-- The answer to a question, once the entries are up to date. -/
def query {α : Type} (p : Provider) (w : World) (answer : Provider → Except Failure α) :
    Except Failure α × Provider :=
  match p.refresh w with
  | (.error failure, p) => (.error failure, p)
  | (.ok (), p) => (answer p, p)

/-- The matching entries, newest first. -/
def search (p : Provider) (w : World) (text : String) (limit : Option Int)
    (deduplicate : Option Bool) : Except Failure (List Entry) × Provider :=
  p.query w fun p =>
    .ok (History.search p.entries text (limit.getD p.defaults.maxResults)
      (deduplicate.getD p.defaults.deduplicate))

/-- All listed entries, newest first. -/
def getAll (p : Provider) (w : World) : Except Failure (List Entry) × Provider :=
  p.query w fun p => .ok p.view.reverse

/-- All entries with repeats, newest first. -/
def getAllRaw (p : Provider) (w : World) : Except Failure (List Entry) × Provider :=
  p.query w fun p => .ok p.entries.reverse

/-- The newest of entries held newest first: all before a position, or all if none is given. -/
def newest (limit : Option Int) (entries : List Entry) : List Entry :=
  limit.elim entries (Slice.before entries)

/-- The newest listed entries, newest first. -/
def getRecent (p : Provider) (w : World) (limit : Option Int) :
    Except Failure (List Entry) × Provider :=
  p.query w fun p => .ok (newest limit p.view.reverse)

/-- The statistics of the entries held. -/
def heldStats : Provider → Except Failure Stats
  | .shellLog log =>
    if log.dialect = .zsh then Stats.ofEntries log.unique (some log.entries.length) false
    else Stats.ofEntries log.entries none false
  | .store s => Stats.ofEntries s.entries none true
  | .memory log => Stats.ofEntries log.entries none false

/-- The statistics. -/
def stats (p : Provider) (w : World) : Except Failure Stats × Provider :=
  p.query w heldStats

/-- All entries in a format, oldest first. -/
def exportAs (p : Provider) (w : World) (format : String) : Except Failure String × Provider :=
  p.query w fun p =>
    match p with
    | .store s => exportOwned w.nesting s.entries format
    | p => exportCommon w.nesting p.entries format

/-- The path of the history file. -/
def path (p : Provider) (w : World) : Path :=
  match p with
  | .shellLog log => log.path w
  | .store s => s.path
  | .memory _ => Path.ofString ""

/-- Whether the history file is there and can be read; one that may not be looked for is not. -/
def isAvailable (p : Provider) (w : World) : Bool :=
  let path := (p.path w).toString
  w.disk.isFile w.cwd path && w.disk.isReadable w.cwd path

/-! ### Changes -/

/-- What an operation on a provider gives: its result, the provider and the world behind it. -/
abbrev Step (α : Type) := Except Failure α × Provider × World

/-- An operation on the store, or a substitute for a provider that is none. -/
def onStore {α : Type} (p : Provider) (w : World) (substitute : α) (op : Store → StoreStep α) :
    Step α :=
  match p with
  | .store s => let (r, s, w) := op s; (r, .store s, w)
  | p => (.ok substitute, p, w)

/-- Adds an entry to a store; to nothing else. -/
def add (p : Provider) (entry : Entry) (w : World) : Step Bool :=
  p.onStore w false fun s => s.add entry w

/-- Forgets the entries; a store's are deleted from its file as well. -/
def clear (p : Provider) (w : World) : Step Unit :=
  match p with
  | .shellLog log => (.ok (), .shellLog log.clear, w)
  | .memory log => (.ok (), .memory { log with entries := [] }, w)
  | .store s => let (r, s, w) := s.clear w; (r, .store s, w)

/-- Writes a store's pending changes. -/
def flush (p : Provider) (w : World) : Step Unit :=
  p.onStore w () fun s => s.flush w

/-- Writes a store's file. -/
def save (p : Provider) (w : World) : Step Bool :=
  p.onStore w false fun s => s.save w

/-- Lets a store's timer fire. -/
def fireTimer (p : Provider) (w : World) : Step Nat :=
  p.onStore w 0 fun s => s.fireTimer w

/-- Ends the program for a store. -/
def exit (p : Provider) (w : World) : Step Nat :=
  p.onStore w 0 fun s => s.exit w

/-- Copies entries of another provider into a store and says how many. At most `maxImport` of the
newest are looked at, or all if it is not given. -/
def importFrom (p source : Provider) (deduplicate : Bool) (maxImport : Option Int) (w : World) :
    Step Nat :=
  p.onStore w 0 fun s =>
    match s.refresh w with
    | (.error failure, s) => (.error failure, s, w)
    | (.ok (), s) =>
      match w.millis with
      | .error failure => (.error failure, s, w)
      | .ok millis =>
        match (source.getAll w).1 with
        | .error failure => (.error failure, s, w)
        | .ok offered => s.importEntries (newest maxImport offered) deduplicate millis w

end Provider

end ShellAssist.History
