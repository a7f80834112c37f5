import ShellAssist.History.Dialect.Journal
import ShellAssist.History.Stats
import ShellAssist.History.ShellLog

namespace ShellAssist.History

/-!
# The program's own history

A store holds the entries of the program's own history file and is its only writer. The file is read
once. A change is written at once or, with a debounce time, when a timer fires, when the store is
flushed, or when the program ends.

A save writes a new file beside the old one and moves it into place, so that the old file stays
whole until the new one is. A save that fails leaves the store marked as changed; entries that
cannot be written as records make it fail before the file is touched.

Operations give their result, the store and the world behind them; what they did before a failure
stays done.
-/

/-- Whether the store is to be flushed when the program ends. -/
inductive ExitHook where
  /-- It never was to be. -/
  | unset
  | waiting
  /-- It has been. -/
  | spent
  deriving DecidableEq, Repr

/-- The program's own history. -/
structure Store where
  path : Path
  defaults : SearchDefaults := {}
  /-- The most entries kept; zero for no limit. -/
  maxEntries : Int := 10000
  saveCorrections : Bool := true
  /-- Seconds a save waits for more changes. -/
  saveDebounce : Number.Double := 1
  /-- How deep the arrays and objects of a record may be nested. -/
  nesting : Nat := 985
  /-- Oldest first. -/
  entries : List Entry := []
  loaded : Bool := false
  /-- Whether there are changes that the file does not hold. -/
  dirty : Bool := false
  /-- Whether the timer of a save is running. -/
  timerSet : Bool := false
  exitHook : ExitHook := .unset

/-- What an operation on a store gives: its result, the store and the world behind it. -/
abbrev StoreStep (α : Type) := Except Failure α × Store × World

namespace Store

/-- The store of a configuration, with nothing read yet. -/
def create (config : Config) (env : Environment) (w : World) : Store where
  path := expandTilde env w config.historyFile
  defaults := { maxResults := config.historyMaxResults, deduplicate := config.historyDeduplicate }
  maxEntries := config.historyMaxEntries
  saveCorrections := config.saveCorrections
  saveDebounce := config.saveDebounce
  nesting := w.nesting

/-- The newest entries, as many as are kept. -/
def trim (s : Store) (entries : List Entry) : List Entry :=
  if s.maxEntries ≠ 0 && s.maxEntries < entries.length then Slice.after entries (-s.maxEntries)
  else entries

/-- The newest entries that a file's text writes, oldest first. -/
def parse (s : Store) (content : String) : Except Failure (List Entry) :=
  (Journal.parse s.nesting content).map s.trim

/-- Reads the file. One that is missing or unreadable has no entries. -/
def load (s : Store) (w : World) : Except Failure Unit × Store :=
  let parsed := match w.disk.readText w.cwd s.path.toString with
    | .ok content => s.parse content
    | .error .refused => .ok []
    | .error .nul => .error .embeddedNul
  match parsed with
  | .error failure => (.error failure, s)
  | .ok entries => (.ok (), { s with entries, loaded := true })

/-- Reads the file unless that has been done. -/
def refresh (s : Store) (w : World) : Except Failure Unit × Store :=
  if s.loaded then (.ok (), s) else s.load w

/-! ### Saving -/

/-- Replaces a file by a new one with this content, and says whether that worked. The new file is
made beside the old one, under the same name with `.tmp` behind it. -/
def replaceFile (path : Path) (content : List UInt8) (w : World) : Except Failure Bool × World :=
  let (fault, w) := w.takeSaveFault
  let refusal : AccessError → Except Failure Bool
    | .nul => .error .embeddedNul
    | .refused => .ok false
  let made := if fault = some .directories then .error .refused
    else w.disk.makeDirectories w.cwd path.parent.toString
  match made with
  | .error e => (refusal e, w)
  | .ok disk =>
    let w := { w with disk }
    match path.withName? (path.name ++ ".tmp") with
    | none => (.error (.unnamedPath path.toString), w)
    | some beside =>
      let kept := match fault with
        | some (.writing n) => content.take n
        | _ => content
      let written := if fault = some .opening then .error .refused
        else disk.writeFile w.cwd beside.toString kept
      match written with
      | .error e => (refusal e, w)
      | .ok disk =>
        let w := { w with disk }
        match fault with
        | some _ => (.ok false, w)
        | none =>
          match disk.rename w.cwd beside.toString path.toString with
          | .error e => (refusal e, w)
          | .ok disk => (.ok true, { w with disk })

/-- Writes the file; says whether that worked. -/
def save (s : Store) (w : World) : StoreStep Bool :=
  let s := { s with entries := s.trim s.entries }
  match Journal.render s.nesting s.entries with
  | .error failure => (.error failure, s, w)
  | .ok text =>
    match replaceFile s.path (Text.encode text.toList) w with
    | (.ok true, w) => (.ok true, { s with dirty := false }, w)
    | (.ok false, w) =>
      (.ok false, s, w.noted .error "HISTORY" ("Could not save history to " ++ s.path.toString))
    | (.error failure, w) => (.error failure, s, w)

/-- Writes pending changes. -/
def flush (s : Store) (w : World) : StoreStep Unit :=
  let s := { s with timerSet := false }
  if s.dirty then
    let (saved, s, w) := s.save w
    (saved.map fun _ => (), s, w)
  else (.ok (), s, w)

/-- Writes changes at once, or sets the timer that will. The first timer also has the store flushed
when the program ends. -/
def schedule (s : Store) (w : World) : StoreStep Unit :=
  if s.saveDebounce ≤ 0 then
    let (saved, s, w) := s.save w
    (saved.map fun _ => (), s, w)
  else
    let exitHook := if s.exitHook = .unset then .waiting else s.exitHook
    (.ok (), { s with timerSet := true, exitHook }, w)

/-- The timer fires, if one is running; says how many did. -/
def fireTimer (s : Store) (w : World) : StoreStep Nat :=
  if s.timerSet then
    let (flushed, s, w) := s.flush w
    (flushed.map fun _ => 1, s, w)
  else (.ok 0, s, w)

/-- The program ends; says how many stores are flushed for that. -/
def exit (s : Store) (w : World) : StoreStep Nat :=
  if s.exitHook = .waiting then
    let (flushed, s, w) := { s with exitHook := .spent }.flush w
    (flushed.map fun _ => 1, s, w)
  else (.ok 0, s, w)

/-! ### Changes -/

/-- Adds an entry and says whether it was. A repeat of the newest command is not, nor is a
correction that is not to be saved. -/
def add (s : Store) (entry : Entry) (w : World) : StoreStep Bool :=
  match s.refresh w with
  | (.error failure, s) => (.error failure, s, w)
  | (.ok (), s) =>
    let isRepeat := s.entries.getLast?.any fun last => last.command = entry.command
    let isCorrection := (Members.get? entry.metadata "is_correction").any Value.isTruthy
    if isRepeat || (!s.saveCorrections && isCorrection) then (.ok false, s, w)
    else
      match entry.timestamp.elim w.millis .ok with
      | .error failure => (.error failure, s, w)
      | .ok timestamp =>
        let stored := { entry with timestamp := some timestamp, source := Journal.sourceName }
        let s := { s with entries := s.trim (s.entries ++ [stored]), dirty := true }
        let (scheduled, s, w) := s.schedule w
        (scheduled.map fun _ => true, s, w)

/-- Deletes all entries, in memory and in the file. -/
def clear (s : Store) (w : World) : StoreStep Unit :=
  let (saved, s, w) := { s with entries := [], timerSet := false, loaded := true }.save w
  (saved.map fun _ => (), s, w)

/-- An entry as it is imported, marked with its origin. -/
def imported (millis : Int) (e : Entry) : Entry :=
  { e with
    source := Journal.sourceName
    metadata := e.metadata
      |> Members.set "imported" (.bool true)
      |> Members.set "imported_from" (.str e.source)
      |> Members.set "imported_at" (.int millis) }

/-- The entries to import from a list held newest first: all of them, or the first of each command
that is not in `existing`. -/
def selection (deduplicate : Bool) (existing : List String) (offered : List Entry) : List Entry :=
  if deduplicate then dedupeFrom existing offered else offered

/-- Adds entries of another history, given newest first, and says how many. -/
def importEntries (s : Store) (offered : List Entry) (deduplicate : Bool) (millis : Int)
    (w : World) : StoreStep Nat :=
  let chosen := selection deduplicate (s.entries.map (·.command)) offered
  if chosen.isEmpty then (.ok 0, s, w)
  else
    let added := (chosen.map (imported millis)).reverse
    let (flushed, s, w) := { s with entries := s.entries ++ added, dirty := true }.flush w
    (flushed.map fun _ => chosen.length, s, w)

/-! ### Export -/

/-- Milliseconds as whole seconds in digits, which may not be too many. -/
def zshSeconds (millis : Int) : Except Failure String :=
  let seconds := millis / 1000
  if Number.Decimal.isWritable seconds then .ok (String.ofList (Number.Decimal.ofInt seconds))
  else .error .wholeTooLong

/-- An entry as a line of a zsh history file. -/
def zshLine (e : Entry) : Except Failure String :=
  match e.timestamp with
  | none => .ok e.command
  | some t => do
    let seconds ← zshSeconds t
    let duration ← zshSeconds (e.duration.getD 0)
    return ": " ++ seconds ++ ":" ++ duration ++ ";" ++ e.command

/-- The lines of an export in a shell's format. -/
def joinLines (lines : List String) : String :=
  String.intercalate "\n" lines

end Store

/-- Entries as an indented JSON array of records. -/
def exportJson (nesting : Nat) (entries : List Entry) : Except Failure String :=
  (Value.list (entries.map Entry.toRecord)).encode nesting .indented

/-- Entries in a format that every history is exported to. -/
def exportCommon (nesting : Nat) (entries : List Entry) (format : String) : Except Failure String :=
  if format = "json" then exportJson nesting entries
  else if format = "plain" then .ok (Store.joinLines (entries.map (·.command)))
  else .error (.unsupportedFormat format)

/-- Entries in a format that the program's own history is exported to. -/
def exportOwned (nesting : Nat) (entries : List Entry) (format : String) : Except Failure String :=
  if format = "bash" then .ok (Store.joinLines (entries.map (·.command)))
  else if format = "zsh" then Store.joinLines <$> entries.mapM Store.zshLine
  else exportCommon nesting entries format

end ShellAssist.History
