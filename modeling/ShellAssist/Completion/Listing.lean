import ShellAssist.Candidate
import ShellAssist.Host.World
import ShellAssist.Line.Context

namespace ShellAssist.Completion

/-!
# Names from the file system

* `listDirectory` — entries of the directory that the typed word names;
* `pathPrograms` — programs in the search path.
-/

open Line (Context)

/-- A typed path, cut behind its last slash; a lone tilde counts as the home directory's path. -/
structure TypedPath where
  directory : String
  base : String
  deriving DecidableEq, Repr

/-- The parts of a typed word. -/
def TypedPath.ofWord (word : String) : TypedPath :=
  let word := if word = "~" then "~/" else word
  { directory := Text.throughLast '/' word, base := Text.afterLast '/' word }

/-- The path of the directory to list. -/
def TypedPath.searched (p : TypedPath) (processEnvironment : Environment) (users : Users)
    (cwd : String) : String :=
  let directory :=
    if p.directory = "" then "." else Environment.expandHome processEnvironment users p.directory
  Path.joinRaw cwd directory

/-- Whether an entry is offered: its name begins as typed, and it is hidden only if a dot was typed
for it. -/
def TypedPath.offers (p : TypedPath) (name : String) : Bool :=
  Text.startsWith name p.base && (!Text.startsWith name "." || Text.startsWith p.base ".")

/-- Whether a node is a directory. -/
def isDirectoryNode : Node → Bool
  | .directory _ | .closed => true
  | _ => false

/-- The entries of a readable directory in name order; one that cannot be listed has none. -/
def sortedEntries (w : World) (cwd path : String) : Except Failure (List (String × Node)) :=
  match w.disk.entries cwd path with
  | .ok entries => .ok (entries.mergeSort fun a b => Text.le a.1 b.1)
  | .error .refused => .ok []
  | .error .nul => .error .embeddedNul

/-- The candidate of a directory entry. Behind an opening quote the name is inserted as it is, else
with its special characters escaped. -/
def entryCandidate (quote : String) (typed : TypedPath) (searched : String) (name : String)
    (isDirectory : Bool) : Candidate :=
  let inserted (text : String) := if quote = "" then Line.escapeName text else text
  let mark := if isDirectory then "/" else ""
  { text := quote ++ inserted typed.directory ++ inserted name ++ mark
    display := name ++ mark
    description := if isDirectory then "directory" else "file"
    category := if isDirectory then .directory else .file
    priority := if isDirectory then 9 else 3
    metadata := [("path", .str (Path.entryOf searched name)), ("is_directory", .bool isDirectory)] }

/-- The entries of the directory that the word under the cursor names. -/
def listDirectory (w : World) (context : Context) (directoriesOnly : Bool) :
    Except Failure (List Candidate) := do
  let typed := TypedPath.ofWord context.typed
  let searched := typed.searched w.environment w.users context.cwd
  let entries ← sortedEntries w w.cwd searched
  return entries.filterMap fun (name, node) =>
    let isDirectory := isDirectoryNode node
    if typed.offers name && (isDirectory || !directoriesOnly) then
      some (entryCandidate context.openingQuote typed searched name isDirectory)
    else none

/-! ### Programs -/

/-- Whether a node is a file that may be executed. -/
def isProgramNode : Node → Bool
  | .file _ executable _ => executable
  | _ => false

/-- The programs in one directory of the search path, as names with paths. -/
def directoryPrograms (w : World) (directory : String) : Except Failure (List (String × String)) :=
  match w.disk.entries w.cwd directory with
  | .ok entries => .ok ((entries.filter fun e => isProgramNode e.2).map fun e =>
      (e.1, Path.entryOf directory e.1))
  | .error .refused => .ok []
  | .error .nul => .error .embeddedNul

/-- The first pair of each name, in order; names in `seen` are left out. -/
def firstOfEachName (seen : List String) : List (String × String) → List (String × String)
  | [] => []
  | (name, path) :: rest =>
    if seen.contains name then firstOfEachName seen rest
    else (name, path) :: firstOfEachName (name :: seen) rest

/-- The programs in a search path whose names begin with `stem`, in name order, each with the path
in the first directory that holds it. -/
def pathPrograms (w : World) (searchPath stem : String) :
    Except Failure (List (String × String)) := do
  let directories := (Text.splitOn ':' searchPath).filter (· ≠ "")
  let found ← directories.mapM (directoryPrograms w)
  let named := found.flatten.filter fun p => Text.startsWith p.1 stem
  return (firstOfEachName [] named).mergeSort fun a b => Text.le a.1 b.1

end ShellAssist.Completion
