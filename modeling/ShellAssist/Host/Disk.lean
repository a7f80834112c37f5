import ShellAssist.Host.Path
import ShellAssist.Text.Utf8
import ShellAssist.Text.Lines
import ShellAssist.Failure

namespace ShellAssist

/-!
# Disks

A disk is a tree of files and directories, kept as a list of nodes by their place: the components
from the root down. The root is always a directory. Every write of a file stamps it anew, so that
two versions of a file are told apart by their stamps. No file stands at two places, and the only links
are those that lead back to themselves.

* `Disk.locate` — walks a path text;
* `Disk.read`, `Disk.entries` — contents of files and directories;
* `Disk.makeDirectories`, `Disk.writeFile`, `Disk.rename` — the three changes of a saving program.
-/

/-- The components of a node's path, from the root down. -/
abbrev Place := List String

/-- What stands at a place. -/
inductive Node where
  | file (content : List UInt8) (executable unreadable : Bool)
  | directory (unreadable : Bool)
  /-- A link that leads back to itself: nothing can be learned from it. -/
  | loop
  /-- A directory that may neither be read nor be entered. -/
  | closed
  deriving DecidableEq, Repr

/-- A node and the stamp of its last change. -/
structure Stamped where
  node : Node
  stamp : Nat
  deriving DecidableEq, Repr

/-- A tree of files. -/
structure Disk where
  nodes : List (Place × Stamped) := []
  nextStamp : Nat := 1
  deriving DecidableEq, Repr

/-- Why the system refuses an access to a path. -/
inductive AccessError where
  /-- The path text holds a NUL character. -/
  | nul
  /-- Nothing is there, or not a thing of the wanted kind, or it may not be read. -/
  | refused
  deriving DecidableEq, Repr

namespace Disk

/-- The place of an absolute path without dots that lead up. -/
def placeOf (path : String) : Place :=
  (Text.splitOn '/' path).filter fun c => c ≠ "" && c ≠ "."

/-- The node at a place. -/
def get? (d : Disk) (place : Place) : Option Stamped :=
  match place with
  | [] => some ⟨.directory false, 0⟩
  | _ => d.nodes.lookup place

/-- Whether a directory is at a place. -/
def isDirectoryAt (d : Disk) (place : Place) : Bool :=
  match d.get? place with
  | some ⟨.directory _, _⟩ => true
  | _ => false

/-- Walks components from a place. Every component is looked up in a directory, also the empty one
and the two dots; the place reached need not exist. -/
def walk (d : Disk) (place : Place) : List String → Option Place
  | [] => some place
  | c :: rest =>
    if !d.isDirectoryAt place then none
    else if c = "" || c = "." then d.walk place rest
    else if c = ".." then d.walk place.dropLast rest
    else d.walk (place ++ [c]) rest

/-- The place that a path text names, seen from a working directory. -/
def locate (d : Disk) (cwd path : String) : Except AccessError Place :=
  if path.toList.contains '\x00' then .error .nul
  else if path = "" then .error .refused
  else
    let start := if Path.isAbsolute path then "" else cwd ++ "/"
    match d.walk [] (Text.splitOn '/' (start ++ path)) with
    | some place => .ok place
    | none => .error .refused

/-- The node that a path text names. -/
def find (d : Disk) (cwd path : String) : Except AccessError Stamped := do
  let place ← d.locate cwd path
  match d.get? place with
  | some found => if found.node = .loop then .error .refused else .ok found
  | none => .error .refused

/-- The bytes of a readable file. -/
def read (d : Disk) (cwd path : String) : Except AccessError (List UInt8) := do
  match (← d.find cwd path).node with
  | .file content _ false => .ok content
  | _ => .error .refused

/-- The text of a readable file: gaps shown as U+FFFD, line ends unified. -/
def readText (d : Disk) (cwd path : String) : Except AccessError String :=
  (d.read cwd path).map fun bytes => String.ofList (Chars.unifyNewlines (Text.decodeLossy bytes))

/-- The stamp of the last change; nothing if the path names nothing. -/
def stamp? (d : Disk) (cwd path : String) : Except AccessError (Option Nat) :=
  match d.find cwd path with
  | .ok found => .ok (some found.stamp)
  | .error .refused => .ok none
  | .error .nul => .error .nul

/-- The most bytes of a name. -/
def longestName : Nat := 255

/-- The most bytes of a path. -/
def longestPath : Nat := 4095

/-- Whether a walk of components from a place is denied: before anything on the way is found missing
it comes to a directory that may not be entered or to a name that is too long. -/
def deniesWalk (d : Disk) (place : Place) : List String → Bool
  | [] => false
  | c :: rest =>
    if (d.get? place).any fun found => found.node = .closed then true
    else if !d.isDirectoryAt place then false
    else if c = "" || c = "." then d.deniesWalk place rest
    else if c = ".." then d.deniesWalk place.dropLast rest
    else if longestName < c.utf8ByteSize then true
    else d.deniesWalk (place ++ [c]) rest

/-- Whether the system denies to look a path up, rather than finding nothing there. -/
def denies (d : Disk) (cwd path : String) : Bool :=
  if path.toList.contains '\x00' then false
  else if longestPath < path.utf8ByteSize then true
  else
    let start := if Path.isAbsolute path then "" else cwd ++ "/"
    d.deniesWalk [] (Text.splitOn '/' (start ++ path))

/-- Whether the path names a file. -/
def isFile (d : Disk) (cwd path : String) : Bool :=
  match d.find cwd path with
  | .ok ⟨.file .., _⟩ => true
  | _ => false

/-- Whether the path names a directory. -/
def isDirectory (d : Disk) (cwd path : String) : Bool :=
  match d.find cwd path with
  | .ok ⟨.directory _, _⟩ | .ok ⟨.closed, _⟩ => true
  | _ => false

/-- Whether the path names something that may be executed; directories count. -/
def isExecutable (d : Disk) (cwd path : String) : Bool :=
  match d.find cwd path with
  | .ok ⟨.file _ executable _, _⟩ => executable
  | .ok ⟨.directory _, _⟩ => true
  | _ => false

/-- Whether the path names something that may be read; directories count. -/
def isReadable (d : Disk) (cwd path : String) : Bool :=
  match d.find cwd path with
  | .ok ⟨.file _ _ unreadable, _⟩ => !unreadable
  | .ok ⟨.directory _, _⟩ => true
  | _ => false

/-- The names and nodes right below a place. -/
def children (d : Disk) (place : Place) : List (String × Node) :=
  d.nodes.filterMap fun (p, s) =>
    match p.getLast? with
    | some name => if p.dropLast = place then some (name, s.node) else none
    | none => none

/-- The entries of a readable directory. -/
def entries (d : Disk) (cwd path : String) : Except AccessError (List (String × Node)) := do
  let place ← d.locate cwd path
  match d.get? place with
  | some ⟨.directory false, _⟩ => .ok (d.children place)
  | _ => .error .refused

/-! ### Changes -/

/-- The nodes with one of them set, in place if it is there already. -/
def setNode (place : Place) (node : Stamped) : List (Place × Stamped) → List (Place × Stamped)
  | [] => [(place, node)]
  | (p, n) :: rest => if p = place then (p, node) :: rest else (p, n) :: setNode place node rest

/-- The disk with a node put at a place. -/
def put (d : Disk) (place : Place) (node : Stamped) : Disk :=
  { d with nodes := setNode place node d.nodes }

/-- The disk with a new version of a node. -/
def putNew (d : Disk) (place : Place) (node : Node) : Disk :=
  { nodes := setNode place ⟨node, d.nextStamp⟩ d.nodes, nextStamp := d.nextStamp + 1 }

/-- The disk with missing directories made from the root down to a place, if nothing else stands in
the way. -/
def makeDirectoriesFrom (d : Disk) (above : Place) : List String → Option Disk
  | [] => some d
  | c :: rest =>
    let place := above ++ [c]
    match d.get? place with
    | none => (d.putNew place (.directory false)).makeDirectoriesFrom place rest
    | some ⟨.directory _, _⟩ => d.makeDirectoriesFrom place rest
    | some _ => none

/-- The disk with a node and the directories above it, as a description of a tree lists them. -/
def install (d : Disk) (place : Place) (node : Node) : Disk :=
  let above := (d.makeDirectoriesFrom [] place.dropLast).getD d
  above.putNew place node

/-- The disk without what stands at a place and below. -/
def remove (d : Disk) (place : Place) : Disk :=
  { d with nodes := d.nodes.filter fun (p, _) => !place.isPrefixOf p }

/-- Makes a directory and those above it that are missing; the working directory has to be there.
Two dots lead up only from a directory that was there before. -/
def makeDirectories (d : Disk) (cwd path : String) : Except AccessError Disk :=
  if path.toList.contains '\x00' then .error .nul
  else
    let start := if Path.isAbsolute path then some [] else d.walk [] (Text.splitOn '/' cwd)
    match start with
    | none => .error .refused
    | some place => go d place (Text.splitOn '/' path)
where
  /-- Walks the components, making each one that is missing. -/
  go (d : Disk) (place : Place) : List String → Except AccessError Disk
    | [] => if d.isDirectoryAt place then .ok d else .error .refused
    | c :: rest =>
      if !d.isDirectoryAt place then .error .refused
      else if c = "" || c = "." then go d place rest
      else if c = ".." then go d place.dropLast rest
      else
        let next := place ++ [c]
        match d.get? next with
        | none =>
          if rest.contains ".." then .error .refused
          else go (d.putNew next (.directory false)) next rest
        | some _ => go d next rest

/-- Writes a file in an existing directory, replacing one that may be written. -/
def writeFile (d : Disk) (cwd path : String) (content : List UInt8) : Except AccessError Disk := do
  let place ← d.locate cwd path
  match d.get? place with
  | none => .ok (d.putNew place (.file content false false))
  | some ⟨.file _ executable false, _⟩ => .ok (d.putNew place (.file content executable false))
  | some _ => .error .refused

/-- Moves a file onto another path, where a directory may not stand. -/
def rename (d : Disk) (cwd source target : String) : Except AccessError Disk := do
  let old ← d.locate cwd source
  let new ← d.locate cwd target
  match d.get? old with
  | none => .error .refused
  | some found =>
    if d.isDirectoryAt new || (d.get? new).any fun there => there.node = .closed then .error .refused
    else .ok ((d.remove old).put new found)

end Disk

end ShellAssist
