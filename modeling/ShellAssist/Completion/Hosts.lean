import ShellAssist.Candidate
import ShellAssist.Host.World
import ShellAssist.Text.Lower

namespace ShellAssist.Completion

/-!
# Known hosts

Host names from the files in which a system and its users list them. Patterns, hashed names and
marks are no host names.
-/

namespace Hosts

/-- The files that list hosts. -/
inductive Format where
  | knownHosts
  | sshConfig
  | etcHosts
  deriving DecidableEq, Repr

/-- Characters that begin what is no host name: hashed names, names in brackets, exclusions,
comments and marks. -/
def foreignMarks : List Char := ['|', '[', '!', '#', '@']

/-- Whether a field names a single host. -/
def isPlain (host : List Char) : Bool :=
  match host with
  | [] => false
  | first :: _ => !foreignMarks.contains first && !host.any fun c => c = '*' || c = '?'

/-- The hosts of a line in a list of known host keys: the first field, behind an optional mark,
holds their names with commas between. -/
def ofKnownHostsLine (line : List Char) : List (List Char) :=
  match Chars.fields line with
  | [] => []
  | first :: rest =>
    if first.head? = some '#' then []
    else
      let names := match first.head?, rest with
        | some '@', second :: _ => second
        | _, _ => first
      Chars.splitOn ',' names

/-- The hosts of a line in a client's configuration. -/
def ofSshConfigLine (line : List Char) : List (List Char) :=
  match Chars.fields line with
  | keyword :: names => if Chars.lower keyword = "host".toList then names else []
  | [] => []

/-- The hosts of a line in the system's address list; a comment is left out. -/
def ofEtcHostsLine (line : List Char) : List (List Char) :=
  (Chars.fields (line.takeWhile (· ≠ '#'))).drop 1

/-- The hosts of a line. -/
def Format.hostsOfLine : Format → List Char → List (List Char)
  | .knownHosts => ofKnownHostsLine
  | .sshConfig => ofSshConfigLine
  | .etcHosts => ofEtcHostsLine

/-- The host names of a file's text. -/
def ofText (format : Format) (text : String) : List String :=
  ((Chars.lines text.toList).flatMap format.hostsOfLine).filter isPlain |>.map String.ofList

/-- The host names of a file; one that is missing or unreadable has none. -/
def ofFile (format : Format) (w : World) (path : String) : Except Failure (List String) :=
  match w.disk.readText w.cwd path with
  | .ok text => .ok (ofText format text)
  | .error .refused => .ok []
  | .error .nul => .error .embeddedNul

/-- The hosts that begin with `stem`, of the files of a home directory and the system. -/
def candidates (w : World) (home : Path) (stem : String) : Except Failure (List Candidate) := do
  let inHome (name : String) := ((home.join ".ssh").join name).toString
  let known ← ofFile .knownHosts w (inHome "known_hosts")
  let configured ← ofFile .sshConfig w (inHome "config")
  let listed ← ofFile .etcHosts w "/etc/hosts"
  return Candidate.distinct
    (Candidate.ofNames known stem "known host" .hostname 8 ++
      Candidate.ofNames configured stem "ssh config" .hostname 9 ++
      Candidate.ofNames listed stem "/etc/hosts" .hostname 7)

end Hosts

end ShellAssist.Completion
