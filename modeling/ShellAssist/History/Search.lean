import ShellAssist.History.Merge
import ShellAssist.Text.Lower

namespace ShellAssist.History

/-!
# Searching a history

A search goes through the entries newest first and keeps those whose command contains the query,
case left aside. With deduplication only the newest entry of each command is looked at.
-/

/-- Whether a command contains the query, given in lower case. -/
def Entry.containsFolded (needle : List Char) (e : Entry) : Bool :=
  Chars.contains needle (Chars.lower e.command.toList)

/-- The matching entries of those to come; `seen` holds the commands looked at and `found` counts
the entries kept. A limit of zero is none. -/
def searchFrom (needle : List Char) (deduplicate : Bool) (limit : Int) (seen : List String)
    (found : Nat) : List Entry → List Entry
  | [] => []
  | e :: rest =>
    if deduplicate && seen.contains e.command then
      searchFrom needle deduplicate limit seen found rest
    else
      let seen := if deduplicate then e.command :: seen else seen
      if e.containsFolded needle then
        if limit ≠ 0 && limit ≤ found + 1 then [e]
        else e :: searchFrom needle deduplicate limit seen (found + 1) rest
      else searchFrom needle deduplicate limit seen found rest

/-- The matching entries of a log held oldest first, newest first. -/
def search (entries : List Entry) (query : String) (limit : Int) (deduplicate : Bool) :
    List Entry :=
  searchFrom (Chars.lower query.toList) deduplicate limit [] 0 entries.reverse

/-- How a provider answers queries that leave it open. -/
structure SearchDefaults where
  maxResults : Int := 50
  deduplicate : Bool := true
  deriving DecidableEq, Repr

end ShellAssist.History
