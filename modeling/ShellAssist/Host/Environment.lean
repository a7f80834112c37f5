import ShellAssist.Text.Basic

namespace ShellAssist

/-!
# Environments

A snapshot of environment variables, and the home directories that a tilde stands for: that of the
process, and those that the system lists for users.
-/

/-- The system's list of users: the home directory of the user whose process it is, and those of users
by name. -/
structure Users where
  own : String
  named : List (String × String)
  own_plain : '\x00' ∉ own.toList
  named_plain : ∀ user ∈ named, '\x00' ∉ user.2.toList

/-- The process is the superuser's, and no other user is listed. -/
def Users.superuser : Users where
  own := "/root"
  named := []
  own_plain := by decide
  named_plain _ h := absurd h List.not_mem_nil

/-- Environment variables with their values, each name once. -/
abbrev Environment := List (String × String)

namespace Environment

/-- The value of a variable. -/
def get? (env : Environment) (name : String) : Option String :=
  env.lookup name

/-- The value of a variable that is set and not empty. -/
def filled? (env : Environment) (name : String) : Option String :=
  (get? env name).filter (· ≠ "")

/-- The text with the slashes at its end left out. -/
def dropSlashes (text : String) : String :=
  String.ofList (Chars.dropEndWhile (· = '/') text.toList)

/-- The home directory of a process as its environment or, without one, the list of users names it. -/
def homeText (env : Environment) (users : Users) : String :=
  (get? env "HOME").getD users.own

/-- The home directory of a process without slashes at its end, the root if nothing is left of it. -/
def home (env : Environment) (users : Users) : String :=
  let directory := dropSlashes (homeText env users)
  if directory = "" then "/" else directory

/-- The home directory that a tilde with this name behind it stands for; without a name, that of the
process. -/
def homeOfName? (env : Environment) (users : Users) (name : String) : Option String :=
  if name = "" then some (homeText env users) else users.named.lookup name

/-- A path text with a tilde in front, and the name of a user that may stand behind it, replaced by the
home directory. It stays if the system does not know the user. -/
def expandHome (env : Environment) (users : Users) (text : String) : String :=
  match text.toList with
  | '~' :: rest =>
    match homeOfName? env users (String.ofList (rest.takeWhile (· ≠ '/'))) with
    | none => text
    | some directory =>
      let expanded := dropSlashes directory ++ String.ofList (rest.dropWhile (· ≠ '/'))
      if expanded = "" then "/" else expanded
  | _ => text

end Environment

end ShellAssist
