import ShellAssist.Host.Path
import ShellAssist.Text.Blank
import ShellAssist.Text.Lower

namespace ShellAssist.Shell

/-!
# Shells by their paths

Shells are recognised by the last component of their path, in lower case; a login shell's name has a
dash in front.
-/

/-- The last component of a shell's path, in lower case and without dashes in front. -/
def programName (shell : String) : String :=
  Text.lower (String.ofList ((Path.baseName (Text.strip shell)).toList.dropWhile (· = '-')))

end ShellAssist.Shell
