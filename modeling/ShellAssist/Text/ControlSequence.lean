namespace ShellAssist

/-!
# Control sequences

A terminal takes an escape character with an opening bracket, parameters, further marks and a final
character for a command. Text that is written to a file or another program goes without them.
-/

namespace Chars

/-- Whether a character may be a parameter of a control sequence. -/
def isParameter (c : Char) : Bool :=
  '0' ≤ c && c ≤ '?'

/-- Whether a character may stand between the parameters of a control sequence and its end. -/
def isIntermediate (c : Char) : Bool :=
  ' ' ≤ c && c ≤ '/'

/-- Whether a character may end a control sequence. -/
def isFinal (c : Char) : Bool :=
  '@' ≤ c && c ≤ '~'

/-- The length of the control sequence at the front, behind its escape character. -/
def controlLength? : List Char → Option Nat
  | '[' :: body =>
    let parameters := (body.takeWhile isParameter).length
    let marks := ((body.drop parameters).takeWhile isIntermediate).length
    match (body.drop (parameters + marks)).head? with
    | some c => if isFinal c then some (1 + parameters + marks + 1) else none
    | none => none
  | _ => none

/-- The text without its first `skip` characters and without the control sequences behind them. -/
def dropControlsFrom (skip : Nat) : List Char → List Char
  | [] => []
  | c :: rest =>
    match skip with
    | n + 1 => dropControlsFrom n rest
    | 0 =>
      match if c = '\x1b' then controlLength? rest else none with
      | some n => dropControlsFrom n rest
      | none => c :: dropControlsFrom 0 rest

end Chars

namespace Text

/-- The text without control sequences. What comes together where one was is left as it is. -/
def dropControls (text : String) : String :=
  String.ofList (Chars.dropControlsFrom 0 text.toList)

end Text

end ShellAssist
