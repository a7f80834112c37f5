import ShellAssist.History.Entry
import ShellAssist.History.Dialect.Bash

namespace ShellAssist.History.Zsh

/-!
# Zsh history

A record begins with a head `: <seconds>:<duration>;` and goes on over the lines behind it until the
next head; a backslash before a line break within it is dropped. Lines before the first head are
commands of their own, joined only by backslashes at their ends.

The file's bytes are encoded: a byte that would disturb the shell stands behind the mark 0x83 with
one bit flipped. `unmetafy` undoes that.
-/

/-- The mark before an encoded byte. -/
def metaMark : UInt8 := 0x83

/-- The bytes that encoded bytes stand for. A mark at the very end is dropped. -/
def unmetafyAll : List UInt8 → List UInt8
  | [] => []
  | b :: rest =>
    if b = metaMark then
      match rest with
      | [] => []
      | next :: more => (next ^^^ 0x20) :: unmetafyAll more
    else b :: unmetafyAll rest

/-- The bytes that encoded bytes stand for; bytes without a mark stand for themselves. -/
def unmetafy (bytes : List UInt8) : List UInt8 :=
  if bytes.contains metaMark then unmetafyAll bytes else bytes

/-! ### Records -/

/-- A head's two numbers, as digits, and the text behind it. -/
def head? (line : List Char) : Option (List Char × List Char × List Char) :=
  match line with
  | ':' :: ' ' :: rest =>
    match rest.span Chars.isDecimalDigit with
    | (seconds, ':' :: more) =>
      match more.span Chars.isDecimalDigit with
      | (duration, ';' :: command) =>
        if seconds.isEmpty || duration.isEmpty then none else some (seconds, duration, command)
      | _ => none
    | _ => none
  | _ => none

/-- A command being read: its lines, and the times of its head if it has one. -/
structure Pending where
  lines : List (List Char) := []
  times : Option (Int × Int) := none

/-- A text without the line feeds at its end. -/
def dropFeeds (text : List Char) : List Char :=
  Chars.dropEndWhile (· = '\n') text

/-- The entry of a command read to its end, unless it is blank. -/
def Pending.finish (p : Pending) : List Entry :=
  let command := dropFeeds (Bash.joinLines p.lines)
  if command.all Chars.isBlank then []
  else [{ command := String.ofList command, timestamp := p.times.map (·.1),
          duration := p.times.map (·.2), source := "zsh" }]

/-- The command with one more line, if the line goes on with it: behind a head always, else where
the last line ends in a backslash. -/
def Pending.continue? (p : Pending) (line : List Char) : Option Pending :=
  match p.lines.getLast? with
  | none => none
  | some last =>
    match Bash.continued? last with
    | some text => some { p with lines := p.lines.dropLast ++ [text, line] }
    | none => if p.times.isSome then some { p with lines := p.lines ++ [line] } else none

/-- The number of a head as milliseconds; it may not have too many digits. -/
def millis (digits : List Char) : Except Failure Int :=
  if Number.Decimal.maxDigits < digits.length then .error (.tooManyDigits digits.length)
  else .ok (Chars.digitsValue digits * 1000)

/-- The entries of the lines to come. -/
def entriesFrom (p : Pending) : List (List Char) → Except Failure (List Entry)
  | [] => .ok p.finish
  | line :: rest =>
    match head? line with
    | some (seconds, duration, command) => do
      let times := (← millis seconds, ← millis duration)
      return p.finish ++ (← entriesFrom { lines := [command], times := some times } rest)
    | none =>
      match p.continue? line with
      | some longer => entriesFrom longer rest
      | none =>
        if line.all Chars.isBlank then entriesFrom p rest
        else (p.finish ++ ·) <$> entriesFrom { lines := [line] } rest

/-- The entries of a history file, oldest first. -/
def parse (content : String) : Except Failure (List Entry) :=
  entriesFrom {} (Chars.lines content.toList)

end ShellAssist.History.Zsh
