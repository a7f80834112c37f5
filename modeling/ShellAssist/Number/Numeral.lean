import ShellAssist.Number.Decimal
import ShellAssist.Text.Letter
import ShellAssist.Text.Lower

namespace ShellAssist.Number

/-!
# Reading numbers from text

Numerals may use the decimal digits of any script, stand between white space, begin with a sign and
hold single underscores between digits. The ASCII information separators do not count as white space
around a numeral.

* `Numeral.int` — whole numbers of at most 4300 digits;
* `Numeral.float?` — decimals with optional fraction and exponent, infinities, and what is no
  number, which has a sign as well.
-/

namespace Numeral

/-- Why a text is not a whole number. -/
inductive Fault where
  | malformed
  | tooLong (digits : Nat)
  deriving DecidableEq, Repr

/-- White space that may surround a numeral. -/
def isMargin (c : Char) : Bool :=
  Chars.isBlank c && !(0x1C ≤ c.toNat && c.toNat ≤ 0x1F)

/-- A sign and what follows it. -/
def splitSign : List Char → Bool × List Char
  | '-' :: rest => (true, rest)
  | '+' :: rest => (false, rest)
  | text => (false, text)

/-- The longest run of digits with single underscores between them, and what follows it.
`afterDigit` says whether an underscore may come first. -/
def digitRun (afterDigit : Bool) : List Char → List Nat × List Char
  | [] => ([], [])
  | c :: rest =>
    match Chars.digitValue? c with
    | some d =>
      let (digits, tail) := digitRun true rest
      (d :: digits, tail)
    | none =>
      if c = '_' && afterDigit && (rest.head?.bind Chars.digitValue?).isSome then
        digitRun false rest
      else ([], c :: rest)

/-- The number that decimal digits write. -/
def ofDigits (digits : List Nat) : Nat :=
  digits.foldl (fun n d => 10 * n + d) 0

/-- The whole number that a text writes. Of digits with a misplaced underscore behind them their
number is not looked at; of digits with other text behind them it is. -/
def int (text : List Char) : Except Fault Int :=
  let (negative, body) := splitSign (Chars.trim isMargin text)
  let (digits, rest) := digitRun false body
  if digits.isEmpty || rest.head? = some '_' then .error .malformed
  else if Decimal.maxDigits < digits.length then .error (.tooLong digits.length)
  else if !rest.isEmpty then .error .malformed
  else .ok (if negative then -(ofDigits digits : Int) else ofDigits digits)

/-- The exponent that may end a decimal: `e`, an optional sign and digits. -/
def exponent? : List Char → Option Int
  | [] => some 0
  | c :: rest =>
    if c = 'e' || c = 'E' then
      let (negative, body) := splitSign rest
      match digitRun false body with
      | ([], _) => none
      | (digits, []) => some (if negative then -(ofDigits digits : Int) else ofDigits digits)
      | _ => none
    else none

/-- The double that an unsigned decimal writes. -/
def decimal? (negative : Bool) (text : List Char) : Option Double :=
  let (whole, tail) := digitRun false text
  let (fraction, tail) :=
    match tail with
    | '.' :: more => digitRun false more
    | _ => ([], tail)
  if whole.isEmpty && fraction.isEmpty then none
  else (exponent? tail).map fun e =>
    Double.ofDecimal negative (ofDigits (whole ++ fraction)) (e - fraction.length)

/-- The double that a text writes. -/
def float? (text : List Char) : Option Double :=
  let (negative, body) := splitSign (Chars.trim isMargin text)
  let name := body.map Char.toLower
  if name = "inf".toList || name = "infinity".toList then some (.infinity negative)
  else if name = "nan".toList then some (if negative then .neg .nan else .nan)
  else decimal? negative body

end Numeral

end ShellAssist.Number
