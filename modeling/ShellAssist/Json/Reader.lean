import ShellAssist.Json.Basic
import ShellAssist.Failure
import ShellAssist.Number.Numeral
import ShellAssist.Text.Hex

namespace ShellAssist.Json

/-!
# Reading JSON

A recursive reader: each step takes a value from the front of the text and hands on the rest, or
halts where the text is wrong. Beside the standard's values it accepts `NaN`, `Infinity` and
`-Infinity`. A number is whole unless it has a fraction or an exponent. Control characters may not
stand in strings; half of a surrogate pair alone is read as U+FFFD.

The steps are counted down by a fuel that `read` sets beyond the length of the text; no text uses it
up, since every step but the first follows a character taken. `room` counts the levels of nesting
that are still allowed; how many there are at first depends on how deep the program's own calls are.

* `read` — the value that a text writes, or what is wrong with the text;
* `read?` — the value only.
-/

open Number

/-- Why reading halts. -/
inductive Halt where
  /-- The text is wrong where this rest of it begins. -/
  | fault (fault : Fault) (rest : List Char)
  /-- Arrays and objects are nested too deep. -/
  | tooDeep (nesting : Nesting)
  /-- A whole number has too many digits. -/
  | tooManyDigits (digits : Nat)
  deriving DecidableEq, Repr

/-- What was taken from the front of a text, and the rest. -/
structure Taken (α : Type) where
  value : α
  rest : List Char
  deriving DecidableEq, Repr

/-- Whether a character may stand between tokens. -/
def isSpace (c : Char) : Bool :=
  c = ' ' || c = '\t' || c = '\n' || c = '\r'

/-- The text behind leading space. -/
def skipSpace (text : List Char) : List Char :=
  text.dropWhile isSpace

/-! ### Numbers -/

/-- The digits at the front, and the rest. -/
def takeDigits (text : List Char) : List Char × List Char :=
  (text.takeWhile Char.isDigit, text.dropWhile Char.isDigit)

/-- The fraction at the front, if there is one: a point and at least one digit. -/
def takeFraction : List Char → List Char × List Char
  | '.' :: rest =>
    match takeDigits rest with
    | ([], _) => ([], '.' :: rest)
    | (digits, more) => (digits, more)
  | text => ([], text)

/-- The exponent at the front, if there is one. -/
def takeExponent : List Char → Option Int × List Char
  | [] => (none, [])
  | c :: rest =>
    if c = 'e' || c = 'E' then
      let (negative, body) := Numeral.splitSign rest
      match takeDigits body with
      | ([], _) => (none, c :: rest)
      | (digits, more) =>
        let n : Int := Chars.digitsValue digits
        (some (if negative then -n else n), more)
    else (none, c :: rest)

/-- The whole part of a number at the front: a zero alone, or digits. -/
def takeWhole : List Char → List Char × List Char
  | '0' :: rest => (['0'], rest)
  | text => takeDigits text

/-- The number at the front, whose whole part begins with `body`, behind its sign. -/
def readNumber (text : List Char) (negative : Bool) (body : List Char) : Except Halt (Taken Json) :=
  let (whole, rest) := takeWhole body
  let (fraction, rest) := takeFraction rest
  let (exponent, rest) := takeExponent rest
  if whole.isEmpty then .error (.fault .noValue text)
  else if fraction.isEmpty && exponent.isNone then
    if Decimal.maxDigits < whole.length then .error (.tooManyDigits whole.length)
    else
      let n : Int := Chars.digitsValue whole
      .ok ⟨.int (if negative then -n else n), rest⟩
  else
    .ok ⟨.float (Double.ofDecimal negative (Chars.digitsValue (whole ++ fraction))
      (exponent.getD 0 - fraction.length)), rest⟩

/-! ### Strings -/

/-- The unit that four hexadecimal digits at the front write. They may not end the text. -/
def takeUnit? : List Char → Option (Nat × List Char)
  | a :: b :: c :: d :: e :: rest => (Text.hexNumber? [a, b, c, d]).map (·, e :: rest)
  | _ => none

/-- Whether a unit is the first of a surrogate pair. -/
def isHighUnit (unit : Nat) : Bool :=
  0xD800 ≤ unit && unit < 0xDC00

/-- Whether a unit is the second of a surrogate pair. -/
def isLowUnit (unit : Nat) : Bool :=
  0xDC00 ≤ unit && unit < 0xE000

/-- The character of a unit that stands alone. Texts hold no halves of surrogate pairs; one that is alone
becomes the replacement character. -/
def charOfUnit (unit : Nat) : Char :=
  if isHighUnit unit || isLowUnit unit then Char.ofNat 0xFFFD else Char.ofNat unit

/-- The character of a surrogate pair. -/
def charOfPair (high low : Nat) : Char :=
  Char.ofNat (0x10000 + (high - 0xD800) * 0x400 + (low - 0xDC00))

/-- The character that a one-letter escape stands for. -/
def simpleEscape? : Char → Option Char
  | '"' => some '"'
  | '\\' => some '\\'
  | '/' => some '/'
  | 'b' => some '\x08'
  | 'f' => some '\x0c'
  | 'n' => some '\n'
  | 'r' => some '\r'
  | 't' => some '\t'
  | _ => none

/-- The character of a unit whose digits are at the front, or of a pair of which this is the first
unit. -/
def takeUnitChar (text : List Char) : Except Halt (Taken Char) :=
  match takeUnit? text with
  | none => .error (.fault .badUnit ('u' :: text))
  | some (unit, rest) =>
    match isHighUnit unit, rest with
    | true, '\\' :: 'u' :: more =>
      match takeUnit? more with
      | none => .error (.fault .badUnit ('u' :: more))
      | some (low, tail) =>
        if isLowUnit low then .ok ⟨charOfPair unit low, tail⟩ else .ok ⟨charOfUnit unit, rest⟩
    | _, _ => .ok ⟨charOfUnit unit, rest⟩

/-- The character whose escape is at the front of the string `text`, behind its backslash. -/
def takeEscape (text : List Char) : List Char → Except Halt (Taken Char)
  | [] => .error (.fault .openString ('"' :: text))
  | c :: rest =>
    if c = 'u' then takeUnitChar rest
    else
      match simpleEscape? c with
      | some d => .ok ⟨d, rest⟩
      | none => .error (.fault .badEscape ('\\' :: c :: rest))

/-- The characters of the string `text` from a place in it up to its closing quote, and the rest. -/
def takeString (text : List Char) : (fuel : Nat) → List Char → Except Halt (Taken (List Char))
  | 0, _ => .error (.fault .openString ('"' :: text))
  | _ + 1, [] => .error (.fault .openString ('"' :: text))
  | fuel + 1, c :: rest =>
    if c = '"' then .ok ⟨[], rest⟩
    else if c = '\\' then do
      let ⟨d, more⟩ ← takeEscape text rest
      let ⟨cs, tail⟩ ← takeString text fuel more
      return ⟨d :: cs, tail⟩
    else if c.toNat < 0x20 then .error (.fault .controlCharacter (c :: rest))
    else do
      let ⟨cs, tail⟩ ← takeString text fuel rest
      return ⟨c :: cs, tail⟩

/-- The string behind its opening quote. -/
def readString (text : List Char) : Except Halt (Taken String) := do
  let ⟨cs, rest⟩ ← takeString text (text.length + 1) text
  return ⟨String.ofList cs, rest⟩

/-! ### Values -/

/-- The constants, by the text that writes them. -/
def constants : List (List Char × Json) :=
  [("null".toList, .null), ("true".toList, .bool true), ("false".toList, .bool false),
   ("NaN".toList, .float .nan), ("Infinity".toList, .float (.infinity false)),
   ("-Infinity".toList, .float (.infinity true))]

/-- The constant at the front. -/
def readConstant? (text : List Char) : Option (Taken Json) :=
  (constants.find? fun (word, _) => word.isPrefixOf text).map fun (word, value) =>
    ⟨value, text.drop word.length⟩

/-- The constant or number at the front. -/
def readScalar (text : List Char) : Except Halt (Taken Json) :=
  match readConstant? text with
  | some found => .ok found
  | none =>
    match text with
    | '-' :: body => readNumber text true body
    | _ => readNumber text false text

mutual

/-- The value at the front. -/
def readValue : (fuel room : Nat) → List Char → Except Halt (Taken Json)
  | 0, _, text => .error (.fault .noValue text)
  | fuel + 1, room, text =>
    match text with
    | '"' :: rest => do
      let ⟨s, more⟩ ← readString rest
      return ⟨.str s, more⟩
    | '[' :: rest =>
      match room, skipSpace rest with
      | 0, _ => .error (.tooDeep .array)
      | _ + 1, ']' :: more => .ok ⟨.arr [], more⟩
      | room + 1, first => do
        let ⟨items, more⟩ ← readItems fuel room first
        return ⟨.arr items, more⟩
    | '\x7b' :: rest =>
      match room, skipSpace rest with
      | 0, _ => .error (.tooDeep .object)
      | _ + 1, '\x7d' :: more => .ok ⟨.obj [], more⟩
      | room + 1, first => do
        let ⟨members, more⟩ ← readMembers fuel room first
        return ⟨.obj (Members.ofList members), more⟩
    | _ => readScalar text

/-- The items of an array from the first on, through the closing bracket. -/
def readItems : (fuel room : Nat) → List Char → Except Halt (Taken (List Json))
  | 0, _, text => .error (.fault .noValue text)
  | fuel + 1, room, text => do
    let ⟨item, rest⟩ ← readValue fuel room text
    match skipSpace rest with
    | ',' :: more => do
      let ⟨items, tail⟩ ← readItems fuel room (skipSpace more)
      return ⟨item :: items, tail⟩
    | ']' :: more => .ok ⟨[item], more⟩
    | wrong => .error (.fault .noComma wrong)

/-- The members of an object from the first on, through the closing brace. -/
def readMembers : (fuel room : Nat) → List Char → Except Halt (Taken (List (String × Json)))
  | 0, _, text => .error (.fault .noName text)
  | fuel + 1, room, text =>
    match text with
    | '"' :: rest => do
      let ⟨name, more⟩ ← readString rest
      match skipSpace more with
      | ':' :: body => do
        let ⟨value, rest⟩ ← readValue fuel room (skipSpace body)
        match skipSpace rest with
        | ',' :: more => do
          let ⟨members, tail⟩ ← readMembers fuel room (skipSpace more)
          return ⟨(name, value) :: members, tail⟩
        | '\x7d' :: more => .ok ⟨[(name, value)], more⟩
        | wrong => .error (.fault .noComma wrong)
      | wrong => .error (.fault .noColon wrong)
    | _ => .error (.fault .noName text)

end

/-- The value at the front of a text behind space, which may have only space behind it. Arrays and
objects may be nested `nesting` levels deep. -/
def readAll (nesting : Nat) (text : List Char) : Except Halt Json :=
  if text.head? = some '\uFEFF' then .error (.fault .byteOrderMark text)
  else do
    let ⟨value, rest⟩ ← readValue (2 * text.length + 2) nesting (skipSpace text)
    match skipSpace rest with
    | [] => return value
    | extra => .error (.fault .extraData extra)

/-- A halt as a failure to read the text. -/
def Halt.toFailure (text : List Char) : Halt → Failure
  | .fault wrong rest => .malformedJson wrong (.behind (text.take (text.length - rest.length)))
  | .tooDeep nesting => .textTooDeep nesting
  | .tooManyDigits digits => .tooManyDigits digits

/-- The value that a text writes, between optional space. -/
def read (nesting : Nat) (text : List Char) : Except Failure Json :=
  (readAll nesting text).mapError (Halt.toFailure text)

/-- The value that a text writes, if it writes one. -/
def read? (nesting : Nat) (text : List Char) : Option Json :=
  (read nesting text).toOption

end ShellAssist.Json
