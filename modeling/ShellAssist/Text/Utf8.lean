namespace ShellAssist.Text

/-!
# UTF-8

A machine reads octets one at a time and yields characters; where the octets cannot go on, it yields
a gap for the longest part that could have begun a character, and starts afresh with the octet that
did not fit. `decodeLossy` shows U+FFFD for every gap, `decodeStrict?` accepts no gap.
-/

/-- Where the machine stands between octets. -/
inductive Utf8State where
  /-- Between characters. -/
  | start
  /-- Inside a character: `owed` more octets, the next one between `low` and `high`, after the bits
  in `value`. -/
  | inside (owed low high value : Nat)

/-- The state behind the first octet of a character, or the character of an ASCII octet, or neither
for an octet that begins none. -/
def Utf8State.ofFirst (b : Nat) : Option (Char ⊕ Utf8State) :=
  if b < 0x80 then some (.inl (Char.ofNat b))
  else if b < 0xC2 then none
  else if b < 0xE0 then some (.inr (.inside 1 0x80 0xBF (b - 0xC0)))
  else if b = 0xE0 then some (.inr (.inside 2 0xA0 0xBF 0))
  else if b = 0xED then some (.inr (.inside 2 0x80 0x9F 0xD))
  else if b < 0xF0 then some (.inr (.inside 2 0x80 0xBF (b - 0xE0)))
  else if b = 0xF0 then some (.inr (.inside 3 0x90 0xBF 0))
  else if b < 0xF4 then some (.inr (.inside 3 0x80 0xBF (b - 0xF0)))
  else if b = 0xF4 then some (.inr (.inside 3 0x80 0x8F 4))
  else none

/-- The characters of an octet sequence from a state, `none` for a gap. -/
def decodeFrom : Utf8State → List UInt8 → List (Option Char)
  | .start, [] => []
  | .inside .., [] => [none]
  | state, b :: rest =>
    let afresh :=
      match Utf8State.ofFirst b.toNat with
      | some (.inl c) => (some (some c), Utf8State.start)
      | some (.inr next) => (none, next)
      | none => (some none, .start)
    match state with
    | .start => afresh.1.toList ++ decodeFrom afresh.2 rest
    | .inside owed low high value =>
      if low ≤ b.toNat && b.toNat ≤ high then
        let value := 64 * value + (b.toNat - 0x80)
        if owed = 1 then some (Char.ofNat value) :: decodeFrom .start rest
        else decodeFrom (.inside (owed - 1) 0x80 0xBF value) rest
      else none :: (afresh.1.toList ++ decodeFrom afresh.2 rest)

/-- The text of an octet sequence, with U+FFFD for every gap. -/
def decodeLossy (bytes : List UInt8) : List Char :=
  (decodeFrom .start bytes).map (·.getD (Char.ofNat 0xFFFD))

/-- The text of an octet sequence without gaps. -/
def decodeStrict? (bytes : List UInt8) : Option (List Char) :=
  (decodeFrom .start bytes).mapM id

/-- The octets of a text. -/
def encode (text : List Char) : List UInt8 :=
  text.flatMap String.utf8EncodeChar

end ShellAssist.Text
