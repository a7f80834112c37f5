namespace ShellAssist.Text

/-!
# Hexadecimal digits

Numbers as lower case hexadecimal digits of a fixed width, and digits back to numbers.
-/

/-- The hexadecimal digit of a number below sixteen. -/
def hexDigit (n : Nat) : Char :=
  Nat.digitChar (n % 16)

/-- The last `width` hexadecimal digits of a number, leading zeros kept. -/
def hex : (width : Nat) → Nat → List Char
  | 0, _ => []
  | width + 1, n => hex width (n / 16) ++ [hexDigit n]

/-- The value of a hexadecimal digit, upper or lower case. -/
def hexValue? (c : Char) : Option Nat :=
  if '0' ≤ c && c ≤ '9' then some (c.toNat - '0'.toNat)
  else if 'a' ≤ c && c ≤ 'f' then some (c.toNat - 'a'.toNat + 10)
  else if 'A' ≤ c && c ≤ 'F' then some (c.toNat - 'A'.toNat + 10)
  else none

/-- The value of a run of hexadecimal digits. -/
def hexNumber? (digits : List Char) : Option Nat :=
  digits.foldl (fun acc c => do return 16 * (← acc) + (← hexValue? c)) (some 0)

/-- Two digits a byte. -/
def hexOfBytes (bytes : List UInt8) : String :=
  String.ofList (bytes.flatMap fun b => hex 2 b.toNat)

/-- The bytes that a run of hexadecimal digits spells, two digits a byte; a lone one at the end is
dropped. -/
def bytesOfHex : List Char → List UInt8
  | a :: b :: rest =>
    UInt8.ofNat (16 * (hexValue? a).getD 0 + (hexValue? b).getD 0) :: bytesOfHex rest
  | _ => []

end ShellAssist.Text
