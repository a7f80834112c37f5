import ShellAssist.Number.Rounding

namespace ShellAssist.Number

/-!
# Binary64 numbers

A `Double` is the 64 bits of a floating-point number. Reading a quotient of whole numbers rounds to
the nearest double, ties to the even one; every finite double is a sign and a quotient of whole
numbers again.

* `Double.ofRatio`, `Double.ofInt` — the double nearest to a quotient or a whole number;
* `Double.magnitude?`, `Double.ratio?` — a finite double as a quotient, without or with its sign;
* `Double.truncate?`, `Double.floor?`, `Double.ceil?` — the whole part and the whole neighbours.
-/

/-- A floating-point number of 64 bits. -/
structure Double where
  bits : UInt64
  deriving DecidableEq, Repr

namespace Double

/-- The bit that holds the sign. -/
def signBit : Nat := pow2 63

/-- The bits of infinity, and of nothing below it that is finite. -/
def infinityBits : Nat := 0x7FF * pow2 52

/-- The double with the given sign and other bits. -/
def ofSignBits (negative : Bool) (bits : Nat) : Double :=
  ⟨UInt64.ofNat (bits + if negative then signBit else 0)⟩

/-- Infinity. -/
def infinity (negative : Bool) : Double :=
  ofSignBits negative infinityBits

/-- The value that is no number. -/
def nan : Double :=
  ⟨0x7FF8000000000000⟩

/-- The bits of a number of the runtime. -/
def ofFloat (x : Float) : Double :=
  ⟨x.toBits⟩

/-- Whether the sign is minus. -/
def isNegative (d : Double) : Bool :=
  signBit ≤ d.bits.toNat

/-- The bits without the sign. -/
def magnitudeBits (d : Double) : Nat :=
  d.bits.toNat % signBit

/-- The double with the other sign. -/
def neg (d : Double) : Double :=
  ofSignBits (!d.isNegative) d.magnitudeBits

/-- Whether this is an infinity. -/
def isInfinite (d : Double) : Bool :=
  d.magnitudeBits = infinityBits

/-- Whether this is no number. -/
def isNaN (d : Double) : Bool :=
  infinityBits < d.magnitudeBits

/-- Mantissa and binary exponent of the finite magnitude with these bits. -/
def parts (bits : Nat) : Nat × Int :=
  if bits < pow2 52 then (bits, -1074)
  else (bits % pow2 52 + pow2 52, (bits / pow2 52 : Nat) - 1075)

/-- `mantissa * 2 ^ exponent` as a quotient. -/
def scaled (mantissa : Nat) (exponent : Int) : Nat × Nat :=
  if exponent < 0 then (mantissa, pow2 exponent.natAbs) else (mantissa * pow2 exponent.toNat, 1)

/-- A finite double as a quotient of whole numbers, sign left aside. -/
def magnitude? (d : Double) : Option (Nat × Nat) :=
  if d.magnitudeBits < infinityBits then
    let (mantissa, exponent) := parts d.magnitudeBits
    some (scaled mantissa exponent)
  else none

/-- The binary exponent of a positive quotient: the largest `k` with `2 ^ k ≤ num / den`. -/
def binaryExponent (num den : Nat) : Int :=
  let k : Int := (num.log2 : Int) - den.log2
  let (above, below) := if k < 0 then (num * pow2 k.natAbs, den) else (num, den * pow2 k.toNat)
  if below ≤ above then k else k - 1

/-- The double nearest to `num / den`, ties to the even one; infinity beyond the largest. The
mantissa's carry runs into the exponent field, which is where it belongs. -/
def ofRatio (negative : Bool) (num den : Nat) : Double :=
  if num = 0 then ofSignBits negative 0
  else
    let exponent := max (binaryExponent num den - 52) (-1074)
    let mantissa :=
      if exponent < 0 then roundDiv (num * pow2 exponent.natAbs) den
      else roundDiv num (den * pow2 exponent.toNat)
    let bits := (exponent + 1074).toNat * pow2 52 + mantissa
    ofSignBits negative (min bits infinityBits)

/-- The double nearest to a whole number. -/
def ofInt (n : Int) : Double :=
  ofRatio (decide (n < 0)) n.natAbs 1

instance (n : Nat) : OfNat Double n where
  ofNat := ofInt n

/-- The double nearest to `digits * 10 ^ exponent`. Exponents far outside the range of doubles are
decided without building the power. -/
def ofDecimal (negative : Bool) (digits : Nat) (exponent : Int) : Double :=
  let size : Int := (Nat.toDigits 10 digits).length + exponent
  if digits = 0 || size < -400 then ofSignBits negative 0
  else if 400 < size then infinity negative
  else if exponent < 0 then ofRatio negative digits (pow10 exponent.natAbs)
  else ofRatio negative (digits * pow10 exponent.toNat) 1

/-- The double nearest to a quotient of a signed by a positive number, if it is finite. -/
def quotient? (num : Int) (den : Nat) : Option Double :=
  let d := ofRatio (decide (num < 0)) num.natAbs den
  if d.isInfinite then none else some d

/-- The whole part of a finite double. -/
def truncate? (d : Double) : Option Int :=
  d.magnitude?.map fun (num, den) => if d.isNegative then -((num / den : Nat) : Int) else num / den

/-- A finite double as a quotient of a signed by a positive number. -/
def ratio? (d : Double) : Option (Int × Nat) :=
  d.magnitude?.map fun (num, den) => (if d.isNegative then -(num : Int) else num, den)

/-- The greatest whole number that is not above a finite double. -/
def floor? (d : Double) : Option Int :=
  d.ratio?.map fun (num, den) => num / (den : Int)

/-- The least whole number that is not below a finite double. -/
def ceil? (d : Double) : Option Int :=
  d.ratio?.map fun (num, den) => -(-num / (den : Int))

end Double

end ShellAssist.Number
