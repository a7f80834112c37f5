import ShellAssist.Number.Double

namespace ShellAssist.Number

/-!
# Decimal text of numbers

* `Decimal.ofInt`, `Decimal.ofNat` — whole numbers;
* `Decimal.isWritable` — whether a whole number is not too long for files and messages;
* `Decimal.fixed` — a double with a fixed count of decimal places, rounded exactly, a half to even;
* `Decimal.shortest` — the fewest digits that read back as the same double, and of those the
  nearest; positional from 10^-4 to below 10^16, with an exponent of two digits or more outside.
-/

namespace Decimal

/-- The digits of a natural number. -/
def ofNat (n : Nat) : List Char :=
  Nat.toDigits 10 n

/-- The digits of a whole number, behind a minus sign if it is negative. -/
def ofInt (n : Int) : List Char :=
  if n < 0 then '-' :: ofNat n.natAbs else ofNat n.natAbs

/-- The most digits that a whole number is read and written with. -/
def maxDigits : Nat := 4300

/-- The least whole number that has too many digits. -/
def writableLimit : Nat :=
  pow10 maxDigits

/-- Whether a whole number has no more digits than are written. -/
def isWritable (n : Int) : Bool :=
  n.natAbs < writableLimit

/-- Digits filled up with zeros on the left. -/
def padLeft (width : Nat) (digits : List Char) : List Char :=
  List.replicate (width - digits.length) '0' ++ digits

/-- How infinity and the value that is no number are written. -/
structure Names where
  infinity : String
  nan : String

/-- The names in displayed numbers. -/
def plainNames : Names where
  infinity := "inf"
  nan := "nan"

/-- A number's sign. -/
def sign (negative : Bool) : List Char :=
  if negative then ['-'] else []

/-- Text of a value that is not finite. -/
def special (names : Names) (d : Double) : List Char :=
  if d.isNaN then names.nan.toList else sign d.isNegative ++ names.infinity.toList

/-- A double with the given count of decimal places. -/
def fixed (places : Nat) (d : Double) : String :=
  String.ofList <|
    match d.magnitude? with
    | none => special plainNames d
    | some (num, den) =>
      let scaled := roundDiv (num * pow10 places) den
      let whole := ofNat (scaled / pow10 places)
      let fraction :=
        if places = 0 then [] else '.' :: padLeft places (ofNat (scaled % pow10 places))
      sign d.isNegative ++ whole ++ fraction

/-- The double nearest to a double rounded to the given count of decimal places. -/
def rounded (places : Nat) (d : Double) : Double :=
  match d.magnitude? with
  | none => d
  | some (num, den) =>
    Double.ofDecimal d.isNegative (roundDiv (num * pow10 places) den) (-(places : Int))

/-! ### Shortest digits -/

/-- The place of the decimal point of a positive quotient: the least `p` with
`num / den < 10 ^ p`. -/
def pointPlace (num den : Nat) : Int :=
  if den ≤ num then (ofNat (num / den)).length
  else
    let t := (ofNat (den / num)).length
    if den ≤ num * pow10 (t - 1) then 2 - (t : Int) else 1 - (t : Int)

/-- Of the two neighbours of `num / den` among the multiples of `10 ^ scale`, the nearer one that
reads back as the double with magnitude `target`; a tie goes to the even one. -/
def neighbour? (target : Double) (num den : Nat) (scale : Int) : Option Nat :=
  let (above, below) :=
    if scale < 0 then (num * pow10 scale.natAbs, den) else (num, den * pow10 scale.toNat)
  let nearest := roundDiv above below
  let other := if nearest * below ≤ above then nearest + 1 else nearest - 1
  [nearest, other].find? fun digits => Double.ofDecimal false digits scale = target

/-- All digits of a double's magnitude: a binary fraction has as many decimal places as binary
ones. -/
def exactDigits (num den : Nat) : Nat × Int :=
  (num * pow10 den.log2 / den, -(den.log2 : Int))

/-- The least digits that read back as the positive double with this magnitude, and their scale. -/
def shortestDigits (target : Double) (num den : Nat) : Nat × Int :=
  let point := pointPlace num den
  let found := (List.range 17).findSome? fun (n : Nat) =>
    let scale := point - (n + 1 : Nat)
    (neighbour? target num den scale).map (·, scale)
  found.getD (exactDigits num den)

/-- Digits with the zeros at their end left out. -/
def significant (digits : List Char) : List Char :=
  (digits.reverse.dropWhile (· = '0')).reverse

/-- Digits with the decimal point at place `point`, in positional form; a whole number keeps one
decimal place. -/
def positional (digits : List Char) (point : Int) : List Char :=
  if point ≤ 0 then '0' :: '.' :: (List.replicate point.natAbs '0' ++ digits)
  else
    let n := point.toNat
    let whole := digits.take n ++ List.replicate (n - digits.length) '0'
    match digits.drop n with
    | [] => whole ++ ['.', '0']
    | fraction => whole ++ '.' :: fraction

/-- Digits with the decimal point at place `point`, in exponent form. -/
def scientific (digits : List Char) (point : Int) : List Char :=
  let exponent := point - 1
  let fraction :=
    match digits.drop 1 with
    | [] => []
    | more => '.' :: more
  digits.take 1 ++ fraction ++
    ('e' :: (if exponent < 0 then '-' else '+') :: padLeft 2 (ofNat exponent.natAbs))

/-- The shortest text that reads back as the same double. -/
def shortest (names : Names) (d : Double) : List Char :=
  match d.magnitude? with
  | none => special names d
  | some (num, den) =>
    if num = 0 then sign d.isNegative ++ ['0', '.', '0']
    else
      let (n, scale) := shortestDigits (Double.ofSignBits false d.magnitudeBits) num den
      let all := ofNat n
      let point := (all.length : Int) + scale
      let digits := significant all
      sign d.isNegative ++
        if -4 < point && point ≤ 16 then positional digits point else scientific digits point

end Decimal

end ShellAssist.Number
