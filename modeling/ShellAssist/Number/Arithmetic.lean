import ShellAssist.Number.Double

namespace ShellAssist.Number.Double

/-!
# Arithmetic of binary64 numbers

Sums, differences and products are taken exactly and then rounded to the nearest double. The order
is that of the values; what is no number stands in no relation to any double, itself included.
-/

/-- The value that an operation gives which has no result. -/
def undefined : Double :=
  neg nan

/-- What is no number, as an operation hands it on. -/
def quiet (d : Double) : Double :=
  ⟨d.bits ||| nan.bits⟩

/-- The sum. Of two operands that are no numbers the first is handed on; opposite infinities have no
sum, and opposite numbers the positive zero. -/
def add (a b : Double) : Double :=
  if a.isNaN then a.quiet
  else if b.isNaN then b.quiet
  else
    match a.ratio?, b.ratio? with
    | some (n, p), some (m, q) =>
      let sum := n * q + m * p
      if sum = 0 then ofSignBits (a.isNegative && b.isNegative) 0
      else ofRatio (decide (sum < 0)) sum.natAbs (p * q)
    | some _, none => b
    | none, some _ => a
    | none, none => if a.isNegative = b.isNegative then a else undefined

/-- The product. Zero and an infinity have none. -/
def mul (a b : Double) : Double :=
  if a.isNaN then a.quiet
  else if b.isNaN then b.quiet
  else
    let negative := a.isNegative != b.isNegative
    match a.magnitude?, b.magnitude? with
    | some (n, p), some (m, q) => ofRatio negative (n * m) (p * q)
    | some (n, _), none => if n = 0 then undefined else infinity negative
    | none, some (m, _) => if m = 0 then undefined else infinity negative
    | none, none => infinity negative

/-- A whole number by which doubles are ordered as by their values. -/
def rank (d : Double) : Int :=
  if d.isNegative then -(d.magnitudeBits : Int) else d.magnitudeBits

/-- Whether a double is below another. -/
def less (a b : Double) : Bool :=
  !a.isNaN && !b.isNaN && a.rank < b.rank

/-- Whether a double is not above another. -/
def atMost (a b : Double) : Bool :=
  !a.isNaN && !b.isNaN && a.rank ≤ b.rank

instance : Add Double := ⟨add⟩

instance : Sub Double := ⟨fun a b => a.add b.neg⟩

instance : Mul Double := ⟨mul⟩

instance : LT Double := ⟨fun a b => a.less b = true⟩

instance : LE Double := ⟨fun a b => a.atMost b = true⟩

instance : DecidableLT Double := fun a b => inferInstanceAs (Decidable (a.less b = true))

instance : DecidableLE Double := fun a b => inferInstanceAs (Decidable (a.atMost b = true))

end ShellAssist.Number.Double
