namespace ShellAssist.Number

/-!
# Powers and quotients

Powers of the two bases of numbers, and the nearest whole number to a quotient, where a half goes to
the even neighbour.
-/

/-- The power of two with this exponent. -/
def pow2 (n : Nat) : Nat :=
  Nat.pow 2 n

/-- The power of ten with this exponent. -/
def pow10 (n : Nat) : Nat :=
  Nat.pow 10 n

/-- The whole number nearest to `num / den`; a half goes to the even neighbour. -/
def roundDiv (num den : Nat) : Nat :=
  let floor := num / den
  let rest := 2 * (num % den)
  if rest < den then floor
  else if den < rest then floor + 1
  else if floor % 2 = 0 then floor else floor + 1

end ShellAssist.Number
