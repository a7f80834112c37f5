import ShellAssist.Proofs.Number.Monotone

namespace ShellAssist.Number

/-!
# Beyond the largest double

The doubles end with the greatest that has 53 bits and the highest exponent. A quotient is rounded to
infinity from the middle between it and the next power of two on, where the tie goes to the even
mantissa, which is that of the power.

* `Double.overflow` — the least value that is rounded to infinity;
* `Double.quotient?_eq_none_iff` — so quotients have a double just below it.
-/

/-- A quotient that is less than a half above a whole number is not rounded above it. -/
theorem roundDiv_le_of_lt_half {num den q : Nat} (h : 2 * num < (2 * q + 1) * den) :
    roundDiv num den ≤ q := by
  have hd : 0 < den := Nat.pos_of_ne_zero fun hzero => by simp [hzero] at h
  have hfloor : num / den ≤ q := by
    rw [← Nat.lt_succ_iff, Nat.div_lt_iff_lt_mul hd, Nat.succ_eq_add_one]
    nlinarith
  rcases Nat.lt_or_eq_of_le hfloor with hlt | heq
  · exact (roundDiv_le_succ num den).trans hlt
  · have hmod := Nat.div_add_mod num den
    have hrest : 2 * (num % den) < den := by
      rw [heq] at hmod
      nlinarith
    rw [roundDiv, if_pos hrest]
    exact hfloor

namespace Double

/-- The middle between the largest double and the next power of two. -/
def overflow : Nat :=
  (2 ^ 54 - 1) * 2 ^ 970

theorem overflow_pos : 0 < overflow := by
  decide +kernel

variable {num den : Nat}

theorem infinityBits_le_roundedBits_overflow : infinityBits ≤ roundedBits overflow 1 := by
  have hbits : (ofRatio false overflow 1).magnitudeBits = infinityBits := by decide +kernel
  rw [magnitudeBits_ofRatio false overflow_pos Nat.one_pos] at hbits
  exact min_eq_right_iff.mp hbits

/-- The last bit of a double below the middle has at most the highest exponent. -/
theorem lastPlace_le (hn : 0 < num) (hd : 0 < den) (h : num < overflow * den) :
    lastPlace num den ≤ 971 := by
  have hr : (0 : ℚ) < num / den := div_pos (by exact_mod_cast hn) (by exact_mod_cast hd)
  have hpow : num < 2 ^ 1024 * den := h.trans_le (Nat.mul_le_mul_right den (by decide +kernel))
  have hvalue : (num : ℚ) / den < ((2 : Nat) : ℚ) ^ (1024 : ℤ) := by
    rw [div_lt_iff₀ (by exact_mod_cast hd)]
    exact_mod_cast hpow
  have hlog := (Int.lt_zpow_iff_log_lt one_lt_two hr).mp hvalue
  unfold lastPlace
  omega

theorem roundedBits_lt (hn : 0 < num) (hd : 0 < den) (h : num < overflow * den) :
    roundedBits num den < infinityBits := by
  have hplace := lastPlace_le hn hd h
  have hlow : -1074 ≤ lastPlace num den := le_max_right _ _
  rw [infinityBits_eq, roundedBits]
  rcases lt_or_eq_of_le hplace with hlt | heq
  · have hmantissa : mantissaAt num den (lastPlace num den) ≤ 2 ^ 53 := mantissaAt_lastPlace_le hd
    generalize mantissaAt num den (lastPlace num den) = m at hmantissa ⊢
    omega
  · -- With the highest exponent there is no room for a carry.
    have hmantissa : mantissaAt num den 971 ≤ 2 ^ 53 - 1 := by
      refine roundDiv_le_of_lt_half ?_
      rw [show (-971 : ℤ).toNat = 0 from rfl, show (971 : ℤ).toNat = 970 + 1 from rfl, pow_zero,
        mul_one, pow_succ' 2 970]
      rw [overflow] at h
      generalize 2 ^ 970 = p at h ⊢
      calc 2 * num < 2 * ((2 ^ 54 - 1) * p * den) := by omega
        _ = (2 * (2 ^ 53 - 1) + 1) * (den * (2 * p)) := by ring
    rw [heq]
    generalize mantissaAt num den 971 = m at hmantissa ⊢
    omega

/-- **The quotients that have no double** are those from the middle on. -/
theorem quotient?_eq_none_iff {num : Int} (hd : 0 < den) :
    quotient? num den = none ↔ overflow * den ≤ num.natAbs := by
  have hnone : quotient? num den = none ↔
      (ofRatio (decide (num < 0)) num.natAbs den).magnitudeBits = infinityBits := by
    unfold quotient? isInfinite
    simp
  rw [hnone]
  -- Zero has no place to round at; every other quotient is compared in its bits.
  rcases Nat.eq_zero_or_pos num.natAbs with hzero | hpos
  · rw [hzero, ofRatio, if_pos rfl, magnitudeBits_ofSignBits _ (by decide)]
    have hoverflow := Nat.mul_pos overflow_pos hd
    exact iff_of_false (by decide) (Nat.not_le_of_lt hoverflow)
  · rw [magnitudeBits_ofRatio _ hpos hd, min_eq_right_iff]
    constructor
    · intro h
      by_contra hlt
      exact absurd h (not_le.mpr (roundedBits_lt hpos hd (not_le.mp hlt)))
    · intro h
      have hcross : overflow * den ≤ num.natAbs * 1 := by rwa [mul_one]
      exact infinityBits_le_roundedBits_overflow.trans
        (roundedBits_le_roundedBits overflow_pos Nat.one_pos hpos hd hcross)

end Double

end ShellAssist.Number
