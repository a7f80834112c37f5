import ShellAssist.Proofs.Number.Nearest

namespace ShellAssist.Number

/-!
# Rounding keeps the order

A quotient that is not greater than another is not rounded to a greater double, and doubles are
ordered as their bits. So what a rounded quotient is at one place bounds it on one side of that
place.

* `roundDiv_le_roundDiv` — rounding to whole numbers;
* `Double.magnitudeBits_ofRatio_le` — rounding to doubles;
* `Double.magnitude_le` — the values of doubles.
-/

/-! ### Whole numbers -/

theorem le_roundDiv (num den : Nat) : num / den ≤ roundDiv num den := by
  unfold roundDiv
  dsimp only
  split
  · exact le_rfl
  · split
    · exact Nat.le_succ _
    · split
      · exact le_rfl
      · exact Nat.le_succ _

theorem roundDiv_le_succ (num den : Nat) : roundDiv num den ≤ num / den + 1 := by
  unfold roundDiv
  dsimp only
  split
  · exact Nat.le_succ _
  · split
    · exact le_rfl
    · split
      · exact Nat.le_succ _
      · exact le_rfl

section Cross

variable {n₁ d₁ n₂ d₂ : Nat}

theorem div_le_div_of_cross (h₁ : 0 < d₁) (h₂ : 0 < d₂) (h : n₁ * d₂ ≤ n₂ * d₁) :
    n₁ / d₁ ≤ n₂ / d₂ := by
  rw [Nat.le_div_iff_mul_le h₂]
  refine Nat.le_of_mul_le_mul_right ?_ h₁
  calc n₁ / d₁ * d₂ * d₁ = n₁ / d₁ * d₁ * d₂ := by ring
    _ ≤ n₁ * d₂ := Nat.mul_le_mul_right _ (Nat.div_mul_le_self _ _)
    _ ≤ n₂ * d₁ := h

/-- With the same whole part the rests are ordered as the quotients. -/
theorem mod_cross_of_div_eq (h : n₁ * d₂ ≤ n₂ * d₁) (heq : n₁ / d₁ = n₂ / d₂) :
    n₁ % d₁ * d₂ ≤ n₂ % d₂ * d₁ := by
  have hn₁ := Nat.div_add_mod n₁ d₁
  have hn₂ := Nat.div_add_mod n₂ d₂
  rw [← heq] at hn₂
  nlinarith

/-- Rounding to whole numbers keeps the order. -/
theorem roundDiv_le_roundDiv (h₁ : 0 < d₁) (h₂ : 0 < d₂) (h : n₁ * d₂ ≤ n₂ * d₁) :
    roundDiv n₁ d₁ ≤ roundDiv n₂ d₂ := by
  rcases Nat.lt_or_eq_of_le (div_le_div_of_cross h₁ h₂ h) with hlt | heq
  · exact (roundDiv_le_succ _ _).trans (le_trans hlt (le_roundDiv _ _))
  · have hrest := mod_cross_of_div_eq h heq
    have hup (hlt : d₁ < 2 * (n₁ % d₁)) : d₂ < 2 * (n₂ % d₂) := by nlinarith
    have htie (hle : d₁ ≤ 2 * (n₁ % d₁)) : d₂ ≤ 2 * (n₂ % d₂) := by
      by_contra hlt
      nlinarith
    simp only [roundDiv, heq]
    split_ifs <;> omega

end Cross

/-- A quotient that is not above a whole number is not rounded above it. -/
theorem roundDiv_le {num den q : Nat} (hd : 0 < den) (h : num ≤ q * den) : roundDiv num den ≤ q :=
  calc roundDiv num den ≤ roundDiv (q * den) den :=
        roundDiv_le_roundDiv hd hd (Nat.mul_le_mul_right _ h)
    _ = q := roundDiv_mul_self q hd

/-- A quotient that is not below a whole number is not rounded below it. -/
theorem le_roundDiv_of_le {num den q : Nat} (hd : 0 < den) (h : q * den ≤ num) :
    q ≤ roundDiv num den :=
  calc q = roundDiv (q * den) den := (roundDiv_mul_self q hd).symm
    _ ≤ roundDiv num den := roundDiv_le_roundDiv hd hd (Nat.mul_le_mul_right _ h)

/-! ### Doubles -/

namespace Double

/-- The exponent of the last bit of the double nearest to a positive quotient. -/
def lastPlace (num den : Nat) : ℤ :=
  max (Int.log 2 ((num : ℚ) / den) - 52) (-1074)

/-- A quotient in units of a power of two, rounded. -/
def mantissaAt (num den : Nat) (place : ℤ) : Nat :=
  roundDiv (num * 2 ^ (-place).toNat) (den * 2 ^ place.toNat)

/-- The bits of the double nearest to a positive quotient, before they are cut at infinity. -/
def roundedBits (num den : Nat) : Nat :=
  (lastPlace num den + 1074).toNat * 2 ^ 52 + mantissaAt num den (lastPlace num den)

theorem ofRatio_eq_roundedBits (negative : Bool) {num den : Nat} (hn : 0 < num) (hd : 0 < den) :
    ofRatio negative num den = ofSignBits negative (min (roundedBits num den) infinityBits) := by
  have hmantissa (place : ℤ) :
      (if place < 0 then roundDiv (num * pow2 place.natAbs) den
        else roundDiv num (den * pow2 place.toNat)) = mantissaAt num den place := by
    unfold mantissaAt pow2
    split
    · rw [show place.toNat = 0 by omega, show (-place).toNat = place.natAbs by omega, pow_zero,
        mul_one]
      rfl
    · rw [show (-place).toNat = 0 by omega, pow_zero, mul_one]
      rfl
  simp only [ofRatio, hn.ne', if_false, binaryExponent_eq_log hn hd, hmantissa]
  rfl

variable {num den n₁ d₁ n₂ d₂ : Nat}

/-- A negative and a positive power of two as one. -/
theorem two_pow_toNat_neg (place : ℤ) :
    (2 : ℚ) ^ (-place).toNat = 2 ^ (-place) * 2 ^ place.toNat := by
  rcases le_or_gt 0 place with h | h
  · obtain ⟨n, rfl⟩ := Int.eq_ofNat_of_zero_le h
    rw [show (-(n : ℤ)).toNat = 0 by omega, Int.toNat_natCast, zpow_neg, zpow_natCast]
    field_simp
  · obtain ⟨n, rfl⟩ : ∃ n : Nat, place = -(n : ℤ) := ⟨place.natAbs, by omega⟩
    rw [show (-(n : ℤ)).toNat = 0 by omega, neg_neg, Int.toNat_natCast, zpow_natCast, pow_zero,
      mul_one]

theorem mantissaAt_le_mantissaAt (h₁ : 0 < d₁) (h₂ : 0 < d₂) (h : n₁ * d₂ ≤ n₂ * d₁) (place : ℤ) :
    mantissaAt n₁ d₁ place ≤ mantissaAt n₂ d₂ place := by
  refine roundDiv_le_roundDiv (by positivity) (by positivity) ?_
  calc n₁ * 2 ^ (-place).toNat * (d₂ * 2 ^ place.toNat)
      = n₁ * d₂ * (2 ^ (-place).toNat * 2 ^ place.toNat) := by ring
    _ ≤ n₂ * d₁ * (2 ^ (-place).toNat * 2 ^ place.toNat) := Nat.mul_le_mul_right _ h
    _ = n₂ * 2 ^ (-place).toNat * (d₁ * 2 ^ place.toNat) := by ring

/-- The mantissa has at most 53 bits, but for a carry. -/
theorem mantissaAt_lastPlace_le (hd : 0 < den) :
    mantissaAt num den (lastPlace num den) ≤ 2 ^ 53 := by
  have hden : (0 : ℚ) < den := by exact_mod_cast hd
  have hplace : Int.log 2 ((num : ℚ) / den) + 1 ≤ lastPlace num den + 53 := by
    unfold lastPlace
    omega
  generalize lastPlace num den = place at hplace ⊢
  have hpow : (0 : ℚ) ≤ 2 ^ (-place) := zpow_nonneg zero_le_two _
  refine roundDiv_le (by positivity) ?_
  -- The quotient is below the power above its logarithm, which is 53 places above the last.
  have hlog : (num : ℚ) / den ≤ 2 ^ (place + 53) :=
    (Int.lt_zpow_succ_log_self one_lt_two _).le.trans
      (by exact_mod_cast zpow_le_zpow_right₀ (one_le_two (α := ℚ)) hplace)
  have hcast : (num : ℚ) * 2 ^ (-place).toNat ≤ 2 ^ 53 * (den * 2 ^ place.toNat) := by
    rw [div_le_iff₀ hden] at hlog
    calc (num : ℚ) * 2 ^ (-place).toNat = num * 2 ^ (-place) * 2 ^ place.toNat := by
          rw [two_pow_toNat_neg, mul_assoc]
      _ ≤ 2 ^ (place + 53) * den * 2 ^ (-place) * 2 ^ place.toNat := by gcongr
      _ = 2 ^ 53 * (den * 2 ^ place.toNat) := by
          rw [zpow_add₀ two_ne_zero, zpow_neg]
          field_simp
  exact_mod_cast hcast

/-- Above the lowest exponent the mantissa has its highest bit. -/
theorem le_mantissaAt_lastPlace (hn : 0 < num) (hd : 0 < den) (h : -1074 < lastPlace num den) :
    2 ^ 52 ≤ mantissaAt num den (lastPlace num den) := by
  have hden : (0 : ℚ) < den := by exact_mod_cast hd
  have hr : (0 : ℚ) < num / den := div_pos (by exact_mod_cast hn) hden
  have hplace : Int.log 2 ((num : ℚ) / den) = lastPlace num den + 52 := by
    unfold lastPlace at h ⊢
    omega
  generalize lastPlace num den = place at hplace h ⊢
  have hpow : (0 : ℚ) ≤ 2 ^ (-place) := zpow_nonneg zero_le_two _
  refine le_roundDiv_of_le (by positivity) ?_
  -- A normal number reaches the power at its logarithm, 52 places above the last.
  have hlog : (2 : ℚ) ^ (place + 52) ≤ num / den := by
    rw [← hplace]
    exact_mod_cast Int.zpow_log_le_self one_lt_two hr
  have hcast : (2 : ℚ) ^ 52 * (den * 2 ^ place.toNat) ≤ num * 2 ^ (-place).toNat := by
    rw [le_div_iff₀ hden] at hlog
    calc (2 : ℚ) ^ 52 * (den * 2 ^ place.toNat)
        = 2 ^ (place + 52) * den * 2 ^ (-place) * 2 ^ place.toNat := by
          rw [zpow_add₀ two_ne_zero, zpow_neg]
          field_simp
      _ ≤ num * 2 ^ (-place) * 2 ^ place.toNat := by gcongr
      _ = num * 2 ^ (-place).toNat := by rw [two_pow_toNat_neg, mul_assoc]
  exact_mod_cast hcast

/-- A quotient that is not greater is not rounded to greater bits. -/
theorem roundedBits_le_roundedBits (hn₁ : 0 < n₁) (h₁ : 0 < d₁) (hn₂ : 0 < n₂) (h₂ : 0 < d₂)
    (h : n₁ * d₂ ≤ n₂ * d₁) : roundedBits n₁ d₁ ≤ roundedBits n₂ d₂ := by
  have hr : (0 : ℚ) < n₁ / d₁ := div_pos (by exact_mod_cast hn₁) (by exact_mod_cast h₁)
  have hvalue : (n₁ : ℚ) / d₁ ≤ n₂ / d₂ := by
    rw [div_le_div_iff₀ (by exact_mod_cast h₁) (by exact_mod_cast h₂)]
    exact_mod_cast h
  have hplace : lastPlace n₁ d₁ ≤ lastPlace n₂ d₂ := by
    have hlog := Int.log_mono_right (b := 2) hr hvalue
    unfold lastPlace
    omega
  have hlowest (n d : Nat) : -1074 ≤ lastPlace n d := le_max_right _ _
  have hlow₁ := hlowest n₁ d₁
  rcases lt_or_eq_of_le hplace with hlt | heq
  · -- A carry out of the mantissa does not reach beyond the next exponent.
    have hcarry : mantissaAt n₁ d₁ (lastPlace n₁ d₁) ≤ 2 ^ 53 := mantissaAt_lastPlace_le h₁
    have hfull := le_mantissaAt_lastPlace hn₂ h₂ (lt_of_le_of_lt hlow₁ hlt)
    unfold roundedBits
    generalize mantissaAt n₁ d₁ (lastPlace n₁ d₁) = m₁ at hcarry ⊢
    generalize mantissaAt n₂ d₂ (lastPlace n₂ d₂) = m₂ at hfull ⊢
    omega
  · have hmantissa := mantissaAt_le_mantissaAt h₁ h₂ h (lastPlace n₁ d₁)
    unfold roundedBits
    rw [← heq]
    omega

theorem magnitudeBits_ofRatio (negative : Bool) (hn : 0 < num) (hd : 0 < den) :
    (ofRatio negative num den).magnitudeBits = min (roundedBits num den) infinityBits := by
  rw [ofRatio_eq_roundedBits negative hn hd,
    magnitudeBits_ofSignBits negative (lt_of_le_of_lt (min_le_right _ _) infinityBits_lt_signBit)]

/-- **Rounding to doubles keeps the order.** -/
theorem magnitudeBits_ofRatio_le (s₁ s₂ : Bool) (h₁ : 0 < d₁) (h₂ : 0 < d₂)
    (h : n₁ * d₂ ≤ n₂ * d₁) :
    (ofRatio s₁ n₁ d₁).magnitudeBits ≤ (ofRatio s₂ n₂ d₂).magnitudeBits := by
  rcases Nat.eq_zero_or_pos n₁ with rfl | hn₁
  · rw [ofRatio, if_pos rfl, magnitudeBits_ofSignBits s₁ (by decide)]
    exact Nat.zero_le _
  · have hn₂ : 0 < n₂ := by
      by_contra hzero
      have hpos := Nat.mul_pos hn₁ h₂
      rw [Nat.eq_zero_of_not_pos hzero, Nat.zero_mul] at h
      omega
    rw [magnitudeBits_ofRatio s₁ hn₁ h₁, magnitudeBits_ofRatio s₂ hn₂ h₂]
    exact min_le_min_right _ (roundedBits_le_roundedBits hn₁ h₁ hn₂ h₂ h)

/-- The value of a finite double has a positive denominator. -/
theorem magnitude_den_pos {d : Double} (h : d.magnitude? = some (num, den)) : 0 < den := by
  obtain ⟨k, -, rfl⟩ := magnitude_den h
  exact Nat.pow_pos (by decide)

/-- Doubles are ordered as their bits. -/
theorem magnitude_le {a b : Double} (ha : a.magnitude? = some (n₁, d₁))
    (hb : b.magnitude? = some (n₂, d₂)) (h : a.magnitudeBits ≤ b.magnitudeBits) :
    n₁ * d₂ ≤ n₂ * d₁ := by
  by_contra hlt
  have hbits (d : Double) : (ofSignBits false d.magnitudeBits).magnitudeBits = d.magnitudeBits :=
    magnitudeBits_ofSignBits false d.magnitudeBits_lt
  -- Both are nearest to their own values, so the greater value has no fewer bits.
  have hle := magnitudeBits_ofRatio_le false false (magnitude_den_pos hb) (magnitude_den_pos ha)
    (le_of_lt (not_le.mp hlt))
  rw [ofRatio_magnitude ha, ofRatio_magnitude hb, hbits, hbits] at hle
  have hsame : a.magnitude? = b.magnitude? := by
    rw [magnitude?, magnitude?, le_antisymm h hle]
  rw [ha, hb] at hsame
  obtain ⟨rfl, rfl⟩ := Prod.ext_iff.mp (Option.some.inj hsame)
  exact hlt le_rfl

end Double

end ShellAssist.Number
