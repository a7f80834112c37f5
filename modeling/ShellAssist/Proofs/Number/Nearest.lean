import ShellAssist.Proofs.Number.Digits
import Mathlib.Algebra.Order.Field.Basic
import Mathlib.Data.Int.Log
import Mathlib.Data.Rat.Floor
import Mathlib.Tactic.FieldSimp
import Mathlib.Tactic.Positivity
import Mathlib.Tactic.Ring

namespace ShellAssist.Number

/-!
# The nearest double to a quotient

Two laws of rounding to the nearest double carry the round trip of number texts:

* `Double.ofRatio_eq_of_cross` — the nearest double depends on the value of a quotient only, and not
  on the numerator and denominator that write it;
* `Double.ofRatio_magnitude` — a double is the nearest one to its own value.

The first law is used for decimals, where moving the decimal point and the exponent together changes
nothing. All sign cases are reduced to one by `Double.ofRatio_sign` and
`Double.eq_ofSignBits`, which split a double into its sign and its magnitude.
-/

/-! ### Rounded quotients -/

/-- A common factor of numerator and denominator does not change the rounded quotient. -/
theorem roundDiv_mul_right (num den : Nat) {c : Nat} (hc : 0 < c) :
    roundDiv (num * c) (den * c) = roundDiv num den := by
  have hdiv : num * c / (den * c) = num / den := Nat.mul_div_mul_right num den hc
  have hmod : 2 * (num * c % (den * c)) = 2 * (num % den) * c := by
    rw [Nat.mul_mod_mul_right, Nat.mul_assoc]
  have hlow : 2 * (num % den) * c < den * c ↔ 2 * (num % den) < den :=
    Nat.mul_lt_mul_right hc
  have hhigh : den * c < 2 * (num % den) * c ↔ den < 2 * (num % den) :=
    Nat.mul_lt_mul_right hc
  simp only [roundDiv, hdiv, hmod, hlow, hhigh]

/-- A whole quotient is not rounded. -/
theorem roundDiv_mul_self (q : Nat) {den : Nat} (hd : 0 < den) : roundDiv (q * den) den = q := by
  simp [roundDiv, Nat.mul_div_cancel q hd, Nat.mul_mod_left, hd]

/-! ### The binary exponent -/

namespace Double

/-- The comparison that decides the binary exponent, as one of rational numbers. -/
theorem zpow_le_div_iff (num : Nat) {den : Nat} (hd : 0 < den) (k : ℤ) :
    (2 : ℚ) ^ k ≤ num / den ↔
      (if k < 0 then den ≤ num * 2 ^ k.natAbs else den * 2 ^ k.toNat ≤ num) := by
  have hden : (0 : ℚ) < den := by exact_mod_cast hd
  rw [le_div_iff₀ hden]
  split
  · obtain ⟨n, rfl⟩ : ∃ n : Nat, k = -(n : ℤ) := ⟨k.natAbs, by omega⟩
    have hpow : (0 : ℚ) < 2 ^ n := by positivity
    rw [zpow_neg, zpow_natCast, inv_mul_le_iff₀ hpow, Int.natAbs_neg, Int.natAbs_natCast, mul_comm]
    exact_mod_cast Iff.rfl
  · obtain ⟨n, rfl⟩ : ∃ n : Nat, k = (n : ℤ) := ⟨k.toNat, by omega⟩
    rw [zpow_natCast, Int.toNat_natCast, mul_comm]
    exact_mod_cast Iff.rfl

/-- The logarithms of numerator and denominator leave two candidates for that of the quotient. -/
theorem log_div_mem {num den : Nat} (hn : 0 < num) (hd : 0 < den) :
    (num.log2 : ℤ) - den.log2 - 1 ≤ Int.log 2 ((num : ℚ) / den) ∧
      Int.log 2 ((num : ℚ) / den) < (num.log2 : ℤ) - den.log2 + 1 := by
  have hnum : (0 : ℚ) < num := by exact_mod_cast hn
  have hden : (0 : ℚ) < den := by exact_mod_cast hd
  have hr : (0 : ℚ) < num / den := div_pos hnum hden
  -- Numerator and denominator lie between neighbouring powers of two.
  have hnlo : (2 : ℚ) ^ num.log2 ≤ num := by exact_mod_cast Nat.log2_self_le hn.ne'
  have hnhi : (num : ℚ) < 2 ^ (num.log2 + 1) := by exact_mod_cast Nat.lt_log2_self
  have hdlo : (2 : ℚ) ^ den.log2 ≤ den := by exact_mod_cast Nat.log2_self_le hd.ne'
  have hdhi : (den : ℚ) ≤ 2 ^ (den.log2 + 1) := by exact_mod_cast Nat.lt_log2_self.le
  constructor
  · rw [← Int.zpow_le_iff_le_log one_lt_two hr, Nat.cast_ofNat, le_div_iff₀ hden]
    calc (2 : ℚ) ^ ((num.log2 : ℤ) - den.log2 - 1) * den
        ≤ 2 ^ ((num.log2 : ℤ) - den.log2 - 1) * 2 ^ (den.log2 + 1) :=
          mul_le_mul_of_nonneg_left hdhi (zpow_nonneg zero_le_two _)
      _ = 2 ^ num.log2 := by
          rw [← zpow_natCast, ← zpow_add₀ two_ne_zero, ← zpow_natCast]
          congr 1
          push_cast
          ring
      _ ≤ num := hnlo
  · rw [← Int.lt_zpow_iff_log_lt one_lt_two hr, Nat.cast_ofNat, div_lt_iff₀ hden]
    calc (num : ℚ) < 2 ^ (num.log2 + 1) := hnhi
      _ = 2 ^ ((num.log2 : ℤ) - den.log2 + 1) * 2 ^ den.log2 := by
          rw [← zpow_natCast, ← zpow_natCast, ← zpow_add₀ two_ne_zero]
          congr 1
          push_cast
          ring
      _ ≤ 2 ^ ((num.log2 : ℤ) - den.log2 + 1) * den :=
          mul_le_mul_of_nonneg_left hdlo (zpow_nonneg zero_le_two _)

/-- The binary exponent of a positive quotient is its logarithm rounded down. -/
theorem binaryExponent_eq_log {num den : Nat} (hn : 0 < num) (hd : 0 < den) :
    binaryExponent num den = Int.log 2 ((num : ℚ) / den) := by
  have hr : (0 : ℚ) < num / den := div_pos (by exact_mod_cast hn) (by exact_mod_cast hd)
  obtain ⟨hlo, hhi⟩ := log_div_mem hn hd
  unfold binaryExponent
  generalize (num.log2 : ℤ) - den.log2 = k at hlo hhi ⊢
  -- One comparison decides between the two candidates.
  have hdecide := zpow_le_div_iff num hd k
  have hlog := Int.zpow_le_iff_le_log (b := 2) one_lt_two hr (x := k)
  rw [Nat.cast_ofNat, hdecide] at hlog
  by_cases hk : k < 0
  · simp only [hk, if_true, pow2, Nat.pow_eq] at hlog ⊢
    split <;> omega
  · simp only [hk, if_false, pow2, Nat.pow_eq] at hlog ⊢
    split <;> omega

/-! ### Rounding depends on the value only -/

/-- A common factor of numerator and denominator does not change the nearest double. -/
theorem ofRatio_mul_right (negative : Bool) (num : Nat) {den c : Nat} (hd : 0 < den)
    (hc : 0 < c) : ofRatio negative (num * c) (den * c) = ofRatio negative num den := by
  rcases Nat.eq_zero_or_pos num with rfl | hn
  · simp [ofRatio]
  -- The exponent is a function of the value, and the rounded quotient drops the factor.
  have hexp : binaryExponent (num * c) (den * c) = binaryExponent num den := by
    rw [binaryExponent_eq_log (Nat.mul_pos hn hc) (Nat.mul_pos hd hc), binaryExponent_eq_log hn hd]
    have hcast : (c : ℚ) ≠ 0 := by exact_mod_cast hc.ne'
    rw [Nat.cast_mul, Nat.cast_mul, mul_div_mul_right _ _ hcast]
  have hne : num * c ≠ 0 := (Nat.mul_pos hn hc).ne'
  have habove (p : Nat) : num * c * p = num * p * c := Nat.mul_right_comm num c p
  have hbelow (p : Nat) : den * c * p = den * p * c := Nat.mul_right_comm den c p
  simp only [ofRatio, hexp, hne, hn.ne', if_false, habove, hbelow, roundDiv_mul_right _ _ hc]

/-- The nearest double depends on the value of a quotient only. -/
theorem ofRatio_eq_of_cross (negative : Bool) {n₁ d₁ n₂ d₂ : Nat} (h₁ : 0 < d₁) (h₂ : 0 < d₂)
    (h : n₁ * d₂ = n₂ * d₁) : ofRatio negative n₁ d₁ = ofRatio negative n₂ d₂ := by
  calc ofRatio negative n₁ d₁ = ofRatio negative (n₁ * d₂) (d₁ * d₂) :=
        (ofRatio_mul_right negative n₁ h₁ h₂).symm
    _ = ofRatio negative (n₂ * d₁) (d₂ * d₁) := by rw [h, Nat.mul_comm d₁ d₂]
    _ = ofRatio negative n₂ d₂ := ofRatio_mul_right negative n₂ h₂ h₁

/-! ### Sign and magnitude -/

theorem signBit_eq : signBit = 9223372036854775808 := rfl

theorem infinityBits_eq : infinityBits = 9218868437227405312 := rfl

theorem infinityBits_lt_signBit : infinityBits < signBit := by decide

theorem toNat_ofSignBits (negative : Bool) {bits : Nat} (h : bits < signBit) :
    (ofSignBits negative bits).bits.toNat = bits + if negative then signBit else 0 := by
  rw [signBit_eq] at h ⊢
  show (UInt64.ofNat _).toNat = _
  rw [UInt64.toNat_ofNat']
  cases negative
  · simp; omega
  · simp [signBit_eq]; omega

@[simp] theorem magnitudeBits_ofSignBits (negative : Bool) {bits : Nat} (h : bits < signBit) :
    (ofSignBits negative bits).magnitudeBits = bits := by
  unfold magnitudeBits
  rw [toNat_ofSignBits negative h]
  cases negative <;> simp [Nat.mod_eq_of_lt h]

theorem magnitudeBits_lt (d : Double) : d.magnitudeBits < signBit :=
  Nat.mod_lt _ (by decide)

/-- A double is its sign and its magnitude. -/
theorem eq_ofSignBits (d : Double) : ofSignBits d.isNegative d.magnitudeBits = d := by
  obtain ⟨bits⟩ := d
  have hlt : bits.toNat < 18446744073709551616 := bits.toNat_lt
  have hsum : (ofSignBits (isNegative ⟨bits⟩) (magnitudeBits ⟨bits⟩)).bits.toNat = bits.toNat := by
    rw [toNat_ofSignBits _ (magnitudeBits_lt _)]
    simp only [isNegative, magnitudeBits, signBit_eq]
    by_cases h : 9223372036854775808 ≤ bits.toNat
    · simp only [h, decide_true, if_true]; omega
    · simp only [h, decide_false, Bool.false_eq_true, if_false]; omega
  exact congrArg Double.mk (UInt64.toNat_inj.mp hsum)

/-- The magnitude of the nearest double does not depend on the sign, and is no larger than
    infinity. -/
theorem ofRatio_sign (num den : Nat) :
    ∃ bits ≤ infinityBits, ∀ negative, ofRatio negative num den = ofSignBits negative bits := by
  by_cases hn : num = 0
  · exact ⟨0, Nat.zero_le _, fun negative => by simp [ofRatio, hn]⟩
  · simp only [ofRatio, hn, if_false]
    exact ⟨_, Nat.min_le_right _ _, fun _ => rfl⟩

/-- The magnitude of a decimal does not depend on the sign, and is no larger than infinity. -/
theorem ofDecimal_sign (digits : Nat) (exponent : Int) :
    ∃ bits ≤ infinityBits,
      ∀ negative, ofDecimal negative digits exponent = ofSignBits negative bits := by
  unfold ofDecimal
  dsimp only
  split
  · exact ⟨0, Nat.zero_le _, fun _ => rfl⟩
  split
  · exact ⟨infinityBits, le_rfl, fun _ => rfl⟩
  split
  · exact ofRatio_sign _ _
  · exact ofRatio_sign _ _

/-- What holds of an unsigned decimal holds with either sign. -/
theorem ofDecimal_of_unsigned {digits : Nat} {exponent : Int} {bits : Nat} (hb : bits < signBit)
    (h : ofDecimal false digits exponent = ofSignBits false bits) (negative : Bool) :
    ofDecimal negative digits exponent = ofSignBits negative bits := by
  obtain ⟨found, hle, hall⟩ := ofDecimal_sign digits exponent
  have hfound : found < signBit := lt_of_le_of_lt hle infinityBits_lt_signBit
  have hsame : found = bits := by
    rw [← magnitudeBits_ofSignBits false hfound, ← hall false, h, magnitudeBits_ofSignBits _ hb]
  rw [hall negative, hsame]

/-- A decimal is never the value that is no number. -/
theorem isNaN_ofDecimal (negative : Bool) (digits : Nat) (exponent : Int) :
    (ofDecimal negative digits exponent).isNaN = false := by
  obtain ⟨bits, hle, hall⟩ := ofDecimal_sign digits exponent
  have hlt : bits < signBit := lt_of_le_of_lt hle infinityBits_lt_signBit
  simp [isNaN, hall, magnitudeBits_ofSignBits negative hlt, hle]

/-! ### A double is nearest to its own value -/

/-- The binary exponent of `mantissa * 2 ^ exponent`. -/
theorem binaryExponent_scaled {mantissa : Nat} (hm : 0 < mantissa) (exponent : Int) :
    binaryExponent (scaled mantissa exponent).1 (scaled mantissa exponent).2
      = (mantissa.log2 : ℤ) + exponent := by
  have hmq : (0 : ℚ) < mantissa := by exact_mod_cast hm
  have hpow : (0 : ℚ) < 2 ^ exponent := zpow_pos two_pos exponent
  have hlo : (2 : ℚ) ^ mantissa.log2 ≤ mantissa := by exact_mod_cast Nat.log2_self_le hm.ne'
  have hhi : (mantissa : ℚ) < 2 ^ (mantissa.log2 + 1) := by exact_mod_cast Nat.lt_log2_self
  have hvalue : (((scaled mantissa exponent).1 : ℚ) / (scaled mantissa exponent).2)
      = mantissa * 2 ^ exponent := by
    unfold scaled pow2
    split
    · obtain ⟨n, rfl⟩ : ∃ n : Nat, exponent = -(n : ℤ) := ⟨exponent.natAbs, by omega⟩
      simp [zpow_neg, div_eq_mul_inv]
    · obtain ⟨n, rfl⟩ : ∃ n : Nat, exponent = (n : ℤ) := ⟨exponent.toNat, by omega⟩
      simp
  have hpos : 0 < (scaled mantissa exponent).1 ∧ 0 < (scaled mantissa exponent).2 := by
    unfold scaled pow2
    split
    · exact ⟨hm, Nat.pow_pos (by decide)⟩
    · exact ⟨Nat.mul_pos hm (Nat.pow_pos (by decide)), Nat.one_pos⟩
  rw [binaryExponent_eq_log hpos.1 hpos.2, hvalue]
  have hr : (0 : ℚ) < mantissa * 2 ^ exponent := mul_pos hmq hpow
  -- The mantissa lies between two powers of two, and so does its multiple.
  have hlog₁ : (mantissa.log2 : ℤ) + exponent ≤ Int.log 2 ((mantissa : ℚ) * 2 ^ exponent) := by
    rw [← Int.zpow_le_iff_le_log one_lt_two hr, Nat.cast_ofNat, zpow_add₀ two_ne_zero, zpow_natCast]
    exact mul_le_mul_of_nonneg_right hlo hpow.le
  have hlog₂ : Int.log 2 ((mantissa : ℚ) * 2 ^ exponent) < (mantissa.log2 : ℤ) + exponent + 1 := by
    rw [← Int.lt_zpow_iff_log_lt one_lt_two hr, Nat.cast_ofNat, add_right_comm,
      zpow_add₀ two_ne_zero, ← Nat.cast_succ, zpow_natCast]
    exact mul_lt_mul_of_pos_right hhi hpow
  omega

/-- A mantissa of at most 53 bits, with the lowest exponent if it has fewer, is not rounded. -/
theorem ofRatio_scaled (negative : Bool) {mantissa : Nat} {exponent : Int} (hm : 0 < mantissa)
    (hbits : mantissa < 2 ^ 53) (hexp : -1074 ≤ exponent)
    (hfull : 2 ^ 52 ≤ mantissa ∨ exponent = -1074) :
    ofRatio negative (scaled mantissa exponent).1 (scaled mantissa exponent).2
      = ofSignBits negative (min ((exponent + 1074).toNat * pow2 52 + mantissa) infinityBits) := by
  have hlog : mantissa.log2 < 53 := (Nat.log2_lt hm.ne').mpr hbits
  -- The exponent found by rounding is the given one,
  have hplace : max ((mantissa.log2 : ℤ) + exponent - 52) (-1074) = exponent := by
    rcases hfull with h | h
    · have : 52 ≤ mantissa.log2 := (Nat.le_log2 hm.ne').mpr h
      omega
    · omega
  -- and the quotient at that exponent is whole.
  have hround : (if exponent < 0
        then roundDiv ((scaled mantissa exponent).1 * pow2 exponent.natAbs)
          (scaled mantissa exponent).2
        else roundDiv (scaled mantissa exponent).1
          ((scaled mantissa exponent).2 * pow2 exponent.toNat)) = mantissa := by
    have hpow (n : Nat) : 0 < pow2 n := Nat.pow_pos (by decide)
    by_cases h : exponent < 0
    · simp only [h, if_true, scaled]
      exact roundDiv_mul_self mantissa (hpow _)
    · simp only [h, if_false, scaled, Nat.one_mul]
      exact roundDiv_mul_self mantissa (hpow _)
  have hne : (scaled mantissa exponent).1 ≠ 0 := by
    unfold scaled pow2
    split
    · exact hm.ne'
    · exact (Nat.mul_pos hm (Nat.pow_pos (by decide))).ne'
  simp only [ofRatio, hne, if_false, binaryExponent_scaled hm, hplace, hround]

/-- A mantissa and an exponent are those of a finite double's bits. -/
structure IsParts (bits mantissa : Nat) (exponent : Int) : Prop where
  finite : bits < infinityBits
  narrow : mantissa < 2 ^ 53
  lowest : -1074 ≤ exponent
  highest : exponent ≤ 971
  full : 2 ^ 52 ≤ mantissa ∨ exponent = -1074
  bits_eq : bits = (exponent + 1074).toNat * 2 ^ 52 + mantissa

theorem isParts_parts {bits : Nat} (h : bits < infinityBits) :
    IsParts bits (parts bits).1 (parts bits).2 := by
  have hfinite := h
  rw [infinityBits_eq] at h
  unfold parts
  rw [show pow2 52 = 4503599627370496 from rfl]
  -- Below the first full mantissa the bits are the mantissa themselves.
  by_cases hsmall : bits < 4503599627370496
  · rw [if_pos hsmall]
    exact ⟨hfinite, by omega, le_rfl, show (-1074 : Int) ≤ 971 by decide, .inr rfl, by simp⟩
  · rw [if_neg hsmall]
    exact ⟨hfinite, by omega, by omega, by omega, .inl (by omega), by omega⟩

/-- The value of a finite double is made of its parts. -/
theorem magnitude?_eq_some {d : Double} {num den : Nat} (h : d.magnitude? = some (num, den)) :
    ∃ mantissa exponent, IsParts d.magnitudeBits mantissa exponent ∧
      num = (scaled mantissa exponent).1 ∧ den = (scaled mantissa exponent).2 := by
  unfold magnitude? at h
  split at h
  · rename_i hfinite
    have hscaled : scaled (parts d.magnitudeBits).1 (parts d.magnitudeBits).2 = (num, den) :=
      Option.some.inj h
    exact ⟨_, _, isParts_parts hfinite, by rw [hscaled], by rw [hscaled]⟩
  · cases h

/-- A double is the nearest one to its own value. -/
theorem ofRatio_magnitude {d : Double} {num den : Nat} (h : d.magnitude? = some (num, den))
    (negative : Bool) : ofRatio negative num den = ofSignBits negative d.magnitudeBits := by
  obtain ⟨mantissa, exponent, hparts, rfl, rfl⟩ := magnitude?_eq_some h
  have hfinite := hparts.finite
  have hbits := hparts.bits_eq
  rcases Nat.eq_zero_or_pos mantissa with rfl | hpos
  · -- Only the lowest exponent goes with a mantissa of zero, so the bits are zero.
    have hzero : d.magnitudeBits = 0 := by
      have hlowest := hparts.full.resolve_left (by decide)
      rw [hbits, hlowest]
      rfl
    have hnum : (scaled 0 exponent).1 = 0 := by
      unfold scaled
      split <;> simp
    rw [hzero, hnum, ofRatio, if_pos rfl]
  · rw [ofRatio_scaled negative hpos hparts.narrow hparts.lowest hparts.full,
      show pow2 52 = 2 ^ 52 from rfl, ← hbits, Nat.min_eq_left hfinite.le]

/-- The value of a finite double has a positive denominator of at most 2^1074. -/
theorem magnitude_den {d : Double} {num den : Nat} (h : d.magnitude? = some (num, den)) :
    ∃ k ≤ 1074, den = 2 ^ k := by
  obtain ⟨mantissa, exponent, hparts, -, rfl⟩ := magnitude?_eq_some h
  have hlowest := hparts.lowest
  unfold scaled
  split
  · exact ⟨exponent.natAbs, by omega, rfl⟩
  · exact ⟨0, by omega, rfl⟩

end Double

end ShellAssist.Number
