import Mathlib

namespace ShellAssist.FloatBounds

/-!
# Bounds of floating-point results

A result is rounded to 53 bits, and so stays between the powers of two that the exact one is between. It
is lost only where it gets smaller than all normal numbers; where it gets too large it is infinity.

* `Between` — numbers between two powers of two;
* `between_round` — rounding keeps a number between powers of two;
* `unpack_pack` — normal numbers are stored as they are, and infinity for those that are too large;
* `between_mul`, `between_div`, `between_one_sub` — results between powers of two;
* `AtLeast` — numbers from a power of two on, infinity included;
* `AtLeast.add`, `AtLeast.mul`, `AtLeast.div` — results from a power of two on;
* `between_ofNat` — what a natural number is stored as.
-/

open Float.Model
open Float.Model.UnpackedFloat (Sign ExtendedMantissa Accuracy roundWithAccuracy shiftToTargetExponent
  shiftToExponent packedInfinity unpackSign_packComponents unpackMantissa_packComponents
  unpackExponent_packComponents)

/-- The positive number `mantissa * 2 ^ exponent`, with as many bits as a mantissa has room for. -/
def IsNormal (a : UnpackedFloat) (mantissa : Nat) (exponent : Int) : Prop :=
  2 ^ 52 ≤ mantissa ∧ mantissa < 2 ^ 53 ∧ ∃ h, a = .finite .positive mantissa exponent h

/-- A number from `2 ^ i` to `2 ^ j`. -/
def Between (i j : Int) (a : UnpackedFloat) : Prop :=
  ∃ mantissa exponent, IsNormal a mantissa exponent ∧ i ≤ exponent + 52 ∧
    (exponent + 52 < j ∨ exponent + 52 = j ∧ mantissa = 2 ^ 52)

/-- A window may be made wider. -/
theorem Between.mono {i i' j j' : Int} {a : UnpackedFloat} (h : Between i j a) (hi : i' ≤ i) (hj : j ≤ j') :
    Between i' j' a := by
  obtain ⟨mantissa, exponent, hnormal, hlower, hupper⟩ := h
  refine ⟨mantissa, exponent, hnormal, by omega, ?_⟩
  rcases hupper with hlt | ⟨heq, hpow⟩
  · exact .inl (by omega)
  · rcases hj.lt_or_eq with hlt | rfl
    · exact .inl (by omega)
    · exact .inr ⟨heq, hpow⟩

/-! ### Rounding -/

/-- A shift to the right divides the mantissa. -/
theorem mantissa_shiftRight (em : ExtendedMantissa) (n : Nat) :
    (em >>> n).mantissa = em.mantissa / 2 ^ n := by
  induction n with
  | zero => exact (Nat.div_one _).symm
  | succ n ih =>
    show (em >>> n).mantissa / 2 = _
    rw [ih, Nat.div_div_eq_div_mul, Nat.pow_succ]

/-- A power of two is shifted without a rest. -/
theorem shiftRight_pow (k n : Nat) :
    (⟨2 ^ (k + n), false, false⟩ : ExtendedMantissa) >>> n = ⟨2 ^ k, false, false⟩ := by
  induction n generalizing k with
  | zero => rfl
  | succ n ih =>
    have hfirst := ih (k + 1)
    rw [Nat.add_right_comm k 1 n] at hfirst
    show ((⟨2 ^ (k + n + 1), false, false⟩ : ExtendedMantissa) >>> n).shiftRightOne = _
    rw [hfirst, ExtendedMantissa.shiftRightOne]
    simp [Nat.pow_succ]

/-- Rounding makes a mantissa larger by one at most, and never smaller. -/
theorem roundedMantissa_bounds (em : ExtendedMantissa) :
    em.mantissa ≤ em.roundedMantissa ∧ em.roundedMantissa ≤ em.mantissa + 1 := by
  obtain ⟨mantissa, roundBit, stickyBit⟩ := em
  cases roundBit <;> cases stickyBit <;>
    simp only [ExtendedMantissa.roundedMantissa, ExtendedMantissa.accuracy,
      Accuracy.roundToNearestEven] <;> omega

/-- The bits that were cut off are kept beside the mantissa. -/
theorem mantissa_ofMantissaAndAccuracy (mantissa : Nat) (accuracy : Accuracy) :
    (ExtendedMantissa.ofMantissaAndAccuracy mantissa accuracy).mantissa = mantissa := by
  obtain _ | _ | _ | _ := accuracy <;> rfl

/-- The last place of a number that is not small is 53 bits below its first. -/
theorem targetExponent_of_normal {t : Int} (h : -1021 ≤ t) :
    Format.binary64.targetExponent t = t - 53 := by
  have hbits : (Format.binary64.mantissaBits : Int) = 53 := rfl
  have hmin : Format.binary64.minExponent = -1074 := rfl
  rw [Format.targetExponent, hbits, hmin]
  omega

/-- A mantissa with enough bits is cut down to those that there is room for. -/
theorem shiftToTargetExponent_of_normal {mantissa k : Nat} {exponent : Int} (accuracy : Accuracy)
    (hbits : mantissa.log2 = 52 + k) (hnormal : -1022 ≤ mantissa.log2 + exponent) :
    shiftToTargetExponent Format.binary64 mantissa exponent accuracy
      = (ExtendedMantissa.ofMantissaAndAccuracy mantissa accuracy >>> k, exponent + k) := by
  have htarget : Format.binary64.targetExponent (totalExponent mantissa exponent) = exponent + k := by
    rw [totalExponent, targetExponent_of_normal (by omega)]
    omega
  have hamount : (exponent + k - exponent).toNat = k := by omega
  rw [shiftToTargetExponent, htarget, shiftToExponent, hamount]

/-- The logarithm of a number in a window of two powers. -/
theorem log2_eq {m k : Nat} (hlower : 2 ^ k ≤ m) (hupper : m < 2 ^ (k + 1)) : m.log2 = k :=
  (Nat.log2_eq_iff (Nat.ne_of_gt ((Nat.two_pow_pos k).trans_le hlower))).mpr ⟨hlower, hupper⟩

/-- A mantissa with at least 53 bits is rounded within the window that its first bit gives. -/
theorem between_round_log2 {mantissa : Nat} {exponent : Int} (accuracy : Accuracy)
    (hbits : 52 ≤ mantissa.log2) (hnormal : -1022 ≤ mantissa.log2 + exponent) :
    Between (mantissa.log2 + exponent) (mantissa.log2 + exponent + 1)
      (roundWithAccuracy Format.binary64 .positive mantissa exponent accuracy) := by
  obtain ⟨k, hk⟩ := Nat.exists_eq_add_of_le hbits
  have hne : mantissa ≠ 0 := by
    rintro rfl
    simp at hbits
  obtain ⟨hlower, hupper⟩ := (Nat.log2_eq_iff hne).mp hk
  have hcut : (ExtendedMantissa.ofMantissaAndAccuracy mantissa accuracy >>> k).mantissa
      = mantissa / 2 ^ k := by
    rw [mantissa_shiftRight, mantissa_ofMantissaAndAccuracy]
  have hcutLower : 2 ^ 52 ≤ mantissa / 2 ^ k := by
    rwa [Nat.le_div_iff_mul_le (Nat.two_pow_pos k), ← Nat.pow_add]
  have hcutUpper : mantissa / 2 ^ k < 2 ^ 53 := by
    rwa [Nat.div_lt_iff_lt_mul (Nat.two_pow_pos k), ← Nat.pow_add, Nat.add_right_comm 52 1 k]
  obtain ⟨hroundLower, hroundUpper⟩ :=
    roundedMantissa_bounds (ExtendedMantissa.ofMantissaAndAccuracy mantissa accuracy >>> k)
  rw [hcut] at hroundLower hroundUpper
  rw [roundWithAccuracy, shiftToTargetExponent_of_normal accuracy hk hnormal]
  dsimp only
  generalize (ExtendedMantissa.ofMantissaAndAccuracy mantissa accuracy >>> k).roundedMantissa = rounded
    at *
  have hpos : 2 ^ 52 ≠ 0 := by decide
  rcases Nat.lt_or_ge rounded (2 ^ 53) with hfits | hcarry
  · have hlog : rounded.log2 = 52 + 0 := log2_eq (by omega) hfits
    have hpos : rounded ≠ 0 := by omega
    rw [shiftToTargetExponent_of_normal .exact hlog (by omega)]
    exact ⟨rounded, exponent + k + (0 : Nat), ⟨by omega, hfits, _, dif_neg hpos⟩, by omega, .inl (by omega)⟩
  · -- The mantissa has become one bit too long.
    obtain rfl : rounded = 2 ^ 53 := by omega
    have hlog : (2 ^ 53).log2 = 52 + 1 := Nat.log2_two_pow
    have hcut : ExtendedMantissa.ofMantissaAndAccuracy (2 ^ 53) .exact >>> 1 = ⟨2 ^ 52, false, false⟩ :=
      shiftRight_pow 52 1
    rw [shiftToTargetExponent_of_normal .exact hlog (by omega), hcut]
    exact ⟨2 ^ 52, exponent + k + (1 : Nat), ⟨le_rfl, by decide, _, dif_neg hpos⟩, by omega,
      .inr ⟨by omega, rfl⟩⟩

/-- **Rounding keeps a number between powers of two.** -/
theorem between_round {mantissa p q : Nat} {exponent : Int} (accuracy : Accuracy) (hbits : 52 ≤ p)
    (hlower : 2 ^ p ≤ mantissa) (hupper : mantissa < 2 ^ q) (hnormal : -1022 ≤ p + exponent) :
    Between (p + exponent) (q + exponent)
      (roundWithAccuracy Format.binary64 .positive mantissa exponent accuracy) := by
  have hne : mantissa ≠ 0 := Nat.ne_of_gt ((Nat.two_pow_pos p).trans_le hlower)
  have hlogLower : p ≤ mantissa.log2 := (Nat.le_log2 hne).mpr hlower
  have hlogUpper : mantissa.log2 < q := (Nat.log2_lt hne).mpr hupper
  exact (between_round_log2 accuracy (by omega) (by omega)).mono (by omega) (by omega)

/-- A power of two stays as it is. -/
theorem between_round_pow {k : Nat} {exponent : Int} (hbits : 52 ≤ k) (hnormal : -1022 ≤ k + exponent) :
    Between (k + exponent) (k + exponent)
      (roundWithAccuracy Format.binary64 .positive (2 ^ k) exponent .exact) := by
  obtain ⟨n, rfl⟩ := Nat.exists_eq_add_of_le hbits
  have hlog : (2 ^ (52 + n)).log2 = 52 + n := Nat.log2_two_pow
  have hcut : ExtendedMantissa.ofMantissaAndAccuracy (2 ^ (52 + n)) .exact >>> n
      = ⟨2 ^ 52, false, false⟩ := shiftRight_pow 52 n
  have hlast : (2 ^ 52).log2 = 52 + 0 := Nat.log2_two_pow
  have hrounded : (⟨2 ^ 52, false, false⟩ : ExtendedMantissa).roundedMantissa = 2 ^ 52 := rfl
  have hpos : 2 ^ 52 ≠ 0 := by decide
  rw [roundWithAccuracy, shiftToTargetExponent_of_normal .exact hlog (by omega), hcut]
  dsimp only
  rw [hrounded, shiftToTargetExponent_of_normal .exact hlast (by omega)]
  exact ⟨2 ^ 52, exponent + n + (0 : Nat), ⟨le_rfl, by decide, _, dif_neg hpos⟩, by omega,
    .inr ⟨by omega, rfl⟩⟩

/-- A mantissa of any length is brought to 53 bits. -/
theorem between_roundAny {mantissa p q : Nat} {exponent : Int} (hlower : 2 ^ p ≤ mantissa)
    (hupper : mantissa < 2 ^ q) (hnormal : -1022 ≤ p + exponent) :
    Between (p + exponent) (q + exponent)
      (UnpackedFloat.round Format.binary64 .positive mantissa exponent) := by
  have hne : mantissa ≠ 0 := Nat.ne_of_gt ((Nat.two_pow_pos p).trans_le hlower)
  have hlogLower : p ≤ mantissa.log2 := (Nat.le_log2 hne).mpr hlower
  have hlogUpper : mantissa.log2 < q := (Nat.log2_lt hne).mpr hupper
  obtain ⟨hlogLower', hlogUpper'⟩ := (Nat.log2_eq_iff hne).mp rfl
  have htarget : Format.binary64.targetExponent (totalExponent mantissa exponent)
      = mantissa.log2 + exponent - 52 := by
    rw [totalExponent, targetExponent_of_normal (by omega)]
    omega
  have hamount : (exponent - (mantissa.log2 + exponent - 52)).toNat = 52 - mantissa.log2 := by omega
  rw [UnpackedFloat.round, htarget, UnpackedFloat.decreaseExponent, hamount]
  dsimp only
  rw [Nat.shiftLeft_eq]
  -- Shifted to 53 bits the mantissa lies between the two powers it lay between before.
  have hmore : 2 ^ (mantissa.log2 + (52 - mantissa.log2)) ≤ mantissa * 2 ^ (52 - mantissa.log2) := by
    rw [Nat.pow_add]
    exact Nat.mul_le_mul_right _ hlogLower'
  have hless : mantissa * 2 ^ (52 - mantissa.log2) < 2 ^ (mantissa.log2 + 1 + (52 - mantissa.log2)) := by
    rw [Nat.pow_add]
    exact Nat.mul_lt_mul_of_pos_right hlogUpper' (Nat.two_pow_pos _)
  exact (between_round .exact (by omega) hmore hless (by push_cast; omega)).mono (by push_cast; omega)
    (by push_cast; omega)

/-- A positive number is normalized by rounding it. -/
theorem normalize_natCast {spec : Format} {mantissa : Nat} {exponent : Int} {zeroSign : Sign}
    (h : 0 < mantissa) :
    UnpackedFloat.normalize spec mantissa exponent zeroSign
      = UnpackedFloat.round spec .positive mantissa exponent := by
  have hcompare : compare (mantissa : Int) 0 = .gt := compare_gt_iff_gt.mpr (Int.natCast_pos.mpr h)
  rw [UnpackedFloat.normalize, hcompare]
  rfl

/-! ### Storing -/

/-- Infinity is stored as infinity. -/
theorem unpack_packedInfinity :
    UnpackedFloat.unpack Format.binary64 (packedInfinity Format.binary64 .positive)
      = .infinity .positive :=
  rfl

/-- The highest bit of a mantissa is not stored. -/
theorem toNat_implicitBit {mantissa : Nat} (hlower : 2 ^ 52 ≤ mantissa) (hupper : mantissa < 2 ^ 53) :
    (1#1 ++ BitVec.ofNat 52 mantissa).toNat = mantissa := by
  have hrest : mantissa % 2 ^ 52 < 2 ^ 52 := Nat.mod_lt _ (by decide)
  rw [BitVec.toNat_append, BitVec.toNat_ofNat, BitVec.toNat_ofNat,
    ← Nat.shiftLeft_add_eq_or_of_lt hrest, Nat.shiftLeft_eq]
  omega

/-- **Normal numbers are stored as they are**, and infinity for those that are too large. -/
theorem unpack_pack {a : UnpackedFloat} {mantissa : Nat} {exponent : Int}
    (h : IsNormal a mantissa exponent) (hexponent : -1074 ≤ exponent) :
    (Float.Model.pack a).unpack = if exponent ≤ 971 then a else .infinity .positive := by
  show UnpackedFloat.unpack Format.binary64 (UnpackedFloat.pack Format.binary64 a) = _
  obtain ⟨hlower, hupper, hpos, rfl⟩ := h
  have hlog : mantissa.log2 = 52 := log2_eq hlower hupper
  have hbias : (Format.binary64.exponentBias : Int) + Format.binary64.mantissaBitsWithoutImplicit
      = 1075 := rfl
  obtain ⟨biased, hbiased⟩ := Int.eq_ofNat_of_zero_le (by omega : 0 ≤ exponent + 1075)
  have hfield : (exponent + Format.binary64.exponentBias
      + Format.binary64.mantissaBitsWithoutImplicit).toNat = biased := by omega
  rw [UnpackedFloat.pack]
  simp only [hlog, hfield]
  -- Above the largest exponent there is no field left but that of infinity.
  by_cases hlarge : exponent ≤ 971
  · have hfits : ¬2 ^ Format.binary64.exponentBits ≤ biased + 1 := by
      show ¬2 ^ 11 ≤ biased + 1
      omega
    have hbits : 52 + 1 = Format.binary64.mantissaBits := rfl
    have hmantissa := toNat_implicitBit hlower hupper
    have hexp : (BitVec.ofNat 11 biased).toNat = biased := by
      rw [BitVec.toNat_ofNat, Nat.mod_eq_of_lt (by omega)]
    -- The field is neither of the two that stand for special numbers.
    have hspecial : BitVec.ofNat 11 biased ≠ -1#11 := by
      intro heq
      have heq : biased = 2047 := hexp.symm.trans (congrArg BitVec.toNat heq)
      omega
    have hzero : BitVec.ofNat 11 biased ≠ 0#11 := by
      intro heq
      have heq : biased = 0 := hexp.symm.trans (congrArg BitVec.toNat heq)
      omega
    rw [if_neg hfits, if_pos hbits, if_pos hlarge, UnpackedFloat.unpack]
    simp only [unpackMantissa_packComponents, unpackExponent_packComponents, unpackSign_packComponents]
    rw [if_neg hspecial, if_neg hzero]
    congr 1
    show ((BitVec.ofNat 11 biased).toNat : Int) - 1075 = exponent
    omega
  · have hover : 2 ^ Format.binary64.exponentBits ≤ biased + 1 := by
      show 2 ^ 11 ≤ biased + 1
      omega
    rw [if_pos hover, if_neg hlarge, unpack_packedInfinity]

/-- A number in a window of normal numbers is stored as it is. -/
theorem Between.pack {i j : Int} {a : UnpackedFloat} (h : Between i j a) (hi : -1022 ≤ i) (hj : j ≤ 1023) :
    Between i j (Float.Model.pack a).unpack := by
  obtain ⟨mantissa, exponent, hnormal, hlower, hupper⟩ := h
  rw [unpack_pack hnormal (by omega), if_pos (by omega)]
  exact ⟨mantissa, exponent, hnormal, hlower, hupper⟩

/-! The result of an operation on stored numbers is stored. -/

section Stored

variable (a b : Float)

/-- A sum of doubles is the sum of what they stand for, rounded and stored. -/
theorem unpack_add : (a + b).toModel.unpack
    = (Float.Model.pack (.add Format.binary64 a.toModel.unpack b.toModel.unpack)).unpack :=
  rfl

/-- So is a difference. -/
theorem unpack_sub : (a - b).toModel.unpack
    = (Float.Model.pack (.sub Format.binary64 a.toModel.unpack b.toModel.unpack)).unpack :=
  rfl

/-- So is a product. -/
theorem unpack_mul : (a * b).toModel.unpack
    = (Float.Model.pack (.mul Format.binary64 a.toModel.unpack b.toModel.unpack)).unpack :=
  rfl

/-- So is a quotient. -/
theorem unpack_div : (a / b).toModel.unpack
    = (Float.Model.pack (.div Format.binary64 a.toModel.unpack b.toModel.unpack)).unpack :=
  rfl

end Stored

/-! ### Results between powers of two -/

section Operations

variable {i j k l : Int} {a b : UnpackedFloat}

/-- The windows of two factors give one of the product. -/
theorem between_mul (ha : Between i j a) (hb : Between k l b) (h : -1022 ≤ i + k) :
    Between (i + k) (j + l) (UnpackedFloat.mul Format.binary64 a b) := by
  obtain ⟨m, e, ⟨hm, hm', hpos, rfl⟩, hi, hj⟩ := ha
  obtain ⟨n, f, ⟨hn, hn', hpos', rfl⟩, hk, hl⟩ := hb
  show Between _ _ (roundWithAccuracy Format.binary64 .positive (m * n) (e + f) .exact)
  have hlower : 2 ^ 104 ≤ m * n := Nat.pow_add 2 52 52 ▸ Nat.mul_le_mul hm hn
  have hround {q : Nat} (hupper : m * n < 2 ^ q) : Between (104 + (e + f)) (q + (e + f))
      (roundWithAccuracy Format.binary64 .positive (m * n) (e + f) .exact) :=
    between_round .exact (by decide) hlower hupper (by push_cast; omega)
  rcases hj with hj | ⟨hj, rfl⟩ <;> rcases hl with hl | ⟨hl, rfl⟩
  · have hupper : m * n < 2 ^ 106 := Nat.pow_add 2 53 53 ▸ Nat.mul_lt_mul'' hm' hn'
    exact (hround hupper).mono (by omega) (by push_cast; omega)
  · have hupper : m * 2 ^ 52 < 2 ^ 105 := by omega
    exact (hround hupper).mono (by omega) (by push_cast; omega)
  · have hupper : 2 ^ 52 * n < 2 ^ 105 := by omega
    exact (hround hupper).mono (by omega) (by push_cast; omega)
  · -- Both numbers are powers of two.
    exact (between_round_pow (k := 104) (by decide) (by push_cast; omega)).mono (by push_cast; omega)
      (by push_cast; omega)

/-- The quotient of two mantissas is taken to 53 bits behind the point. -/
theorem divCore_of_normal {m n : Nat} {e f : Int} (hm : 2 ^ 52 ≤ m ∧ m < 2 ^ 53)
    (hn : 2 ^ 52 ≤ n ∧ n < 2 ^ 53) (h : -1021 ≤ e - f) :
    UnpackedFloat.divCore Format.binary64 m e n f
      = (m * 2 ^ 53 / n, e - f - 53, UnpackedFloat.accuracyOfFraction (m * 2 ^ 53 % n) n) := by
  have hlog : m.log2 = 52 := log2_eq hm.1 hm.2
  have hlog' : n.log2 = 52 := log2_eq hn.1 hn.2
  have htarget : Format.binary64.targetExponent (totalExponent m e - totalExponent n f) = e - f - 53 := by
    rw [totalExponent, totalExponent, hlog, hlog', targetExponent_of_normal (by omega)]
    omega
  have hmin : min (e - f) (e - f - 53) = e - f - 53 := by omega
  have hamount : (e - f - (e - f - 53)).toNat = 53 := by omega
  rw [UnpackedFloat.divCore, htarget, hmin, hamount, Nat.shiftLeft_eq]

/-- The windows of two numbers give one of the quotient. -/
theorem between_div (ha : Between i j a) (hb : Between k l b) (h : -1022 < i - l) :
    Between (i - l) (j - k) (UnpackedFloat.div Format.binary64 a b) := by
  obtain ⟨m, e, ⟨hm, hm', hpos, rfl⟩, hi, hj⟩ := ha
  obtain ⟨n, f, ⟨hn, hn', hpos', rfl⟩, hk, hl⟩ := hb
  show Between _ _ (roundWithAccuracy Format.binary64 .positive
    (UnpackedFloat.divCore Format.binary64 m e n f).1 (UnpackedFloat.divCore Format.binary64 m e n f).2.1
    (UnpackedFloat.divCore Format.binary64 m e n f).2.2)
  rw [divCore_of_normal ⟨hm, hm'⟩ ⟨hn, hn'⟩ (by omega)]
  rcases Nat.lt_or_ge m n with hlt | hle
  · have hlower : 2 ^ 52 ≤ m * 2 ^ 53 / n := by
      rw [Nat.le_div_iff_mul_le hpos']
      omega
    have hupper : m * 2 ^ 53 / n < 2 ^ 53 := by
      rw [Nat.div_lt_iff_lt_mul hpos']
      omega
    exact (between_round _ (by decide) hlower hupper (by push_cast; omega)).mono (by push_cast; omega)
      (by push_cast; omega)
  · have hlower : 2 ^ 53 ≤ m * 2 ^ 53 / n := by
      rw [Nat.le_div_iff_mul_le hpos']
      omega
    have hupper : m * 2 ^ 53 / n < 2 ^ 54 := by
      rw [Nat.div_lt_iff_lt_mul hpos']
      omega
    rcases hj with hj | ⟨hj, rfl⟩
    · exact (between_round _ (by decide) hlower hupper (by push_cast; omega)).mono (by push_cast; omega)
        (by push_cast; omega)
    · -- Both numbers are powers of two.
      obtain rfl : n = 2 ^ 52 := by omega
      exact (between_round_pow (k := 53) (by decide) (by push_cast; omega)).mono (by push_cast; omega)
        (by push_cast; omega)

/-- What is left of one if it gets lower by at most a half. -/
theorem between_one_sub (ha : Between 0 0 a) (hb : Between k (-1) b) :
    Between (-1) 0 (UnpackedFloat.sub Format.binary64 a b) := by
  obtain ⟨m, e, ⟨hm, hm', hpos, rfl⟩, hi, hj⟩ := ha
  obtain ⟨n, f, ⟨hn, hn', hpos', rfl⟩, hk, hl⟩ := hb
  obtain ⟨rfl, rfl⟩ : e = -52 ∧ m = 2 ^ 52 := by omega
  obtain ⟨d, rfl⟩ : ∃ d : Nat, f = -53 - d := ⟨(-53 - f).toNat, by omega⟩
  have hmin : min (-52) (-53 - (d : Int)) = -53 - d := by omega
  have hamount : (-52 - (-53 - (d : Int))).toNat = d + 1 := by omega
  -- The number taken away is a half at most, so a half at least is left.
  have hhalf : n ≤ 2 ^ (52 + d) := by
    rcases hl with hlt | ⟨heq, rfl⟩
    · exact hn'.le.trans (Nat.pow_le_pow_right (by decide) (by omega))
    · exact Nat.pow_le_pow_right (by decide) (Nat.le_add_right 52 d)
  have htwice : 2 ^ (53 + d) = 2 ^ (52 + d) * 2 := by
    rw [← Nat.pow_succ, Nat.succ_eq_add_one, Nat.add_right_comm]
  have hone : 2 ^ 52 * 2 ^ (d + 1) = 2 ^ (53 + d) := by
    rw [← Nat.pow_add, Nat.add_comm d 1, ← Nat.add_assoc]
  have hcast : ((2 ^ 52 * 2 ^ (d + 1) : Nat) : Int) - n = (2 ^ 52 * 2 ^ (d + 1) - n : Nat) := by omega
  rw [UnpackedFloat.sub]
  simp only [hmin, UnpackedFloat.decreaseExponent, hamount, Int.sub_self, Int.toNat_zero,
    Nat.shiftLeft_eq, Nat.pow_zero, Nat.mul_one, Sign.apply]
  rw [hcast, normalize_natCast (by omega)]
  exact (between_roundAny (p := 52 + d) (q := 53 + d) (by omega) (by omega) (by omega)).mono
    (by omega) (by omega)

/-! ### Results with zero -/

/-- Zero is stored as zero. -/
theorem unpack_pack_zero : (Float.Model.pack (.zero .positive)).unpack = .zero .positive :=
  UnpackedFloat.unpack_packedZero

/-- The number zero is made as zero. -/
theorem unpack_zero : (Float.ofNat 0).toModel.unpack = .zero .positive :=
  rfl

/-- Zero over a number in a window is zero. -/
theorem Between.zero_div (h : Between i j a) :
    UnpackedFloat.div Format.binary64 (.zero .positive) a = .zero .positive := by
  obtain ⟨_, _, ⟨_, _, _, rfl⟩, _⟩ := h
  rfl

/-- Zero times such a number is zero. -/
theorem Between.zero_mul (h : Between i j a) :
    UnpackedFloat.mul Format.binary64 (.zero .positive) a = .zero .positive := by
  obtain ⟨_, _, ⟨_, _, _, rfl⟩, _⟩ := h
  rfl

/-- Nothing is left out when zero is taken away. -/
theorem Between.sub_zero (h : Between i j a) :
    UnpackedFloat.sub Format.binary64 a (.zero .positive) = a := by
  obtain ⟨_, _, ⟨_, _, _, rfl⟩, _⟩ := h
  rfl

end Operations

/-! ### Numbers from a power of two on -/

/-- A number from `2 ^ i` on, infinity included. -/
def AtLeast (i : Int) (a : UnpackedFloat) : Prop :=
  a = .infinity .positive ∨ ∃ j, Between i j a

namespace AtLeast

variable {i k l : Int} {a b : UnpackedFloat}

/-- A bound may be made smaller. -/
theorem mono (h : AtLeast i a) (hk : k ≤ i) : AtLeast k a :=
  h.imp_right fun ⟨j, hbetween⟩ => ⟨j, hbetween.mono hk le_rfl⟩

/-- A stored number has become infinity if there is no room for it. -/
theorem pack (h : AtLeast i a) (hi : -1022 ≤ i) : AtLeast i (Float.Model.pack a).unpack := by
  rcases h with rfl | ⟨j, mantissa, exponent, hnormal, hlower, hupper⟩
  · exact .inl unpack_packedInfinity
  · rw [unpack_pack hnormal (by omega)]
    split
    · exact .inr ⟨j, mantissa, exponent, hnormal, hlower, hupper⟩
    · exact .inl rfl

/-- A bound stays when the number is added to zero. -/
theorem add_zero_left (h : AtLeast i a) :
    AtLeast i (UnpackedFloat.add Format.binary64 (.zero .positive) a) := by
  rcases h with rfl | ⟨j, _, _, ⟨hm, hm', hpos, rfl⟩, hrange⟩
  · exact .inl rfl
  · exact .inr ⟨j, _, _, ⟨hm, hm', hpos, rfl⟩, hrange⟩

/-- A sum keeps the bound of its summands. -/
theorem add (ha : AtLeast i a) (hb : AtLeast i b) (h : -1022 ≤ i) :
    AtLeast i (UnpackedFloat.add Format.binary64 a b) := by
  rcases ha with rfl | ⟨j, m, e, ⟨hm, hm', hpos, rfl⟩, hi, hj⟩ <;>
    rcases hb with rfl | ⟨l, n, f, ⟨hn, hn', hpos', rfl⟩, hk, hl⟩
  · exact .inl rfl
  · exact .inl rfl
  · exact .inl rfl
  · -- The first summand alone is large enough.
    obtain ⟨c, hc⟩ := Int.eq_ofNat_of_zero_le (by omega : 0 ≤ e - min e f)
    obtain ⟨d, hd⟩ := Int.eq_ofNat_of_zero_le (by omega : 0 ≤ f - min e f)
    have hfirst : 2 ^ (52 + c) ≤ m * 2 ^ c := Nat.pow_add 2 52 c ▸ Nat.mul_le_mul_right _ hm
    have hlower : 2 ^ (52 + c) ≤ m * 2 ^ c + n * 2 ^ d := hfirst.trans (Nat.le_add_right _ _)
    have hsum : 0 < m * 2 ^ c + n * 2 ^ d := (Nat.two_pow_pos _).trans_le hlower
    right
    rw [UnpackedFloat.add]
    simp only [UnpackedFloat.decreaseExponent, hc, hd, Int.toNat_natCast, Nat.shiftLeft_eq, Sign.apply]
    rw [← Nat.cast_add, normalize_natCast hsum]
    exact ⟨_, (between_roundAny hlower Nat.lt_log2_self (by omega)).mono (by omega) le_rfl⟩

/-- The bounds of two factors add up for the product. -/
theorem mul (ha : AtLeast i a) (hb : Between k l b) (h : -1022 ≤ i + k) :
    AtLeast (i + k) (UnpackedFloat.mul Format.binary64 a b) := by
  rcases ha with rfl | ⟨j, ha⟩
  · obtain ⟨_, _, ⟨_, _, _, rfl⟩, _⟩ := hb
    exact .inl rfl
  · exact .inr ⟨_, between_mul ha hb h⟩

/-- A quotient is bounded by the bound of the one number and the window of the other. -/
theorem div (ha : AtLeast i a) (hb : Between k l b) (h : -1022 < i - l) :
    AtLeast (i - l) (UnpackedFloat.div Format.binary64 a b) := by
  rcases ha with rfl | ⟨j, ha⟩
  · obtain ⟨_, _, ⟨_, _, _, rfl⟩, _⟩ := hb
    exact .inl rfl
  · exact .inr ⟨_, between_div ha hb h⟩

/-- A number from a power of two on is more than zero. -/
theorem pos {a b : Float} (ha : a.toModel.unpack = .zero .positive) (hb : AtLeast i b.toModel.unpack) :
    a < b := by
  show decide (a.toModel < b.toModel) = true
  rw [decide_eq_true_iff]
  show (a.toModel.unpack.compare b.toModel.unpack == some .lt) = true
  rw [ha]
  rcases hb with hb | ⟨_, _, _, ⟨_, _, _, hb⟩, _⟩ <;> rw [hb] <;> rfl

end AtLeast

/-! ### Natural numbers -/

/-- A small number that is made from 64 bits is in the window of its first bit. -/
theorem between_ofUInt64 {n : Nat} (h : n ≠ 0) (hsmall : n < 2 ^ 53) :
    Between n.log2 (n.log2 + 1) (UnpackedFloat.ofUInt64 Format.binary64 n.toUInt64) := by
  have hbits : 2 ^ n.log2 ≤ n ∧ n < 2 ^ (n.log2 + 1) := (Nat.log2_eq_iff h).mp rfl
  have hnat : n.toUInt64.toNat = n := Nat.mod_eq_of_lt (by omega)
  rw [UnpackedFloat.ofUInt64, hnat, UnpackedFloat.ofNat, UnpackedFloat.ofInt,
    normalize_natCast (Nat.pos_of_ne_zero h)]
  exact (between_roundAny hbits.1 hbits.2 (by omega)).mono (by omega) (by omega)

/-- The number one is in the window of one. -/
theorem between_one : Between 0 0 (Float.ofBits 4607182418800017408).toModel.unpack :=
  ⟨2 ^ 52, -52, ⟨le_rfl, by decide, by decide, rfl⟩, le_rfl, .inr ⟨rfl, rfl⟩⟩

/-- A number without exponent is in the window of its first bit. -/
theorem between_ofScientific {n : Nat} (h : n ≠ 0) :
    Between n.log2 (n.log2 + 1) (UnpackedFloat.ofScientific Format.binary64 n 0) := by
  obtain ⟨hlower, hupper⟩ : 2 ^ n.log2 ≤ n ∧ n < 2 ^ (n.log2 + 1) := (Nat.log2_eq_iff h).mp rfl
  have hlarge : ¬(0 : Int) > 2 ^ Format.binary64.exponentBits := by decide
  have hsmall : ¬(0 : Int) < -(2 ^ Format.binary64.exponentBits + n.log2) := by
    have hpow : (0 : Int) < 2 ^ Format.binary64.exponentBits := by decide
    omega
  rw [UnpackedFloat.ofScientific, dif_neg h, if_neg hlarge, if_neg hsmall, if_pos le_rfl]
  have hbits : Format.binary64.mantissaBits = 53 := rfl
  have hsign : (Sign.positive * Sign.positive : Sign) = .positive := rfl
  simp only [UnpackedFloat.mul, hsign, hbits, Nat.shiftLeft_eq, Int.toNat_zero, Nat.pow_zero, Nat.mul_one]
  -- The number is multiplied by a power of two before it is rounded, so that no digit is lost.
  have hlower : 2 ^ (n.log2 + 53) ≤ n * 2 ^ 53 := by
    rw [Nat.pow_add]
    omega
  have hupper : n * 2 ^ 53 < 2 ^ (n.log2 + 1 + 53) := by
    rw [Nat.pow_add]
    omega
  exact (between_round .exact (by omega) hlower hupper (by push_cast; omega)).mono (by push_cast; omega)
    (by push_cast; omega)

/-- The number that a natural number is stored as. -/
theorem toModel_ofNat {n : Nat} (h : n ≠ 0) :
    ∃ a, Between n.log2 (n.log2 + 1) a ∧ (Float.ofNat n).toModel = Float.Model.pack a := by
  by_cases hsmall : n < 2 ^ 53
  · have hlog : n.log2 < 53 := (Nat.log2_lt h).mpr hsmall
    have hstored := (between_ofUInt64 h hsmall).pack (by omega) (by omega)
    have hproduct := between_mul hstored between_one (by omega)
    refine ⟨_, hproduct.mono (by omega) (by omega), ?_⟩
    show (Float.ofScientific n false 0).toModel = _
    rw [Float.ofScientific, dif_pos ⟨hsmall, by decide⟩]
    rfl
  · refine ⟨_, between_ofScientific h, ?_⟩
    show (Float.ofScientific n false 0).toModel = _
    rw [Float.ofScientific, dif_neg fun hfits => hsmall hfits.1]
    rfl

/-- So is a whole number that is not too large to be finite. -/
theorem between_ofNat {n : Nat} (h : n ≠ 0) (hfits : n.log2 < 1023) :
    Between n.log2 (n.log2 + 1) (Float.ofNat n).toModel.unpack := by
  obtain ⟨a, hbetween, hstored⟩ := toModel_ofNat h
  rw [hstored]
  exact hbetween.pack (by omega) (by omega)

/-- Any whole number but zero is one at least. -/
theorem atLeast_ofNat {n : Nat} (h : n ≠ 0) : AtLeast 0 (Float.ofNat n).toModel.unpack := by
  obtain ⟨a, hbetween, hstored⟩ := toModel_ofNat h
  rw [hstored]
  exact AtLeast.pack (.inr ⟨_, hbetween.mono (by omega) le_rfl⟩) (by decide)

end ShellAssist.FloatBounds
