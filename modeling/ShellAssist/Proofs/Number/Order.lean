import ShellAssist.Number.Arithmetic
import ShellAssist.Proofs.Number.Nearest
import Mathlib.Order.Defs.Unbundled

namespace ShellAssist.Number.Double

/-!
# The order of doubles, and the difference of a double from itself

What is no number stands in no relation to anything, so the order is a strict one but not a total
one. A finite double taken from itself leaves the positive zero; an infinity leaves what is no number.

* `instIsStrictOrder` — no double is below itself, and the order is transitive;
* `sub_self_lt_iff` — what a difference of nothing is below.
-/

/-- Whether this is a number and no infinity. -/
def IsFinite (d : Double) : Prop :=
  d.magnitudeBits < infinityBits

instance (d : Double) : Decidable d.IsFinite :=
  inferInstanceAs (Decidable (_ < _))

theorem lt_iff {a b : Double} :
    a < b ↔ a.isNaN = false ∧ b.isNaN = false ∧ a.rank < b.rank := by
  show a.less b = true ↔ _
  simp [less, and_assoc]

instance : IsStrictOrder Double (· < ·) where
  irrefl a h := lt_irrefl a.rank (lt_iff.mp h).2.2
  trans a b c hab hbc := by
    obtain ⟨ha, -, hab⟩ := lt_iff.mp hab
    obtain ⟨-, hc, hbc⟩ := lt_iff.mp hbc
    exact lt_iff.mpr ⟨ha, hc, hab.trans hbc⟩

/-! ### Taking a double from itself -/

theorem isNegative_ofSignBits (negative : Bool) {bits : Nat} (h : bits < signBit) :
    (ofSignBits negative bits).isNegative = negative := by
  unfold isNegative
  rw [toNat_ofSignBits negative h]
  cases negative with
  | false => simpa using h
  | true => simp

theorem magnitudeBits_neg (d : Double) : d.neg.magnitudeBits = d.magnitudeBits :=
  magnitudeBits_ofSignBits _ d.magnitudeBits_lt

theorem isNegative_neg (d : Double) : d.neg.isNegative = !d.isNegative :=
  isNegative_ofSignBits _ d.magnitudeBits_lt

theorem isNaN_neg (d : Double) : d.neg.isNaN = d.isNaN := by
  rw [isNaN, isNaN, magnitudeBits_neg]

theorem magnitude?_neg (d : Double) : d.neg.magnitude? = d.magnitude? := by
  rw [magnitude?, magnitude?, magnitudeBits_neg]

/-- A finite double less itself is the positive zero. -/
theorem sub_self_of_isFinite {d : Double} (h : d.IsFinite) : d - d = 0 := by
  have hnan : d.isNaN = false := by
    show decide (infinityBits < d.magnitudeBits) = false
    exact decide_eq_false (lt_asymm h)
  obtain ⟨num, den, hd⟩ : ∃ num den, d.magnitude? = some (num, den) := by
    refine ⟨_, _, if_pos h⟩
  have hratio : d.ratio? = some (if d.isNegative then -(num : Int) else num, den) := by
    rw [ratio?, hd]
    rfl
  have hratio' : d.neg.ratio? = some (if d.isNegative then (num : Int) else -num, den) := by
    rw [ratio?, magnitude?_neg, hd, isNegative_neg]
    cases d.isNegative <;> rfl
  show d.add d.neg = 0
  -- The two quotients cancel, and the signs differ, so that no sign is left.
  have hsum : (if d.isNegative then -(num : Int) else num) * den
      + (if d.isNegative then (num : Int) else -num) * den = 0 := by
    cases d.isNegative <;> simp
  have hsigns : (d.isNegative && d.neg.isNegative) = false := by
    rw [isNegative_neg]
    cases d.isNegative <;> rfl
  simp only [add, hnan, isNaN_neg, hratio, hratio', hsum, hsigns]
  rfl

/-- What is handed on of something that is no number is none either. -/
theorem isNaN_quiet (d : Double) : d.quiet.isNaN = true := by
  have hmagnitude : nan.bits.toNat ≤ d.quiet.magnitudeBits := by
    show nan.bits.toNat ≤ (d.bits ||| nan.bits).toNat % 2 ^ 63
    rw [UInt64.toNat_or, Nat.or_mod_two_pow]
    exact Nat.right_le_or
  exact decide_eq_true (lt_of_lt_of_le (by decide) hmagnitude)

/-- Any other double less itself is no number. -/
theorem isNaN_sub_self {d : Double} (h : ¬ d.IsFinite) : (d - d).isNaN = true := by
  show (d.add d.neg).isNaN = true
  by_cases hnan : d.isNaN = true
  · rw [add, if_pos hnan]
    exact d.isNaN_quiet
  · have hnone : d.magnitude? = none := if_neg h
    have hratio : d.ratio? = none := by
      rw [ratio?, hnone, Option.map_none]
    have hratio' : d.neg.ratio? = none := by
      rw [ratio?, magnitude?_neg, hnone, Option.map_none]
    -- An infinity taken from itself is a sum of two infinities of opposite sign.
    have hsigns : d.isNegative ≠ d.neg.isNegative := by
      rw [isNegative_neg]
      simp
    simp only [add, isNaN_neg, hnan, hratio, hratio', hsigns, Bool.false_eq_true, if_false]
    decide

/-- A finite double less itself is below what is positive, any other below nothing. -/
theorem sub_self_lt_iff {d ttl : Double} : d - d < ttl ↔ d.IsFinite ∧ 0 < ttl := by
  by_cases hfinite : d.IsFinite
  · rw [sub_self_of_isFinite hfinite, and_iff_right hfinite]
  · rw [lt_iff, isNaN_sub_self hfinite]
    simp [hfinite]

end ShellAssist.Number.Double
