import Mathlib.Algebra.Order.Ring.Int
import Mathlib.Data.Nat.Cast.Order.Ring
import Mathlib.Data.Prod.Lex
import Mathlib.Order.Compare

namespace ShellAssist.FloatOrder

/-!
# The order of floating-point numbers

Floating-point numbers other than NaN stand in one line, in which the two zeros stand in the same
place. They compare as their places do.

* `FloatOrder.place` — the place of a number;
* `FloatOrder.compare_eq` — unpacked numbers compare as their places do;
* `FloatOrder.lt_iff`, `FloatOrder.le_iff`, `FloatOrder.beq_iff` — and so do numbers.
-/

open Float.Model (UnpackedFloat)

/-- The place of an unpacked number: its sign and whether it is infinite, then its exponent, then
its mantissa. Of negative numbers, those of a greater magnitude come first. -/
def unpackedPlace : UnpackedFloat → Int ×ₗ Int ×ₗ Int
  | .infinity .negative => toLex (-2, toLex (0, 0))
  | .finite .negative mantissa exponent _ => toLex (-1, toLex (-exponent, -mantissa))
  | .notANumber | .zero _ => toLex (0, toLex (0, 0))
  | .finite .positive mantissa exponent _ => toLex (1, toLex (exponent, mantissa))
  | .infinity .positive => toLex (2, toLex (0, 0))

/-- The place of a number. -/
def place (a : Float) : Int ×ₗ Int ×ₗ Int :=
  unpackedPlace a.toModel.unpack

theorem compare_toLex {α β : Type} [LinearOrder α] [LinearOrder β] (a c : α) (b d : β) :
    compare (toLex (a, b)) (toLex (c, d)) = (compare a c).then (compare b d) := by
  rw [Prod.Lex.compare_def]
  rfl

theorem compare_neg (a b : Int) : compare (-a) (-b) = (compare a b).swap := by
  have hanti : StrictAnti fun a : Int => -a := fun _ _ h => Int.neg_lt_neg h
  rw [Int.compare_swap, ← cmp_eq_compare, ← cmp_eq_compare, hanti.cmp_map_eq]

theorem compare_natCast (a b : Nat) : compare (a : Int) b = compare a b := by
  rw [← cmp_eq_compare, Nat.strictMono_cast.cmp_map_eq, cmp_eq_compare]

/-- Unpacked numbers compare as their places do. -/
theorem compare_eq {a b : UnpackedFloat} (ha : a.isNaN = false) (hb : b.isNaN = false) :
    a.compare b = some (compare (unpackedPlace a) (unpackedPlace b)) := by
  -- Only two finite numbers of one sign compare by more than the first component.
  rcases a with (_ | _) | _ | _ | ⟨_ | _, m, e, _⟩ <;>
    rcases b with (_ | _) | _ | _ | ⟨_ | _, n, f, _⟩ <;>
    first
    | exact absurd ha (by decide)
    | exact absurd hb (by decide)
    | refine congrArg some ?_
      dsimp only [unpackedPlace]
      simp only [compare_toLex, compare_neg, compare_natCast, ← Ordering.swap_then]
      rfl

variable {a b : Float}

theorem lt_iff (ha : a.isNaN = false) (hb : b.isNaN = false) : a < b ↔ place a < place b := by
  have hcompare := compare_eq ha hb
  show decide (a.toModel < b.toModel) = true ↔ _
  rw [decide_eq_true_iff]
  show (a.toModel.unpack.compare b.toModel.unpack == some .lt) = true ↔ _
  rw [hcompare, Option.some_beq_some, beq_iff_eq, compare_lt_iff_lt]
  rfl

theorem le_iff (ha : a.isNaN = false) (hb : b.isNaN = false) : a ≤ b ↔ place a ≤ place b := by
  have hcompare := compare_eq ha hb
  show decide (a.toModel ≤ b.toModel) = true ↔ _
  rw [decide_eq_true_iff]
  show (a.toModel.unpack.compare b.toModel.unpack).any Ordering.isLE = true ↔ _
  rw [hcompare, Option.any_some, Ordering.isLE_iff_ne_gt, ← ne_eq, compare_le_iff_le]
  rfl

theorem beq_iff (ha : a.isNaN = false) (hb : b.isNaN = false) :
    (a == b) = true ↔ place a = place b := by
  have hcompare := compare_eq ha hb
  show (a.toModel.unpack.compare b.toModel.unpack == some .eq) = true ↔ _
  rw [hcompare, Option.some_beq_some, beq_iff_eq, compare_eq_iff_eq]
  rfl

end ShellAssist.FloatOrder
