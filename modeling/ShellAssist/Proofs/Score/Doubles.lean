import ShellAssist.Proofs.Number.FloatBounds
import ShellAssist.Proofs.Score.Matching

namespace ShellAssist

/-!
# Matches in doubles

A match in order scores more than nothing in doubles as well. What its characters add is at least a
half, and stays so under rounding, even where it gets infinite. A text is not so long that dividing by
its length would bring a number near zero, and what is not matched lowers the score by no more than a
half.

* `Subsequence.atLeast_of_scan` — the least that the characters of a query add;
* `Subsequence.between_penalty` — what the unmatched characters lower the score by;
* `Subsequence.isMatch_score_float_iff` — which texts match.
-/

namespace Subsequence

open FloatBounds

theorem between_one_half : Between (-1) (-1) (0.5 : Float).toModel.unpack :=
  ⟨2 ^ 52, -53, ⟨le_rfl, by decide, by decide, rfl⟩, le_rfl, .inr ⟨rfl, rfl⟩⟩

theorem between_one_fifth : Between (-3) (-2) (0.2 : Float).toModel.unpack :=
  ⟨7205759403792794, -55, ⟨by decide, by decide, by decide, rfl⟩, by decide, .inl (by decide)⟩

/-! ### What the matches add -/

theorem atLeast_bonus (run : Nat) : AtLeast (-1) (bonus (run + 1) : Float).toModel.unpack := by
  have hone : AtLeast (-1) (Float.ofNat 1).toModel.unpack :=
    (atLeast_ofNat Nat.one_ne_zero).mono (by decide)
  have hrun : AtLeast (-1) (Float.ofNat (run + 1) * 0.5).toModel.unpack :=
    ((atLeast_ofNat run.succ_ne_zero).mul between_one_half (by decide)).pack (by decide)
  exact (hone.add hrun (by decide)).pack (by decide)

/-- A sum to which nothing has been added yet, or a half at least. -/
def Gathered (total : Float) : Prop :=
  total.toModel.unpack = .zero .positive ∨ AtLeast (-1) total.toModel.unpack

theorem Gathered.add_bonus {total : Float} (h : Gathered total) (run : Nat) :
    AtLeast (-1) (total + bonus (run + 1)).toModel.unpack := by
  have hbonus := atLeast_bonus run
  rw [unpack_add]
  rcases h with hzero | htotal
  · rw [hzero]
    exact hbonus.add_zero_left.pack (by decide)
  · exact (htotal.add hbonus (by decide)).pack (by decide)

variable {query text : List Char}

/-- The sum is a half at least once a character has matched. -/
theorem atLeast_of_scan {previous : Option Char} {position : Nat} {opened : Option Nat} {run : Nat}
    {total sum : Float} {spans : List Span}
    (h : scan previous position opened run total query text = some (sum, spans))
    (htotal : Gathered total) (hquery : query = [] → AtLeast (-1) total.toModel.unpack) :
    AtLeast (-1) sum.toModel.unpack := by
  -- The total is zero or at least a half, and becomes the second with the first character found.
  induction text generalizing previous position opened run total query spans with
  | nil =>
    cases query with
    | nil =>
      obtain ⟨rfl, -⟩ := Prod.mk.inj (Option.some.inj h)
      exact hquery rfl
    | cons q query => cases h
  | cons t text ih =>
    cases query with
    | nil =>
      obtain ⟨rfl, -⟩ := Prod.mk.inj (Option.some.inj h)
      exact hquery rfl
    | cons q query =>
      rw [scan] at h
      split at h
      · have hgained := htotal.add_bonus run
        have htwo : AtLeast (-1) (Float.ofNat 2).toModel.unpack :=
          (atLeast_ofNat (by decide)).mono (by decide)
        have hlater : AtLeast (-1)
            (if startsWord previous then total + bonus (run + 1) + Scalar.ofNat 2
              else total + bonus (run + 1)).toModel.unpack := by
          split
          · exact (hgained.add htwo (by decide)).pack (by decide)
          · exact hgained
        exact ih h (.inr hlater) fun _ => hlater
      · obtain ⟨⟨sum', spans'⟩, hscan, heq⟩ := Option.map_eq_some_iff.mp h
        obtain ⟨rfl, -⟩ := Prod.mk.inj heq
        exact ih hscan htotal fun hnil => absurd hnil (List.cons_ne_nil q query)

/-! ### What the unmatched characters take away -/

theorem between_penalty {unmatchedLength textLength : Nat} (hle : unmatchedLength ≤ textLength)
    (htext : textLength ≠ 0) (hsize : textLength < 2 ^ 63) :
    Between (-1) 0
      (Float.ofNat 1 - Float.ofNat unmatchedLength / Float.ofNat textLength * 0.2).toModel.unpack := by
  have hone : Between 0 0 (Float.ofNat 1).toModel.unpack := between_one
  have hlog : textLength.log2 < 63 := (Nat.log2_lt htext).mpr hsize
  have hlength := between_ofNat htext (by omega)
  by_cases hmatched : unmatchedLength = 0
  · -- Nothing is taken away.
    subst hmatched
    rw [unpack_sub, unpack_mul, unpack_div, unpack_zero, hlength.zero_div, unpack_pack_zero,
      between_one_fifth.zero_mul, unpack_pack_zero, hone.sub_zero]
    exact (hone.mono (by decide) le_rfl).pack (by decide) (by decide)
  · have hlog' : unmatchedLength.log2 ≤ textLength.log2 :=
      (Nat.le_log2 htext).mpr ((Nat.log2_self_le hmatched).trans hle)
    have hpart := (between_div (between_ofNat hmatched (by omega)) hlength (by omega)).pack
      (by omega) (by omega)
    have hless := (between_mul hpart between_one_fifth (by omega)).pack (by omega) (by omega)
    exact (between_one_sub hone (hless.mono le_rfl (by omega))).pack (by decide) (by decide)

theorem normalize_pos {total : Float} {queryLength textLength : Nat} (hquery : queryLength ≠ 0)
    (hle : queryLength ≤ textLength) (hsize : textLength < 2 ^ 63)
    (h : AtLeast (-1) total.toModel.unpack) :
    Float.ofNat 0 < normalize total queryLength textLength := by
  have hthreefold : queryLength * 3 ≠ 0 := Nat.mul_ne_zero hquery (by decide)
  have hlog : (queryLength * 3).log2 < 65 := (Nat.log2_lt hthreefold).mpr (by omega)
  have hlength : Between 0 65 (Float.ofNat (queryLength * 3)).toModel.unpack :=
    (between_ofNat hthreefold (by omega)).mono (by omega) (by omega)
  have hshare : AtLeast (-66) (total / Float.ofNat (queryLength * 3)).toModel.unpack :=
    (h.div hlength (by decide)).pack (by decide)
  have hcapped : AtLeast (-66) (if Scalar.less (Scalar.ofNat 1) (total / Scalar.ofNat (queryLength * 3))
      then Scalar.ofNat 1 else total / Scalar.ofNat (queryLength * 3) : Float).toModel.unpack := by
    split
    · exact (atLeast_ofNat Nat.one_ne_zero).mono (by decide)
    · exact hshare
  have hpenalty := between_penalty (Nat.sub_le textLength queryLength) (by omega) hsize
  exact ((hcapped.mul hpenalty (by decide)).pack (by decide)).pos unpack_zero

/-- **In doubles as well, a text matches just if it has the query's characters in order.** -/
theorem isMatch_score_float_iff (hquery : query ≠ []) (hsize : text.length < 2 ^ 63) :
    (score query text : ScoreResult Float).isMatch = true ↔ query.Sublist text := by
  constructor
  · intro hmatch
    by_contra hapart
    rw [score_of_not_sublist hapart] at hmatch
    exact absurd hmatch (by decide)
  · intro hsub
    obtain ⟨⟨sum, spans⟩, hscan⟩ := Option.isSome_iff_exists.mp
      ((isSome_scan_iff none 0 none 0 (Scalar.ofNat 0 : Float) query text).mpr hsub)
    have hsum := atLeast_of_scan hscan (.inl unpack_zero) fun hnil => absurd hnil hquery
    have hlength : query.length ≠ 0 := mt List.length_eq_zero_iff.mp hquery
    rw [score, hscan]
    exact decide_eq_true (normalize_pos hlength hsub.length_le hsize hsum)

end Subsequence

end ShellAssist
