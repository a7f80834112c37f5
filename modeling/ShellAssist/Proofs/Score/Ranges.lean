import ShellAssist.Proofs.Score.Edits
import ShellAssist.Proofs.Score.Matching

namespace ShellAssist

/-!
# The range of scores

Scores lie between zero and one, and no formula of theirs divides by zero. The first is a matter of exact
numbers; for the second the formulas are computed once more, in numbers in which a division by zero gives
nothing and nothing can be made of that.

* `Checked` — exact numbers with divisions that can fail;
* `Subsequence.score_checked`, `EditScorer.score_checked`, `ReferenceScorer.score_checked` — in these
  numbers scores are the exact ones;
* `EditScorer.score_mem_unit` — the range of a score by edits;
* `ReferenceScorer.score_mem_of_inOrder`, `ReferenceScorer.score_mem_of_not_inOrder` — what a match in
  order scores, and what any other text;
* `ReferenceScorer.scores_mem_unit` — the range of all scores.
-/

/-! ### Divisions that can fail -/

/-- An exact number, or nothing: what a division by zero gives, and what is computed from nothing. -/
def Checked : Type :=
  Option Rat

namespace Checked

/-- An exact number. -/
def number (a : Rat) : Checked :=
  some a

instance : Scalar Checked where
  add := Option.map₂ (· + ·)
  sub := Option.map₂ (· - ·)
  mul := Option.map₂ (· * ·)
  div a b := a.bind fun a => b.bind fun b => if b = 0 then none else some (a / b)
  ofScientific mantissa negative exponent :=
    number (OfScientific.ofScientific mantissa negative exponent)
  ofNat n := number n
  less a b := (Option.map₂ Scalar.less a b).getD false

/-- Numbers that are there are added. -/
theorem number_add (a b : Rat) : number a + number b = number (a + b) :=
  rfl

/-- They are taken from each other. -/
theorem number_sub (a b : Rat) : number a - number b = number (a - b) :=
  rfl

/-- They are multiplied. -/
theorem number_mul (a b : Rat) : number a * number b = number (a * b) :=
  rfl

/-- They are divided by what is not zero. -/
theorem number_div (a : Rat) {b : Rat} (hb : b ≠ 0) : number a / number b = number (a / b) :=
  if_neg hb

/-- A division by zero gives nothing. -/
example : number 1 / number 0 = (none : Option Rat) := rfl

/-- They are compared. -/
theorem less_number (a b : Rat) : Scalar.less (number a) (number b) = Scalar.less a b :=
  rfl

/-- A whole number is there. -/
theorem ofNat_eq (n : Nat) : (Scalar.ofNat n : Checked) = number (Scalar.ofNat n) :=
  rfl

/-- So is a decimal one. -/
theorem ofScientific_eq (mantissa : Nat) (negative : Bool) (exponent : Nat) :
    (OfScientific.ofScientific mantissa negative exponent : Checked)
      = number (OfScientific.ofScientific mantissa negative exponent) :=
  rfl

end Checked

/-- An exact result, in numbers with divisions that can fail. -/
def ScoreResult.checked (r : ScoreResult Rat) : ScoreResult Checked where
  score := Checked.number r.score
  spans := r.spans

/-- A result that is there is a match where the number is. -/
theorem ScoreResult.isMatch_checked (r : ScoreResult Rat) : r.checked.isMatch = r.isMatch :=
  rfl

/-- No match is there as such. -/
theorem ScoreResult.noMatch_checked : (noMatch : ScoreResult Rat).checked = noMatch :=
  rfl

/-! ### No division by zero -/

namespace Subsequence

/-- The bonus of a run is there. -/
theorem bonus_checked (run : Nat) : (bonus run : Checked) = Checked.number (bonus run) :=
  rfl

/-- What the matches add is added without a division. -/
theorem scan_checked (previous : Option Char) (position : Nat) (opened : Option Nat) (run : Nat)
    (total : Rat) (query text : List Char) :
    scan previous position opened run (Checked.number total) query text
      = (scan previous position opened run total query text).map fun (sum, spans) =>
          (Checked.number sum, spans) := by
  induction text generalizing previous position opened run total query with
  | nil => cases query <;> rfl
  | cons t text ih =>
    cases query with
    | nil => rfl
    | cons q query =>
      rw [scan, scan]
      by_cases h : q = t
      · simp only [if_pos h, bonus_checked, Checked.ofNat_eq, Checked.number_add, ← apply_ite Checked.number]
        exact ih _ _ _ _ _ _
      · rw [if_neg h, if_neg h, ih, Option.map_map, Option.map_map]
        rfl

/-- A normalized total is there if neither text is empty. -/
theorem normalize_checked (total : Rat) {queryLength textLength : Nat} (hquery : 0 < queryLength)
    (htext : 0 < textLength) :
    normalize (Checked.number total) queryLength textLength
      = Checked.number (normalize total queryLength textLength) := by
  have hthree : (Scalar.ofNat (queryLength * 3) : Rat) ≠ 0 :=
    Nat.cast_ne_zero.mpr (Nat.mul_pos hquery (by decide)).ne'
  have hlength : (Scalar.ofNat textLength : Rat) ≠ 0 := Nat.cast_ne_zero.mpr htext.ne'
  rw [normalize, normalize]
  simp only [Checked.ofNat_eq, Checked.number_div _ hthree, Checked.number_div _ hlength,
    Checked.less_number, Checked.ofScientific_eq, Checked.number_mul, Checked.number_sub,
    ← apply_ite Checked.number]

/-- A query that is not empty is found only in texts that are not empty either. -/
theorem score_checked {query : List Char} (hquery : query ≠ []) (text : List Char) :
    (score query text : ScoreResult Checked) = (score query text).checked := by
  have hscan := scan_checked none 0 none 0 (Scalar.ofNat 0) query text
  rw [score, score, Checked.ofNat_eq, hscan]
  cases hfound : scan none 0 none 0 (Scalar.ofNat 0 : Rat) query text with
  | none => rfl
  | some found =>
    have hsub := (isSome_scan_iff none 0 none 0 _ query text).mp (by rw [hfound, Option.isSome_some])
    have hlength := List.length_pos_of_ne_nil hquery
    obtain ⟨sum, spans⟩ := found
    show ScoreResult.mk (normalize (Checked.number sum) query.length text.length) spans = _
    rw [normalize_checked sum hlength (hlength.trans_le hsub.length_le)]
    rfl

end Subsequence

/-- So is the score of the edit scorer. -/
theorem EditScorer.score_checked (s : EditScorer) (query text : List Char) :
    (s.score query text : ScoreResult Checked) = (s.score query text).checked := by
  by_cases hnear : 0 < max (foldCase s.caseInsensitive query).length (foldCase s.caseInsensitive text).length ∧
      (editDistance (foldCase s.caseInsensitive query) (foldCase s.caseInsensitive text) : Int)
        ≤ s.maxDistance
  · obtain ⟨hlongest, hnear⟩ := hnear
    have hne : (Scalar.ofNat (max (foldCase s.caseInsensitive query).length
        (foldCase s.caseInsensitive text).length) : Rat) ≠ 0 := Nat.cast_ne_zero.mpr hlongest.ne'
    rw [score_of_near hlongest hnear, score_of_near hlongest hnear]
    simp only [Checked.ofNat_eq, Checked.number_div _ hne, Checked.number_sub]
    rfl
  · rw [score_of_far hnear, score_of_far hnear, ScoreResult.noMatch_checked]

/-- So is that of a typo. -/
theorem ReferenceScorer.typoScore_checked (s : ReferenceScorer) (query text : List Char) :
    (s.typoScore query text : ScoreResult Checked) = (s.typoScore query text).checked := by
  rw [typoScore, typoScore]
  simp only [EditScorer.score_checked, ScoreResult.isMatch_checked]
  split <;> rfl

/-- So is that of the reference scorer. -/
theorem ReferenceScorer.score_checked (s : ReferenceScorer) (query text : List Char) :
    (s.score query text : ScoreResult Checked) = (s.score query text).checked := by
  by_cases hoccurs : foldCase s.caseInsensitive query <:+: foldCase s.caseInsensitive text
  · rw [score, score]
    split
    · rfl
    split
    · rfl
    obtain ⟨i, hindex⟩ := Option.isSome_iff_exists.mp (Chars.isSome_indexOf?_iff.mpr hoccurs)
    rw [hindex]
    rfl
  · have hquery : foldCase s.caseInsensitive query ≠ [] := fun hnil => hoccurs (hnil ▸ List.nil_infix)
    rw [s.score_of_apart hoccurs, s.score_of_apart hoccurs, Subsequence.score_checked hquery,
      ScoreResult.isMatch_checked, typoScore_checked, ← apply_ite ScoreResult.checked]

/-! ### The range of a score by edits -/

/-- It takes no more edits than the longer text has characters. -/
theorem editDistance_le_length (a b : List Char) : editDistance a b ≤ max a.length b.length := by
  rw [editDistance_eq_between]
  exact EditDistance.between_le_length a b

/-- Different texts are an edit apart at least. -/
theorem editDistance_pos {a b : List Char} (h : a ≠ b) : 0 < editDistance a b := by
  rw [editDistance_eq_between]
  refine Nat.pos_of_ne_zero fun hzero => h ?_
  exact (hzero ▸ EditDistance.edits_between a b).eq_of_zero

/-- What a part leaves of a whole, as a share of it. -/
theorem one_sub_div_mem_unit {part whole : Nat} (hwhole : 0 < whole) (hle : part ≤ whole) :
    0 ≤ 1 - (part : Rat) / whole ∧ 1 - (part : Rat) / whole ≤ 1 ∧
      (0 < part → 1 - (part : Rat) / whole < 1) := by
  have hpos : (0 : Rat) < whole := by exact_mod_cast hwhole
  refine ⟨?_, ?_, fun hpart => ?_⟩
  · rw [sub_nonneg, div_le_one hpos]
    exact_mod_cast hle
  · exact sub_le_self 1 (div_nonneg (Nat.cast_nonneg part) hpos.le)
  · exact sub_lt_self 1 (div_pos (by exact_mod_cast hpart) hpos)

/-- **The range of a score by edits.** It is one for equal texts only, as others are an edit apart at
least. -/
theorem EditScorer.score_mem_unit (s : EditScorer) (query text : List Char) :
    let r : ScoreResult Rat := s.score query text
    0 ≤ r.score ∧ r.score ≤ 1 ∧
      (foldCase s.caseInsensitive query ≠ foldCase s.caseInsensitive text → r.score < 1) := by
  intro r
  by_cases hnear : 0 < max (foldCase s.caseInsensitive query).length (foldCase s.caseInsensitive text).length ∧
      (editDistance (foldCase s.caseInsensitive query) (foldCase s.caseInsensitive text) : Int)
        ≤ s.maxDistance
  · have hscore : r.score = _ := exactScore_of_near hnear.1 hnear.2
    obtain ⟨hnonneg, hle, hlt⟩ := one_sub_div_mem_unit hnear.1 (editDistance_le_length _ _)
    rw [hscore]
    exact ⟨hnonneg, hle, fun hne => hlt (editDistance_pos hne)⟩
  · have hscore : r = .noMatch := score_of_far hnear
    rw [hscore]
    exact ⟨le_rfl, zero_le_one, fun _ => zero_lt_one⟩

/-! ### The range of a match -/

/-- Characters between those of the query lower the score below one. -/
theorem Subsequence.score_lt_one {query text : List Char} (hlt : query.length < text.length) :
    (score query text : ScoreResult Rat).score < 1 := by
  rw [score]
  cases scan none 0 none 0 (Scalar.ofNat 0 : Rat) query text with
  | none => exact zero_lt_one
  | some found =>
    have hunmatched : 0 < unmatched query.length text.length :=
      div_pos (by exact_mod_cast Nat.sub_pos_of_lt hlt) (by exact_mod_cast Nat.zero_lt_of_lt hlt)
    have hle : unmatched query.length text.length ≤ 1 :=
      div_le_one_of_le₀ (by exact_mod_cast Nat.sub_le _ _) (Nat.cast_nonneg _)
    show normalize found.1 query.length text.length < 1
    rw [normalize_eq]
    -- A text longer than the query leaves something unmatched, which costs a part of the score.
    calc min 1 (found.1 / (query.length * 3)) * (1 - unmatched query.length text.length * (1 / 5))
      _ ≤ 1 * (1 - unmatched query.length text.length * (1 / 5)) :=
        mul_le_mul_of_nonneg_right (min_le_left _ _) (by linarith)
      _ < 1 := by linarith

namespace ReferenceScorer

variable (s : ReferenceScorer) (query text : List Char)

/-- Other texts than the query are an edit away at least, so that a typo is below one half. -/
theorem typoScore_lt_half (h : foldCase s.caseInsensitive query ≠ foldCase s.caseInsensitive text) :
    0 ≤ (s.typoScore query text : ScoreResult Rat).score ∧
      (s.typoScore query text : ScoreResult Rat).score < 1 / 2 := by
  obtain ⟨hnonneg, -, hlt⟩ := s.typos.score_mem_unit query text
  have hlt := hlt h
  rw [typoScore]
  split
  · show 0 ≤ (s.typos.score query text : ScoreResult Rat).score * 0.5 ∧
      (s.typos.score query text : ScoreResult Rat).score * 0.5 < 1 / 2
    constructor <;> linarith
  · show (0 : Rat) ≤ 0 ∧ (0 : Rat) < 1 / 2
    norm_num

variable {query text}

/-- A match in order scores more than two fifths, and one for the query itself only. -/
theorem score_mem_of_inOrder
    (h : (foldCase s.caseInsensitive query).Sublist (foldCase s.caseInsensitive text)) :
    let r : ScoreResult Rat := s.score query text
    2 / 5 < r.score ∧ r.score ≤ 1 ∧
      (foldCase s.caseInsensitive query ≠ foldCase s.caseInsensitive text → r.score < 1) := by
  intro r
  by_cases heq : foldCase s.caseInsensitive query = foldCase s.caseInsensitive text
  · have hscore : r.score = 1 := s.score_of_same heq
    rw [hscore]
    exact ⟨by norm_num, le_rfl, fun hne => absurd heq hne⟩
  -- Equal texts apart, the four kinds of match stand in the order of their scores.
  suffices hmem : 2 / 5 < r.score ∧ r.score < 1 from ⟨hmem.1, hmem.2.le, fun _ => hmem.2⟩
  by_cases hbegins : foldCase s.caseInsensitive query <+: foldCase s.caseInsensitive text
  · have hscore : r.score = 9 / 10 := s.score_of_begins heq hbegins
    rw [hscore]
    norm_num
  by_cases hoccurs : foldCase s.caseInsensitive query <:+: foldCase s.caseInsensitive text
  · have hscore : r.score = 4 / 5 := s.score_of_occurs hbegins hoccurs
    rw [hscore]
    norm_num
  · have hquery : foldCase s.caseInsensitive query ≠ [] := fun hnil => hoccurs (hnil ▸ List.nil_infix)
    have hscore : r = _ := s.score_of_inOrder hoccurs h
    have hlower := Subsequence.le_score hquery h
    have hunmatched := Subsequence.unmatched_lt_one (List.length_pos_of_ne_nil hquery) h.length_le
    rw [hscore]
    refine ⟨by linarith, Subsequence.score_lt_one ?_⟩
    exact h.length_le.lt_of_ne fun hlength => heq (h.eq_of_length hlength)

/-- Any other text scores as a typo, or nothing. -/
theorem score_mem_of_not_inOrder
    (h : ¬(foldCase s.caseInsensitive query).Sublist (foldCase s.caseInsensitive text)) :
    let r : ScoreResult Rat := s.score query text
    0 ≤ r.score ∧ r.score < 1 / 2 := by
  intro r
  have hscore : r = _ := s.score_of_not_inOrder h
  rw [hscore]
  split
  · exact s.typoScore_lt_half query text fun heq => h (heq ▸ List.Sublist.refl _)
  · show (0 : Rat) ≤ 0 ∧ (0 : Rat) < 1 / 2
    norm_num

/-- **Scores lie between zero and one.** No division by zero is made for them, in whatever way a text
matches. A score is one just for a text that equals the query; it is positive for a text that has the
characters of the query in order, and any other text is a typo at most, below one half. -/
theorem scores_mem_unit (e : EditScorer) (query text : List Char) :
    let q := foldCase s.caseInsensitive query
    let t := foldCase s.caseInsensitive text
    let r : ScoreResult Rat := s.score query text
    let d : ScoreResult Rat := e.score query text
    (s.score query text = r.checked ∧ e.score query text = d.checked ∧
        (q ≠ [] → Subsequence.score q t = (Subsequence.score q t : ScoreResult Rat).checked)) ∧
      (0 ≤ r.score ∧ r.score ≤ 1) ∧ (0 ≤ d.score ∧ d.score ≤ 1) ∧
      (r.score = 1 ↔ q = t) ∧ (q.Sublist t → 0 < r.score) ∧
      (¬q.Sublist t → r = (if s.typoTolerance then s.typoScore query text else .noMatch) ∧
        r.score < 1 / 2) := by
  intro q t r d
  obtain ⟨hnonneg, hle, -⟩ := e.score_mem_unit query text
  have hpositive : q.Sublist t → 0 < r.score := fun h => by
    have hlower := (s.score_mem_of_inOrder h).1
    linarith
  refine ⟨⟨s.score_checked query text, e.score_checked query text, ?_⟩, ?_, ⟨hnonneg, hle⟩, ?_, hpositive,
    fun h => ⟨s.score_of_not_inOrder h, (s.score_mem_of_not_inOrder h).2⟩⟩
  · exact fun hquery => Subsequence.score_checked hquery t
  · by_cases h : q.Sublist t
    · exact ⟨(hpositive h).le, (s.score_mem_of_inOrder h).2.1⟩
    · obtain ⟨hlower, hupper⟩ := s.score_mem_of_not_inOrder h
      exact ⟨hlower, by linarith⟩
  · constructor
    · intro hone
      have hsub : q.Sublist t := by
        -- Full marks are not given to a typo, and in order only to the same text.
        by_contra h
        have hupper := (s.score_mem_of_not_inOrder h).2
        linarith
      by_contra hne
      exact absurd hone ((s.score_mem_of_inOrder hsub).2.2 hne).ne
    · exact s.score_of_same

end ReferenceScorer

end ShellAssist
