import ShellAssist.Score.Subsequence
import ShellAssist.Proofs.Text.Basic
import Mathlib.Algebra.Order.Ring.Rat
import Mathlib.Tactic.Linarith
import Mathlib.Tactic.NormNum
import Mathlib.Tactic.Positivity

namespace ShellAssist

/-!
# Which texts match

With exact scores a text matches a query for the reference scorer exactly if it has the characters
of the query in order, or is near enough to count as a typo. Equal texts, beginnings and occurrences
are cases of the first.

* `Subsequence.isSome_scan_iff` — the scan finds a query just if its characters stand in order;
* `ReferenceScorer.isMatch_score_of_begins` — a beginning matches in doubles as well;
* `ReferenceScorer.score_of_apart` — the score of a text that does not contain the query;
* `Subsequence.le_score` — the least that a match in order scores;
* `ReferenceScorer.score_of_inOrder`, `ReferenceScorer.score_of_not_inOrder` — what decides about it;
* `ReferenceScorer.isMatch_score_iff` — which texts match.
-/

namespace Subsequence

variable {σ : Type} [Scalar σ]

/-- Taking every character at its first place finds all of the query if that can be done at all. -/
theorem isSome_scan_iff (previous : Option Char) (position : Nat) (opened : Option Nat) (run : Nat)
    (total : σ) (query text : List Char) :
    (scan previous position opened run total query text).isSome = true ↔ query.Sublist text := by
  induction text generalizing previous position opened run total query with
  | nil => cases query <;> simp [scan]
  | cons t text ih =>
    cases query with
    | nil => simp [scan]
    | cons q query =>
      rw [scan]
      by_cases h : q = t
      · rw [if_pos h, ih, h, List.cons_sublist_cons]
      · rw [if_neg h, Option.isSome_map, ih]
        constructor
        · exact fun hsub => hsub.cons t
        · exact fun hsub => hsub.of_cons_of_ne h

/-- A text without the characters of the query in order does not match. -/
theorem score_of_not_sublist {query text : List Char} (h : ¬query.Sublist text) :
    (score query text : ScoreResult σ) = .noMatch := by
  have hnone : scan none 0 none 0 (Scalar.ofNat 0 : σ) query text = none :=
    Option.not_isSome_iff_eq_none.mp (mt (isSome_scan_iff _ _ _ _ _ query text).mp h)
  rw [score, hnone]

end Subsequence

/-! ### Scores in any numbers -/

/-- In these numbers the two scores of a text that begins with the query are more than none. -/
def Scalar.RanksBeginnings (σ : Type) [Scalar σ] : Prop :=
  Scalar.less (Scalar.ofNat 0) (Scalar.ofNat 1 : σ) = true ∧
    Scalar.less (Scalar.ofNat 0) (0.9 : σ) = true

/-- In doubles as well, a beginning is a match. -/
theorem Scalar.ranksBeginnings_float : RanksBeginnings Float := by
  constructor <;> decide

/-- A text that begins with the query matches. -/
theorem ReferenceScorer.isMatch_score_of_begins {σ : Type} [Scalar σ]
    (hscalar : Scalar.RanksBeginnings σ) (s : ReferenceScorer) {query text : List Char}
    (h : foldCase s.caseInsensitive query <+: foldCase s.caseInsensitive text) :
    (s.score query text : ScoreResult σ).isMatch = true := by
  rw [score]
  by_cases heq : foldCase s.caseInsensitive query = foldCase s.caseInsensitive text
  · rw [if_pos heq]
    exact hscalar.1
  · rw [if_neg heq, if_pos (List.isPrefixOf_iff_prefix.mpr h)]
    exact hscalar.2

/-- Case is folded by lowering. -/
@[simp]
theorem foldCase_true (text : List Char) : foldCase true text = Chars.lower text :=
  rfl

/-- A text that does not contain the query is scored for a match in order, or else as a typo. -/
theorem ReferenceScorer.score_of_apart {σ : Type} [Scalar σ] (s : ReferenceScorer)
    {query text : List Char}
    (h : ¬foldCase s.caseInsensitive query <:+: foldCase s.caseInsensitive text) :
    let inOrder : ScoreResult σ :=
      Subsequence.score (foldCase s.caseInsensitive query) (foldCase s.caseInsensitive text)
    s.score query text
      = if inOrder.isMatch || !s.typoTolerance then inOrder else s.typoScore query text := by
  have hne : foldCase s.caseInsensitive query ≠ foldCase s.caseInsensitive text :=
    fun heq => h (heq ▸ List.infix_refl _)
  have hprefix : ¬(foldCase s.caseInsensitive query).isPrefixOf (foldCase s.caseInsensitive text) = true :=
    fun hprefix => h (List.isPrefixOf_iff_prefix.mp hprefix).isInfix
  have hindex : Chars.indexOf? (foldCase s.caseInsensitive query) (foldCase s.caseInsensitive text) = none :=
    Option.not_isSome_iff_eq_none.mp (mt Chars.isSome_indexOf?_iff.mp h)
  rw [score, if_neg hne, if_neg hprefix, hindex]

/-- Where the query does not occur, its characters are looked for in order, and then typos. -/
theorem ReferenceScorer.score_of_not_occurs {σ : Type} [Scalar σ] {query text : List Char}
    (h : ¬Chars.lower query <:+: Chars.lower text) :
    (score {} query text : ScoreResult σ)
      = if (Subsequence.score (Chars.lower query) (Chars.lower text) : ScoreResult σ).isMatch = true
        then Subsequence.score (Chars.lower query) (Chars.lower text) else typoScore {} query text := by
  simpa using score_of_apart {} h

/-- A text that is near enough is scored by the edits that it is away. -/
theorem EditScorer.score_of_near {σ : Type} [Scalar σ] {s : EditScorer} {query text : List Char} :
    let q := foldCase s.caseInsensitive query
    let t := foldCase s.caseInsensitive text
    0 < max q.length t.length → (editDistance q t : Int) ≤ s.maxDistance →
      (s.score query text : ScoreResult σ)
        = { score := Scalar.ofNat 1
              - Scalar.ofNat (editDistance q t) / Scalar.ofNat (max q.length t.length) } := by
  intro q t hlongest hnear
  have hnone : ¬(decide (max q.length t.length = 0) || decide (s.maxDistance < editDistance q t)) = true := by
    simp only [Bool.or_eq_true, decide_eq_true_eq]
    omega
  rw [score]
  exact if_neg hnone

/-- A text that shares nothing with the query is scored by its edits. -/
theorem EditScorer.score_of_far {σ : Type} [Scalar σ] {s : EditScorer} {query text : List Char} :
    let q := foldCase s.caseInsensitive query
    let t := foldCase s.caseInsensitive text
    ¬(0 < max q.length t.length ∧ (editDistance q t : Int) ≤ s.maxDistance) →
      (s.score query text : ScoreResult σ) = .noMatch := by
  intro q t hfar
  have hnone : (decide (max q.length t.length = 0) || decide (s.maxDistance < editDistance q t)) = true := by
    simp only [Bool.or_eq_true, decide_eq_true_eq]
    omega
  rw [score]
  exact if_pos hnone

/-! ### Exact scores -/

namespace ScoreResult

/-- A match is a score above zero. -/
theorem isMatch_iff {r : ScoreResult Rat} : r.isMatch = true ↔ 0 < r.score :=
  decide_eq_true_iff

/-- No match is none. -/
theorem not_isMatch_noMatch : ¬(noMatch : ScoreResult Rat).isMatch = true := by
  decide

end ScoreResult

namespace Subsequence

variable {query text : List Char}

/-- Every matched character adds three halves at least. -/
theorem le_of_scan {previous : Option Char} {position : Nat} {opened : Option Nat} {run : Nat}
    {total sum : Rat} {spans : List Span}
    (h : scan previous position opened run total query text = some (sum, spans)) :
    total + query.length * (3 / 2) ≤ sum := by
  -- Each character of the query found is worth a bonus of one and a half at least.
  induction text generalizing previous position opened run total query spans with
  | nil =>
    cases query with
    | nil =>
      obtain ⟨rfl, -⟩ := Prod.mk.inj (Option.some.inj h)
      simp
    | cons q query => cases h
  | cons t text ih =>
    cases query with
    | nil =>
      obtain ⟨rfl, -⟩ := Prod.mk.inj (Option.some.inj h)
      simp
    | cons q query =>
      rw [scan] at h
      split at h
      · have hlater := ih h
        have hbonus : (3 / 2 : Rat) ≤ bonus (run + 1) := by
          show (3 / 2 : Rat) ≤ (1 : Nat) + ((run + 1 : Nat) : Rat) * 0.5
          push_cast
          have hrun : (0 : Rat) ≤ run := Nat.cast_nonneg run
          linarith
        have hgained : total + bonus (run + 1) ≤
            if startsWord previous then total + bonus (run + 1) + Scalar.ofNat 2
            else total + bonus (run + 1) := by
          split
          · show total + bonus (run + 1) ≤ total + bonus (run + 1) + ((2 : Nat) : Rat)
            push_cast
            linarith
          · exact le_rfl
        rw [List.length_cons]
        push_cast
        linarith
      · obtain ⟨⟨sum', spans'⟩, hscan, heq⟩ := Option.map_eq_some_iff.mp h
        obtain ⟨rfl, -⟩ := Prod.mk.inj heq
        exact ih hscan

/-- The part of a text's characters that are not the query's. -/
def unmatched (queryLength textLength : Nat) : Rat :=
  ((textLength - queryLength : Nat) : Rat) / textLength

/-- The share of a text that is not matched is not negative. -/
theorem unmatched_nonneg (queryLength textLength : Nat) : 0 ≤ unmatched queryLength textLength :=
  div_nonneg (Nat.cast_nonneg _) (Nat.cast_nonneg _)

/-- It is not the whole text. -/
theorem unmatched_lt_one {queryLength textLength : Nat} (hquery : 0 < queryLength)
    (hle : queryLength ≤ textLength) : unmatched queryLength textLength < 1 := by
  have htext : (0 : Rat) < textLength := by exact_mod_cast hquery.trans_le hle
  rw [unmatched, div_lt_one htext]
  exact_mod_cast Nat.sub_lt (hquery.trans_le hle) hquery

/-- The share of what the query's characters can add, cut off and lowered for the unmatched ones. -/
theorem normalize_eq (total : Rat) (queryLength textLength : Nat) :
    normalize total queryLength textLength
      = min 1 (total / (queryLength * 3)) * (1 - unmatched queryLength textLength * (1 / 5)) := by
  have hcapped : (if Scalar.less (Scalar.ofNat 1) (total / Scalar.ofNat (queryLength * 3))
      then (Scalar.ofNat 1 : Rat) else total / Scalar.ofNat (queryLength * 3))
        = min 1 (total / (queryLength * 3)) := by
    have hshare : total / (Scalar.ofNat (queryLength * 3) : Rat) = total / (queryLength * 3) := by
      show total / ((queryLength * 3 : Nat) : Rat) = _
      push_cast
      rfl
    have hone : (Scalar.ofNat 1 : Rat) = 1 := Nat.cast_one
    have hless {a b : Rat} : Scalar.less a b = true ↔ a < b := decide_eq_true_iff
    rw [hshare, hone]
    -- The cap is a minimum, written as a comparison in the program.
    by_cases h : (1 : Rat) < total / (queryLength * 3)
    · rw [if_pos (hless.mpr h), min_eq_left h.le]
    · rw [if_neg (mt hless.mp h), min_eq_right (not_lt.mp h)]
  rw [normalize]
  simp only [hcapped]
  show min 1 (total / (queryLength * 3)) * ((1 : Nat) - unmatched queryLength textLength * 0.2) = _
  norm_num

/-- **The least that a match in order scores.** -/
theorem le_score (hquery : query ≠ []) (h : query.Sublist text) :
    (1 - unmatched query.length text.length * (1 / 5)) * (1 / 2)
      ≤ (score query text : ScoreResult Rat).score := by
  obtain ⟨⟨sum, spans⟩, hscan⟩ := Option.isSome_iff_exists.mp
    ((isSome_scan_iff none 0 none 0 (Scalar.ofNat 0 : Rat) query text).mpr h)
  have hsum := le_of_scan hscan
  rw [show (Scalar.ofNat 0 : Rat) = 0 from Nat.cast_zero, zero_add] at hsum
  have hlength : (0 : Rat) < query.length := by exact_mod_cast List.length_pos_of_ne_nil hquery
  -- Each character earns half of what it could earn at most.
  have hshare : (1 / 2 : Rat) ≤ min 1 (sum / (query.length * 3)) := by
    refine le_min (by norm_num) ?_
    rw [le_div_iff₀ (by positivity)]
    linarith
  have hunmatched := unmatched_lt_one (List.length_pos_of_ne_nil hquery) h.length_le
  rw [score, hscan]
  show _ ≤ normalize sum query.length text.length
  rw [normalize_eq, mul_comm]
  exact mul_le_mul_of_nonneg_right hshare (by linarith)

/-- The sum of a query found is a match. -/
theorem isMatch_score_iff (hquery : query ≠ []) :
    (score query text : ScoreResult Rat).isMatch = true ↔ query.Sublist text := by
  constructor
  · intro hmatch
    by_contra hapart
    rw [score_of_not_sublist hapart] at hmatch
    exact ScoreResult.not_isMatch_noMatch hmatch
  · intro hsub
    have hscore := le_score hquery hsub
    have hunmatched := unmatched_lt_one (List.length_pos_of_ne_nil hquery) hsub.length_le
    exact ScoreResult.isMatch_iff.mpr (by linarith)

end Subsequence

/-! ### Scorers -/

/-- The score of a text that is near enough, in exact numbers. -/
theorem EditScorer.exactScore_of_near {s : EditScorer} {query text : List Char} :
    let q := foldCase s.caseInsensitive query
    let t := foldCase s.caseInsensitive text
    0 < max q.length t.length → (editDistance q t : Int) ≤ s.maxDistance →
      (s.score query text : ScoreResult Rat).score
        = 1 - (editDistance q t : Rat) / (max q.length t.length : Nat) := by
  intro q t hlongest hnear
  rw [score_of_near hlongest hnear]
  show ((1 : Nat) : Rat) - _ = _
  rw [Nat.cast_one]
  rfl

/-- The edit scorer takes a text for a match just in these cases. -/
theorem EditScorer.isMatch_score_iff (s : EditScorer) (query text : List Char) :
    let q := foldCase s.caseInsensitive query
    let t := foldCase s.caseInsensitive text
    (s.score query text : ScoreResult Rat).isMatch = true ↔
      (editDistance q t : Int) ≤ s.maxDistance ∧ editDistance q t < max q.length t.length := by
  intro q t
  by_cases hnear : 0 < max q.length t.length ∧ (editDistance q t : Int) ≤ s.maxDistance
  · obtain ⟨hlongest, hnear⟩ := hnear
    have hpos : (0 : Rat) < ((max q.length t.length : Nat) : Rat) := by exact_mod_cast hlongest
    rw [ScoreResult.isMatch_iff, exactScore_of_near hlongest hnear, and_iff_right hnear, sub_pos,
      div_lt_one hpos]
    exact Nat.cast_lt
  · rw [score_of_far hnear]
    refine iff_of_false ScoreResult.not_isMatch_noMatch fun h => hnear ⟨?_, h.1⟩
    exact Nat.lt_of_le_of_lt (Nat.zero_le _) h.2

namespace ReferenceScorer

/-- A typo is a match as it is for edits alone; half of a score is no less than positive. -/
theorem isMatch_typoScore_iff (s : ReferenceScorer) (query text : List Char) :
    (s.typoScore query text : ScoreResult Rat).isMatch = true ↔
      (s.typos.score query text : ScoreResult Rat).isMatch = true := by
  rw [typoScore]
  split
  · rename_i hmatch
    refine iff_of_true (ScoreResult.isMatch_iff.mpr ?_) hmatch
    have hpos := ScoreResult.isMatch_iff.mp hmatch
    show (0 : Rat) < (s.typos.score query text).score * 0.5
    linarith
  · rename_i hmatch
    exact iff_of_false ScoreResult.not_isMatch_noMatch hmatch

/-! ### The ways to match -/

section Ways

variable (s : ReferenceScorer) {query text : List Char}

/-- The same text scores one. -/
theorem score_of_same (h : foldCase s.caseInsensitive query = foldCase s.caseInsensitive text) :
    (s.score query text : ScoreResult Rat).score = 1 := by
  rw [score, if_pos h]
  exact Nat.cast_one

/-- A beginning scores nine tenths. -/
theorem score_of_begins (hne : foldCase s.caseInsensitive query ≠ foldCase s.caseInsensitive text)
    (h : foldCase s.caseInsensitive query <+: foldCase s.caseInsensitive text) :
    (s.score query text : ScoreResult Rat).score = 9 / 10 := by
  rw [score, if_neg hne, if_pos (List.isPrefixOf_iff_prefix.mpr h)]
  show (0.9 : Rat) = 9 / 10
  norm_num

/-- An occurrence scores four fifths. -/
theorem score_of_occurs (hbegins : ¬foldCase s.caseInsensitive query <+: foldCase s.caseInsensitive text)
    (h : foldCase s.caseInsensitive query <:+: foldCase s.caseInsensitive text) :
    (s.score query text : ScoreResult Rat).score = 4 / 5 := by
  have hne : foldCase s.caseInsensitive query ≠ foldCase s.caseInsensitive text :=
    fun heq => hbegins (heq ▸ List.prefix_refl _)
  obtain ⟨i, hindex⟩ := Option.isSome_iff_exists.mp (Chars.isSome_indexOf?_iff.mpr h)
  rw [score, if_neg hne, if_neg (mt List.isPrefixOf_iff_prefix.mp hbegins), hindex]
  show (0.8 : Rat) = 4 / 5
  norm_num

/-- Characters in order are scored by where they stand. -/
theorem score_of_inOrder (hoccurs : ¬foldCase s.caseInsensitive query <:+: foldCase s.caseInsensitive text)
    (h : (foldCase s.caseInsensitive query).Sublist (foldCase s.caseInsensitive text)) :
    (s.score query text : ScoreResult Rat)
      = Subsequence.score (foldCase s.caseInsensitive query) (foldCase s.caseInsensitive text) := by
  have hquery : foldCase s.caseInsensitive query ≠ [] := fun hnil => hoccurs (hnil ▸ List.nil_infix)
  rw [score_of_apart s hoccurs, (Subsequence.isMatch_score_iff hquery).mpr h, Bool.true_or, if_pos rfl]

/-- A text without the characters of the query in order matches as a typo or not at all. -/
theorem score_of_not_inOrder
    (h : ¬(foldCase s.caseInsensitive query).Sublist (foldCase s.caseInsensitive text)) :
    (s.score query text : ScoreResult Rat)
      = if s.typoTolerance then s.typoScore query text else .noMatch := by
  rw [score_of_apart s fun hoccurs => h hoccurs.sublist, Subsequence.score_of_not_sublist h,
    Bool.eq_false_iff.mpr ScoreResult.not_isMatch_noMatch, Bool.false_or]
  cases s.typoTolerance <;> rfl

/-- What a text scores that contains the query. -/
theorem four_fifths_le_score
    (h : foldCase s.caseInsensitive query <:+: foldCase s.caseInsensitive text) :
    4 / 5 ≤ (s.score query text : ScoreResult Rat).score := by
  by_cases heq : foldCase s.caseInsensitive query = foldCase s.caseInsensitive text
  · rw [s.score_of_same heq]
    norm_num
  by_cases hbegins : foldCase s.caseInsensitive query <+: foldCase s.caseInsensitive text
  · rw [s.score_of_begins heq hbegins]
    norm_num
  · rw [s.score_of_occurs hbegins h]

end Ways

/-- **Which texts match**: those with the characters of the query in order, and with typo tolerance
those that a few edits turn into it. -/
theorem isMatch_score_iff (s : ReferenceScorer) (query text : List Char) :
    let q := foldCase s.caseInsensitive query
    let t := foldCase s.caseInsensitive text
    (s.score query text : ScoreResult Rat).isMatch = true ↔
      q.Sublist t ∨ s.typoTolerance = true ∧ (editDistance q t : Int) ≤ s.maxDistance ∧
        editDistance q t < max q.length t.length := by
  intro q t
  -- A match in order is one always; else the typo has to be allowed and near.
  by_cases hsub : q.Sublist t
  · refine iff_of_true ?_ (.inl hsub)
    by_cases hoccurs : q <:+: t
    · have hscore := s.four_fifths_le_score hoccurs
      exact ScoreResult.isMatch_iff.mpr (by linarith)
    · have hquery : q ≠ [] := fun hnil => hoccurs (hnil ▸ List.nil_infix)
      rw [s.score_of_inOrder hoccurs hsub]
      exact (Subsequence.isMatch_score_iff hquery).mpr hsub
  · rw [s.score_of_not_inOrder hsub, or_iff_right hsub]
    by_cases htypo : s.typoTolerance = true
    · rw [if_pos htypo, isMatch_typoScore_iff, and_iff_right htypo]
      exact s.typos.isMatch_score_iff query text
    · rw [if_neg htypo]
      exact iff_of_false ScoreResult.not_isMatch_noMatch fun h => htypo h.1

end ReferenceScorer

end ShellAssist
