import ShellAssist.Proofs.Score.Edits
import ShellAssist.Proofs.Score.Matching
import ShellAssist.Proofs.Text.Folded
import Mathlib.Tactic.Ring

namespace ShellAssist

/-!
# Typos and matches

A typo is a match at half the weight, and so below every text that contains the query. A match in order
scores less the longer the text is, down to two fifths if its characters are apart: a typo in a query of
six characters or more can be above one in a long text.

* `ReferenceScorer.MatchesAsTypo` — texts that match in no other way;
* `ReferenceScorer.typo_le` — the most that a typo scores for a query;
* `ReferenceScorer.typo_lt_match` — a match in order is above that in a text that is not too long;
* `Subsequence.score_spread` — texts in which a match scores the least;
* `ReferenceScorer.typo_lt_match_iff` — which queries have all typos below all matches.
-/

/-! ### Edits that only insert -/

theorem Edit.sublist_of_longer {a b : List Char} (h : Edit a b) (hlength : b.length = a.length + 1) :
    a.Sublist b := by
  cases h with
  | insert before after c => exact (List.Sublist.refl before).append (List.sublist_cons_self c after)
  | delete before after c =>
    simp only [List.length_append, List.length_cons] at hlength
    omega
  | substitute before after c d =>
    simp only [List.length_append, List.length_cons] at hlength
    omega

/-- A text that is longer by as many characters as there were edits has those of the other in order. -/
theorem Edits.sublist_of_longer {n : Nat} {a b : List Char} (h : Edits n a b)
    (hlength : b.length = a.length + n) : a.Sublist b := by
  induction h with
  | none a => exact List.Sublist.refl a
  | @cons n a b c edit edits ih =>
    have hfirst := edit.symm.length_le
    have hlater := edits.symm.length_le
    exact (edit.sublist_of_longer (by omega)).trans (ih (by omega))

/-! ### The most that a typo scores -/

namespace ReferenceScorer

/-- A text that matches, but does not have the characters of the query in order. -/
def MatchesAsTypo (query text : List Char) : Prop :=
  (score {} query text : ScoreResult Rat).isMatch = true ∧
    ¬(Chars.lower query).Sublist (Chars.lower text)

variable {query text : List Char}

/-- Texts without the characters of the query in order are scored as typos. -/
theorem score_of_not_sublist (h : ¬(Chars.lower query).Sublist (Chars.lower text)) :
    (score {} query text : ScoreResult Rat) = typoScore {} query text :=
  score_of_not_inOrder {} h

/-- The score of a typo is half of the one by edits. -/
theorem score_of_typo (h : MatchesAsTypo query text) :
    let distance := editDistance (Chars.lower query) (Chars.lower text)
    let longest := max (Chars.lower query).length (Chars.lower text).length
    (score {} query text : ScoreResult Rat).score = (1 - distance / longest) * (1 / 2) ∧
      distance < longest := by
  intro distance longest
  obtain ⟨hmatch, hapart⟩ := h
  rw [score_of_not_sublist hapart] at hmatch ⊢
  rw [isMatch_typoScore_iff] at hmatch
  obtain ⟨hnear, hlt⟩ : (distance : Int) ≤ 3 ∧ distance < longest :=
    (EditScorer.isMatch_score_iff _ query text).mp hmatch
  -- Not found in order, the text is scored by its distance, at half the weight.
  have hscore : ((typos {}).score query text : ScoreResult Rat).score = 1 - distance / longest :=
    EditScorer.exactScore_of_near (Nat.lt_of_le_of_lt (Nat.zero_le _) hlt) hnear
  refine ⟨?_, hlt⟩
  rw [typoScore]
  simp only [if_pos hmatch]
  rw [hscore]
  show (1 - (distance : Rat) / longest) * 0.5 = _
  norm_num

/-- The longer one of the query and a typo has no more characters than the query for each edit. -/
theorem longest_le_of_not_sublist {query text : List Char} (h : ¬query.Sublist text) :
    max query.length text.length ≤ query.length * editDistance query text := by
  have hscript : Edits (editDistance query text) query text :=
    editDistance_eq_between query text ▸ EditDistance.edits_between query text
  have hlonger : text.length ≤ query.length + editDistance query text := hscript.symm.length_le
  -- Edits that all insert would leave the characters of the query in order.
  have hne : text.length ≠ query.length + editDistance query text :=
    fun hlength => h (hscript.sublist_of_longer hlength)
  obtain ⟨n, hn⟩ : ∃ n, query.length = n + 1 :=
    Nat.exists_eq_succ_of_ne_zero fun hnil => h (List.length_eq_zero_iff.mp hnil ▸ List.nil_sublist _)
  obtain ⟨d, hd⟩ : ∃ d, editDistance query text = d + 1 :=
    Nat.exists_eq_succ_of_ne_zero fun hzero => h ((hzero ▸ hscript).eq_of_zero ▸ List.Sublist.refl _)
  have hproduct : (n + 1) * (d + 1) = n * d + n + d + 1 := by ring
  rw [hn, hd] at hlonger hne
  rw [hn, hd, hproduct]
  omega

/-- **The most that a typo scores for a query.** -/
theorem typo_le (h : MatchesAsTypo query text) :
    0 < (score {} query text : ScoreResult Rat).score ∧ 0 < (Chars.lower query).length ∧
      (score {} query text : ScoreResult Rat).score ≤ (1 - 1 / (Chars.lower query).length) * (1 / 2) := by
  obtain ⟨hscore, hlt⟩ := score_of_typo h
  have hquery : 0 < (Chars.lower query).length :=
    List.length_pos_iff.mpr fun hnil => h.2 (hnil ▸ List.nil_sublist _)
  have hlongest := longest_le_of_not_sublist h.2
  refine ⟨ScoreResult.isMatch_iff.mp h.1, hquery, ?_⟩
  rw [hscore]
  generalize editDistance (Chars.lower query) (Chars.lower text) = distance at *
  have hpos : (0 : Rat) < (max (Chars.lower query).length (Chars.lower text).length : Nat) := by
    exact_mod_cast Nat.lt_of_le_of_lt (Nat.zero_le _) hlt
  have hquery : (0 : Rat) < (Chars.lower query).length := by exact_mod_cast hquery
  -- One edit in the length of the query is the least a typo can cost.
  have hshare : 1 / ((Chars.lower query).length : Rat)
      ≤ distance / (max (Chars.lower query).length (Chars.lower text).length : Nat) := by
    rw [div_le_div_iff₀ hquery hpos, one_mul, mul_comm]
    exact_mod_cast hlongest
  linarith

end ReferenceScorer

/-! ### The least that a match scores -/

namespace ReferenceScorer

variable {query typo text : List Char}

/-- What a text scores that contains the query. -/
theorem le_score_of_occurs (h : Chars.lower query <:+: Chars.lower text) :
    4 / 5 ≤ (score {} query text : ScoreResult Rat).score :=
  four_fifths_le_score {} h

/-- A text that has the characters of the query in order, but apart, has the score of that. -/
theorem score_of_sublist (h : (Chars.lower query).Sublist (Chars.lower text))
    (hapart : ¬Chars.lower query <:+: Chars.lower text) :
    (score {} query text : ScoreResult Rat)
      = Subsequence.score (Chars.lower query) (Chars.lower text) :=
  score_of_inOrder {} hapart h

theorem le_score_of_sublist (hquery : Chars.lower query ≠ [])
    (h : (Chars.lower query).Sublist (Chars.lower text)) :
    (1 - Subsequence.unmatched (Chars.lower query).length (Chars.lower text).length * (1 / 5)) * (1 / 2)
      ≤ (score {} query text : ScoreResult Rat).score := by
  by_cases hoccurs : Chars.lower query <:+: Chars.lower text
  · have hscore := le_score_of_occurs hoccurs
    have hnonneg :=
      Subsequence.unmatched_nonneg (Chars.lower query).length (Chars.lower text).length
    linarith
  · rw [score_of_sublist h hoccurs]
    exact Subsequence.le_score hquery h

theorem lt_score_of_sublist (hquery : Chars.lower query ≠ [])
    (h : (Chars.lower query).Sublist (Chars.lower text)) :
    2 / 5 < (score {} query text : ScoreResult Rat).score := by
  have hscore := le_score_of_sublist hquery h
  have hlt := Subsequence.unmatched_lt_one (List.length_pos_of_ne_nil hquery) h.length_le
  linarith

/-- **A typo scores less than a match in order** in a text that is not too long for the query. -/
theorem typo_lt_match (htypo : MatchesAsTypo query typo)
    (h : (Chars.lower query).Sublist (Chars.lower text))
    (hshort : (Chars.lower text).length * ((Chars.lower query).length - 5)
      < (Chars.lower query).length * (Chars.lower query).length) :
    (score {} query typo : ScoreResult Rat).score < (score {} query text : ScoreResult Rat).score := by
  obtain ⟨-, hpos, hle⟩ := typo_le htypo
  have hscore := le_score_of_sublist (List.ne_nil_of_length_pos hpos) h
  have hlength := h.length_le
  generalize (Chars.lower query).length = n at *
  generalize (Chars.lower text).length = m at *
  -- What is left is that the unmatched part costs the match less than one edit costs the typo.
  have hfew : n * (m - n) < 5 * m := by
    obtain ⟨k, rfl⟩ := Nat.exists_eq_add_of_le hlength
    rw [Nat.add_sub_cancel_left]
    rcases Nat.le_total n 5 with hn | hn
    · have hk := Nat.mul_le_mul_right k hn
      omega
    · obtain ⟨j, rfl⟩ := Nat.exists_eq_add_of_le hn
      rw [Nat.add_sub_cancel_left] at hshort
      linarith
  have hunmatched : Subsequence.unmatched n m * (1 / 5) < 1 / n := by
    have hn : (0 : Rat) < n := by exact_mod_cast hpos
    have hm : (0 : Rat) < m := by exact_mod_cast hpos.trans_le hlength
    have hfew : (n : Rat) * (m - n : Nat) < 5 * m := by exact_mod_cast hfew
    rw [Subsequence.unmatched, div_mul_div_comm, div_lt_div_iff₀ (by positivity) hn]
    linarith
  linarith

end ReferenceScorer

/-! ### Matches that score the least -/

/-- A character to fill up with in front of `c`, one of two. -/
def filler (a b c : Char) : Char :=
  if c = a then b else a

/-- A text with the characters of a query in order, each of them behind as many others. -/
def spread (a b : Char) (gap : Nat) (query : List Char) : List Char :=
  query.flatMap fun c => List.replicate gap (filler a b c) ++ [c]

section Spread

variable {a b : Char} {gap : Nat} {query : List Char}

theorem spread_cons (c : Char) (query : List Char) :
    spread a b gap (c :: query)
      = List.replicate gap (filler a b c) ++ c :: spread a b gap query := by
  rw [spread, List.flatMap_cons, List.append_assoc]
  rfl

theorem length_spread (a b : Char) (gap : Nat) (query : List Char) :
    (spread a b gap query).length = query.length * (gap + 1) := by
  induction query with
  | nil => exact (Nat.zero_mul _).symm
  | cons c query ih =>
    rw [spread_cons, List.length_append, List.length_replicate, List.length_cons, ih, List.length_cons,
      Nat.succ_mul]
    omega

theorem mem_spread {d : Char} (hd : d ∈ spread a b gap query) : d = a ∨ d = b ∨ d ∈ query := by
  obtain ⟨c, hc, hd⟩ := List.mem_flatMap.mp hd
  rcases List.mem_append.mp hd with hfiller | hown
  · have hd := (List.mem_replicate.mp hfiller).2
    rw [filler] at hd
    split at hd
    · exact .inr (.inl hd)
    · exact .inl hd
  · exact .inr (.inr (List.mem_singleton.mp hown ▸ hc))

/-- Behind fillers a character is matched by itself and adds three halves. -/
theorem Subsequence.scan_replicate {c d : Char} (hne : c ≠ d) (hword : startsWord (some d) = false)
    (previous : Option Char) (position : Nat) (opened : Option Nat) (run : Nat) (total : Rat)
    (query text : List Char) :
    (scan previous position opened run total (c :: query) (List.replicate (gap + 1) d ++ c :: text)).map
        (·.1)
      = (scan (some c) (position + gap + 2) (some (position + gap + 1)) 1 (total + 3 / 2) query text).map
        (·.1) := by
  -- Each filler resets the run, so the character behind them earns the plain bonus.
  induction gap generalizing previous position opened run with
  | zero =>
    have hbonus : (bonus (0 + 1) : Rat) = 3 / 2 := by
      show ((1 : Nat) : Rat) + ((1 : Nat) : Rat) * 0.5 = 3 / 2
      norm_num
    show Option.map _ (scan previous position opened run total (c :: query) (d :: c :: text)) = _
    rw [scan, if_neg hne, scan, if_pos rfl, Option.map_map]
    simp only [hword, if_neg Bool.false_ne_true, hbonus]
    rfl
  | succ gap ih =>
    have hlater := ih (some d) (position + 1) none 0
    rw [Nat.add_right_comm position 1 gap] at hlater
    rw [List.replicate_succ, List.cons_append, scan, if_neg hne, Option.map_map]
    exact hlater

theorem Subsequence.scan_spread (hab : a ≠ b) (ha : startsWord (some a) = false)
    (hb : startsWord (some b) = false) (gap : Nat) (query : List Char) (previous : Option Char)
    (position : Nat) (opened : Option Nat) (run : Nat) (total : Rat) :
    (scan previous position opened run total query (spread a b (gap + 1) query)).map (·.1)
      = some (total + query.length * (3 / 2)) := by
  induction query generalizing previous position opened run total with
  | nil => simp [spread, scan]
  | cons c query ih =>
    have hfiller : c ≠ filler a b c ∧ startsWord (some (filler a b c)) = false := by
      rw [filler]
      split
      · rename_i heq
        exact ⟨heq ▸ hab, hb⟩
      · exact ⟨‹_›, ha⟩
    rw [spread_cons, scan_replicate hfiller.1 hfiller.2, ih, List.length_cons]
    push_cast
    ring_nf

theorem countP_replicate_filler (i : Nat) (c : Char) :
    (List.replicate i (filler a b c)).countP (fun d => d ≠ a ∧ d ≠ b) = 0 := by
  refine List.countP_eq_zero.mpr fun d hd => ?_
  rw [(List.mem_replicate.mp hd).2, filler]
  split <;> simp

/-- Up to the end of the first gap there are fillers only. -/
theorem countP_take_spread {i : Nat} (hi : i ≤ gap) :
    ((spread a b gap query).take i).countP (fun d => d ≠ a ∧ d ≠ b) = 0 := by
  cases query with
  | nil => rw [spread, List.flatMap_nil, List.take_nil]; rfl
  | cons c query =>
    rw [spread_cons, List.take_append_of_le_length (by rwa [List.length_replicate]),
      List.take_replicate, Nat.min_eq_left hi, countP_replicate_filler]

/-- **Of as many characters as a gap has and one more, all but one are fillers.** -/
theorem countP_window_spread (a b : Char) (gap : Nat) (query : List Char) (i : Nat) :
    (((spread a b gap query).drop i).take (gap + 1)).countP (fun d => d ≠ a ∧ d ≠ b) ≤ 1 := by
  induction query generalizing i with
  | nil => rw [spread, List.flatMap_nil, List.drop_nil, List.take_nil]; exact Nat.zero_le 1
  | cons c query ih =>
    rw [spread_cons]
    rcases Nat.lt_or_ge gap i with hlt | hle
    · -- The window is behind the first gap and its character.
      obtain ⟨j, rfl⟩ := Nat.exists_eq_add_of_le hlt
      have hbehind : (List.replicate gap (filler a b c) ++ c :: spread a b gap query).drop (gap + 1)
          = spread a b gap query := by
        rw [← List.drop_drop, List.drop_left' List.length_replicate, List.drop_one, List.tail_cons]
      rw [← List.drop_drop, hbehind]
      exact ih j
    · -- It ends in the gap behind that character.
      have hlength : (List.replicate (gap - i) (filler a b c)).length = gap - i := List.length_replicate
      have hwidth : gap + 1 - (gap - i) = i + 1 := by omega
      rw [List.drop_append_of_le_length (by rwa [List.length_replicate]), List.drop_replicate,
        List.take_append, hlength, hwidth, List.take_succ_cons, List.countP_append, List.countP_cons,
        countP_take_spread hle, List.take_of_length_le (by rw [hlength]; omega),
        countP_replicate_filler]
      split <;> omega

/-- A query with two characters that are no fillers is not found in one piece. -/
theorem not_infix_spread (hgap : query.length ≤ gap + 1)
    (hcount : 2 ≤ query.countP (fun d => d ≠ a ∧ d ≠ b)) : ¬query <:+: spread a b gap query := by
  rintro ⟨before, after, happend⟩
  have hwindow := countP_window_spread a b gap query before.length
  have hquery : query.Sublist (((spread a b gap query).drop before.length).take (gap + 1)) := by
    rw [← happend, List.append_assoc, List.drop_left, List.take_append, List.take_of_length_le hgap]
    exact List.sublist_append_left _ _
  have hle := hquery.countP_le (p := fun d => d ≠ a ∧ d ≠ b)
  omega

/-- **The score of such a text** is the least that its length allows. -/
theorem Subsequence.score_spread (hquery : query ≠ []) (hab : a ≠ b) (ha : startsWord (some a) = false)
    (hb : startsWord (some b) = false) (gap : Nat) :
    query.Sublist (spread a b (gap + 1) query) ∧
      (score query (spread a b (gap + 1) query) : ScoreResult Rat).score
        = (1 - (gap + 1) / (gap + 2) * (1 / 5)) * (1 / 2) := by
  have hscan := scan_spread hab ha hb gap query none 0 none 0 0
  obtain ⟨⟨sum, spans⟩, hscan, hsum⟩ := Option.map_eq_some_iff.mp hscan
  refine ⟨(isSome_scan_iff none 0 none 0 (0 : Rat) query _).mp (by rw [hscan]; rfl), ?_⟩
  have hlength : (0 : Rat) < query.length := by exact_mod_cast List.length_pos_of_ne_nil hquery
  have hzero : (Scalar.ofNat 0 : Rat) = 0 := Nat.cast_zero
  -- Spread out, every character earns a bonus of one and a half out of three.
  have hshare : (0 + query.length * (3 / 2)) / (query.length * 3) = (1 / 2 : Rat) := by
    rw [zero_add, div_eq_iff (by positivity)]
    ring
  have hunmatched : unmatched query.length (query.length * (gap + 1 + 1)) = (gap + 1) / (gap + 2) := by
    have hrest : query.length * (gap + 1 + 1) - query.length = query.length * (gap + 1) := by
      rw [Nat.mul_succ, Nat.add_sub_cancel]
    rw [unmatched, hrest, Nat.cast_mul, Nat.cast_mul, mul_div_mul_left _ _ hlength.ne']
    push_cast
    ring
  rw [score, hzero, hscan]
  obtain rfl : sum = 0 + query.length * (3 / 2) := hsum
  show normalize _ _ _ = _
  rw [normalize_eq, length_spread, hshare, hunmatched, min_eq_right (by norm_num), mul_comm]

end Spread

/-- Among six characters or more two are no `x` and no `y`, or else two are no `v` and no `w`. -/
theorem exists_fillers {query : List Char} (h : 6 ≤ query.length) :
    ∃ a b, a ≠ b ∧ Chars.IsLower a ∧ Chars.IsLower b ∧ Subsequence.startsWord (some a) = false ∧
      Subsequence.startsWord (some b) = false ∧ 2 ≤ query.countP (fun d => d ≠ a ∧ d ≠ b) := by
  by_cases hfirst : 2 ≤ query.countP (fun d => d ≠ 'x' ∧ d ≠ 'y')
  · exact ⟨'x', 'y', by decide, by decide, by decide, by decide, by decide, hfirst⟩
  · refine ⟨'v', 'w', by decide, by decide, by decide, by decide, by decide, ?_⟩
    have hsplit := List.length_eq_countP_add_countP (fun d : Char => decide (d ≠ 'x' ∧ d ≠ 'y'))
      (l := query)
    have hother : query.countP (fun d => decide ¬decide (d ≠ 'x' ∧ d ≠ 'y') = true)
        ≤ query.countP (fun d => d ≠ 'v' ∧ d ≠ 'w') := by
      refine List.countP_mono_left fun d _ hd => ?_
      have hin : d = 'x' ∨ d = 'y' := by
        by_contra hout
        exact absurd hd (by simpa using hout)
      rcases hin with rfl | rfl <;> decide
    omega

namespace ReferenceScorer

/-- The query without its first character is a typo that scores the most. -/
theorem exists_typo (query : List Char) (h : 2 ≤ (Chars.lower query).length) :
    ∃ typo, MatchesAsTypo query typo ∧
      (1 - 1 / (Chars.lower query).length) * (1 / 2) ≤ (score {} query typo : ScoreResult Rat).score := by
  obtain ⟨c, typo, hquery⟩ : ∃ c typo, Chars.lower query = c :: typo :=
    List.exists_cons_of_length_pos (by omega)
  have htypo : Chars.lower typo = typo := Chars.lower_eq_self fun d hd =>
    Chars.isLower_of_mem_lower (hquery ▸ List.mem_cons_of_mem c hd)
  have hlength : (Chars.lower query).length = typo.length + 1 := by rw [hquery]; rfl
  -- The typo is the query without its first character: one deletion away.
  have hdistance : editDistance (Chars.lower query) (Chars.lower typo) ≤ 1 := by
    rw [htypo, hquery, editDistance_eq_between]
    exact EditDistance.between_le_of_edits ((Edits.none typo).cons_delete c)
  have hlongest : max (Chars.lower query).length (Chars.lower typo).length
      = (Chars.lower query).length := by
    rw [htypo]
    omega
  have hmatch : MatchesAsTypo query typo := by
    refine ⟨(isMatch_score_iff {} query typo).mpr (.inr ⟨rfl, ?_⟩), fun hsub => ?_⟩
    · show (editDistance (Chars.lower query) (Chars.lower typo) : Int) ≤ 3 ∧
        editDistance (Chars.lower query) (Chars.lower typo)
          < max (Chars.lower query).length (Chars.lower typo).length
      omega
    · have hle := hsub.length_le
      rw [htypo] at hle
      omega
  obtain ⟨hscore, -⟩ := score_of_typo hmatch
  refine ⟨typo, hmatch, ?_⟩
  rw [hscore, hlongest]
  have hpos : (0 : Rat) < (Chars.lower query).length := by exact_mod_cast Nat.lt_of_lt_of_le two_pos h
  have hshare : (editDistance (Chars.lower query) (Chars.lower typo) : Rat) / (Chars.lower query).length
      ≤ 1 / (Chars.lower query).length :=
    (div_le_div_iff_of_pos_right hpos).mpr (by exact_mod_cast hdistance)
  linarith

/-- A text with the characters of a query each behind as many fillers as these are. -/
theorem exists_apart (query : List Char) (h : 6 ≤ (Chars.lower query).length) :
    ∃ text, (Chars.lower query).Sublist (Chars.lower text) ∧
      (score {} query text : ScoreResult Rat).score
        = (1 - (Chars.lower query).length / ((Chars.lower query).length + 1) * (1 / 5)) * (1 / 2) := by
  obtain ⟨a, b, hab, halower, hblower, haword, hbword, hcount⟩ := exists_fillers h
  obtain ⟨gap, hgap⟩ : ∃ gap, (Chars.lower query).length = gap + 1 :=
    Nat.exists_eq_succ_of_ne_zero (by omega)
  have hquery : Chars.lower query ≠ [] := List.ne_nil_of_length_pos (hgap ▸ gap.succ_pos)
  have htext : Chars.lower (spread a b (gap + 1) (Chars.lower query))
      = spread a b (gap + 1) (Chars.lower query) := Chars.lower_eq_self fun d hd => by
    rcases mem_spread hd with rfl | rfl | hd
    · exact halower
    · exact hblower
    · exact Chars.isLower_of_mem_lower hd
  -- The fillers keep the query from occurring as it stands.
  have hapart : ¬Chars.lower query <:+: spread a b (gap + 1) (Chars.lower query) :=
    not_infix_spread (by omega) hcount
  obtain ⟨hsub, hscore⟩ := Subsequence.score_spread hquery hab haword hbword gap
  rw [← htext] at hapart hsub
  refine ⟨spread a b (gap + 1) (Chars.lower query), hsub, ?_⟩
  rw [score_of_sublist hsub hapart, htext, hscore, hgap]
  push_cast
  ring

/-- **Which queries have all typos below all matches**: those of five characters or less. -/
theorem typo_lt_match_iff (query : List Char) :
    (∀ typo text, MatchesAsTypo query typo → (Chars.lower query).Sublist (Chars.lower text) →
        0 < (score {} query typo : ScoreResult Rat).score ∧
        (score {} query typo : ScoreResult Rat).score < 1 / 2 ∧
        2 / 5 < (score {} query text : ScoreResult Rat).score ∧
        (Chars.lower query <:+: Chars.lower text ∨
            (Chars.lower text).length * ((Chars.lower query).length - 5)
              < (Chars.lower query).length * (Chars.lower query).length →
          (score {} query typo : ScoreResult Rat).score
            < (score {} query text : ScoreResult Rat).score)) ∧
      ((∀ typo text, MatchesAsTypo query typo → (Chars.lower query).Sublist (Chars.lower text) →
          (score {} query typo : ScoreResult Rat).score
            < (score {} query text : ScoreResult Rat).score) ↔
        (Chars.lower query).length ≤ 5) := by
  refine ⟨fun typo text htypo hsub => ?_, fun hall => ?_, fun hshort typo text htypo hsub => ?_⟩
  · obtain ⟨hpositive, hpos, hle⟩ := typo_le htypo
    have hquery : (0 : Rat) < 1 / (Chars.lower query).length := by positivity
    have hscore := lt_score_of_sublist (List.ne_nil_of_length_pos hpos) hsub
    refine ⟨hpositive, by linarith, hscore, ?_⟩
    rintro (hoccurs | hshort)
    · have hoccurs := le_score_of_occurs hoccurs
      linarith
    · exact typo_lt_match htypo hsub hshort
  -- From six characters on, one deletion against the same letters spread far apart.
  · by_contra hlong
    obtain ⟨typo, htypo, hle⟩ := exists_typo query (by omega)
    obtain ⟨text, hsub, hscore⟩ := exists_apart query (by omega)
    have hlt := hall typo text htypo hsub
    rw [hscore] at hlt
    generalize (Chars.lower query).length = n at *
    have hsix : (6 : Rat) ≤ n := by exact_mod_cast not_le.mp hlong
    have hshare : 1 / (n : Rat) ≤ n / (n + 1) * (1 / 5) := by
      rw [div_mul_div_comm, div_le_div_iff₀ (by linarith) (by linarith)]
      nlinarith only [hsix]
    linarith
  · refine typo_lt_match htypo hsub ?_
    obtain ⟨-, hpos, -⟩ := typo_le htypo
    rw [Nat.sub_eq_zero_of_le hshort, Nat.mul_zero]
    exact Nat.mul_pos hpos hpos

/-- A transposition is below a match in order of the same query. -/
theorem transposition_lt_match :
    (score {} "gti".toList "git".toList : ScoreResult Rat).score
      < (score {} "gti".toList "graph of a tiny tree in italics".toList : ScoreResult Rat).score := by
  have htypo : MatchesAsTypo "gti".toList "git".toList := by
    refine ⟨(isMatch_score_iff {} "gti".toList "git".toList).mpr (.inr ?_), ?_⟩ <;> decide
  refine ((typo_lt_match_iff "gti".toList).2.mpr ?_) "git".toList _ htypo ?_ <;> decide

/-- In doubles as well a query of six characters has a typo above a match in order. -/
theorem match_lt_typo_float :
    let query := "commit".toList
    let typo := "comit".toList
    let text := "xcxoxmxmxixtxxxxxxxxxxxxxxxxxxxxxxxxxxxx".toList
    (score {} query typo : ScoreResult Float).isMatch = true ∧
      ¬(Chars.lower query).Sublist (Chars.lower typo) ∧
      (Chars.lower query).Sublist (Chars.lower text) ∧
      ¬((score {} query typo : ScoreResult Float).score
        < (score {} query text : ScoreResult Float).score) := by
  refine ⟨?_, ?_, ?_, ?_⟩ <;> decide +kernel

end ReferenceScorer

end ShellAssist
