import ShellAssist.Proofs.Completion.Asking
import ShellAssist.Proofs.Failure
import ShellAssist.Proofs.Score.Degradation
import ShellAssist.Proofs.Score.FloatOrder
import ShellAssist.Proofs.Text.Sort

namespace ShellAssist.Completion

/-!
# The order of an answer

The candidates of an answer are the first of all that were found: of those that match, by score, or
of all of them by priority.

* `PrecedesByScore`, `PrecedesByPriority` — the two orders, and `isStableSort_rank`,
  `isStableSort_byPriority` — that candidates are sorted by them;
* `IsTop` — what is first in an order, as much of it as is wanted;
* `IsAnswer` — which candidates are an answer, given those that were found and their scores;
* `Completer.getCompletions_isAnswer` — that those that are given are one.
-/

open OrderDual (toDual)

/-! ### By score -/

/-- A scored candidate may stand before another: by a higher score, or by text if the scores are the
same. -/
def PrecedesByScore (a b : Candidate × ScoreResult Float) : Prop :=
  b.2.score < a.2.score ∨ (a.2.score == b.2.score) = true ∧ a.1.text ≤ b.1.text

variable {a b : Candidate × ScoreResult Float}

/-- Numbers are compared by their places in the order. -/
theorem less_iff {x y : Float} (hx : x.isNaN = false) (hy : y.isNaN = false) :
    Scalar.less x y = true ↔ FloatOrder.place x < FloatOrder.place y :=
  decide_eq_true_iff.trans (FloatOrder.lt_iff hx hy)

/-- The order by score, in which candidates are told apart by the places of their scores. -/
theorem precedesByScore_iff (ha : a.2.score.isNaN = false) (hb : b.2.score.isNaN = false) :
    PrecedesByScore a b ↔ FloatOrder.place b.2.score < FloatOrder.place a.2.score ∨
      FloatOrder.place a.2.score = FloatOrder.place b.2.score ∧ a.1.text ≤ b.1.text := by
  rw [PrecedesByScore, FloatOrder.lt_iff hb ha, FloatOrder.beq_iff ha hb]

/-- That is what scored candidates are sorted by. -/
theorem ranksBefore_iff (ha : a.2.score.isNaN = false) (hb : b.2.score.isNaN = false) :
    ranksBefore a b = true ↔ PrecedesByScore a b := by
  have hbefore := less_iff hb ha
  have hbehind := less_iff ha hb
  rw [precedesByScore_iff ha hb, ranksBefore]
  rcases lt_trichotomy (FloatOrder.place b.2.score) (FloatOrder.place a.2.score) with h | h | h
  · rw [if_pos (hbefore.mpr h)]
    exact iff_of_true rfl (.inl h)
  · rw [if_neg (mt hbefore.mp h.not_lt), if_neg (mt hbehind.mp h.not_gt), Text.le_iff]
    exact ⟨fun htext => .inr ⟨h.symm, htext⟩, fun h' => (h'.resolve_left h.not_lt).2⟩
  · rw [if_neg (mt hbefore.mp h.not_gt), if_pos (hbehind.mpr h)]
    refine iff_of_false Bool.false_ne_true ?_
    rintro (h' | ⟨h', -⟩)
    · exact h'.not_gt h
    · exact h.ne h'

/-- Candidates whose scores are numbers are in one order. -/
theorem ordersList_precedesByScore {scored : List (Candidate × ScoreResult Float)}
    (h : ∀ a ∈ scored, a.2.score.isNaN = false) : OrdersList PrecedesByScore scored :=
  .of_key (fun a => toLex (toDual (FloatOrder.place a.2.score), a.1.text)) fun a ha b hb => by
    rw [precedesByScore_iff (h a ha) (h b hb), Prod.Lex.toLex_le_toLex]
    rfl

/-- Of the candidates that are scored, those that match are sorted by score. -/
theorem isStableSort_rank {candidates : List Candidate} {results : List (ScoreResult Float)}
    (h : ∀ r ∈ results, r.score.isNaN = false) :
    IsStableSort PrecedesByScore ((candidates.zip results).filter fun c => ¬ c.2.score ≤ 0)
      (rank candidates results) := by
  have hzip : ∀ c ∈ candidates.zip results, c.2.score.isNaN = false := fun c hc =>
    h c.2 (List.of_mem_zip hc).2
  have hzero : (0 : Float).isNaN = false := by decide
  -- Without a NaN a score counts exactly if it is above zero.
  have hmatch : ((candidates.zip results).filter fun c => c.2.isMatch)
      = (candidates.zip results).filter fun c => ¬ c.2.score ≤ 0 := by
    refine List.filter_congr fun c hc => ?_
    have hscore := hzip c hc
    rw [Bool.eq_iff_iff, decide_eq_true_iff, FloatOrder.le_iff hscore hzero, not_le]
    exact less_iff (y := c.2.score) (by decide) hscore
  have hmem : ∀ c ∈ (candidates.zip results).filter fun c => ¬ c.2.score ≤ 0,
      c.2.score.isNaN = false := fun c hc => hzip c (List.mem_of_mem_filter hc)
  rw [rank, hmatch]
  exact isStableSort_mergeSort (ordersList_precedesByScore hmem) fun a ha b hb =>
    ranksBefore_iff (hmem a ha) (hmem b hb)

/-! ### By priority -/

/-- A candidate may stand before another: by a higher priority, or by text if the priorities are the
same. -/
def PrecedesByPriority (a b : Candidate) : Prop :=
  b.priority < a.priority ∨ a.priority = b.priority ∧ a.text ≤ b.text

/-- That is what candidates without scores are sorted by. -/
theorem precedes_iff (a b : Candidate) : precedes a b = true ↔ PrecedesByPriority a b := by
  rw [precedes, PrecedesByPriority]
  split
  · rename_i h
    rw [Text.le_iff]
    exact ⟨fun htext => .inr ⟨h, htext⟩, fun h' => (h'.resolve_left h.not_gt).2⟩
  · rename_i h
    rw [decide_eq_true_iff]
    exact ⟨.inl, fun h' => h'.resolve_right fun h' => h h'.1⟩

/-- Any candidates are in one order by priority. -/
theorem ordersList_precedesByPriority (candidates : List Candidate) :
    OrdersList PrecedesByPriority candidates :=
  .of_key (fun a => toLex (toDual a.priority, a.text)) fun a _ b _ => by
    rw [PrecedesByPriority, Prod.Lex.toLex_le_toLex]
    rfl

/-- All candidates are sorted by priority. -/
theorem isStableSort_byPriority (candidates : List Candidate) :
    IsStableSort PrecedesByPriority candidates (byPriority candidates) :=
  isStableSort_mergeSort (ordersList_precedesByPriority candidates) fun a _ b _ => precedes_iff a b

/-! ### The first of all -/

section Top

variable {α : Type} {before : α → α → Prop} {all sorted : List α}

/-- What is first of all in an order, as many as are wanted, or all if that is no positive number.
What is left out stands behind, and none of it belongs in front. -/
def IsTop (before : α → α → Prop) (limit : Int) (all top : List α) : Prop :=
  ∃ omitted, IsStableSort before all (top ++ omitted) ∧
    top.length = (if 0 < limit then min limit.toNat all.length else all.length) ∧
    ∀ a ∈ top, ∀ b ∈ omitted, ¬ (before b a ∧ ¬ before a b)

/-- What is cut from a sorted list is first of all. -/
theorem isTop_truncate (h : IsStableSort before all sorted) (limit : Int) :
    IsTop before limit all (truncate limit sorted) := by
  obtain ⟨omitted, hsplit, hlength⟩ : ∃ omitted, truncate limit sorted ++ omitted = sorted ∧
      (truncate limit sorted).length
        = if 0 < limit then min limit.toNat all.length else all.length := by
    rw [truncate, ← h.length_eq]
    split
    · exact ⟨sorted.drop limit.toNat, List.take_append_drop .., List.length_take⟩
    · exact ⟨[], List.append_nil sorted, rfl⟩
  rw [← hsplit] at h
  refine ⟨omitted, h, hlength, fun a ha b hb hstrict => hstrict.2 ?_⟩
  exact (List.pairwise_append.mp h.sorted).2.2 a ha b hb

end Top

/-! ### Answers -/

/-- The answer made of candidates and the results of scoring them. -/
def answerOf (config : Config) (word : String) (candidates : List Candidate)
    (results : List (ScoreResult Float)) : List Candidate :=
  truncate config.maxSuggestions
    (if config.fuzzySearch && !Text.isBlank word then (rank candidates results).map attach
      else byPriority candidates)

/-- Which candidates are an answer: the first of those that match by score, if they are scored, and
else the first of all by priority. -/
structure IsAnswer (config : Config) (word : String) (candidates : List Candidate)
    (results : List (ScoreResult Float)) (answer : List Candidate) : Prop where
  byScore : config.fuzzySearch = true → Text.isBlank word = false →
    (candidates.zip results).map Prod.fst = candidates ∧ ∃ top, answer = top.map attach ∧
      IsTop PrecedesByScore config.maxSuggestions
        ((candidates.zip results).filter fun c => ¬ c.2.score ≤ 0) top
  byPriority : config.fuzzySearch = false ∨ Text.isBlank word = true →
    IsTop PrecedesByPriority config.maxSuggestions candidates answer

/-- Without scores an answer does not depend on them. -/
theorem answerOf_of_plain {config : Config} {word : String}
    (hplain : config.fuzzySearch = false ∨ Text.isBlank word = true) (candidates : List Candidate)
    (results : List (ScoreResult Float)) :
    answerOf config word candidates results
      = truncate config.maxSuggestions (byPriority candidates) := by
  have hplain : (config.fuzzySearch && !Text.isBlank word) = false := by
    rw [Bool.and_eq_false_iff, Bool.not_eq_false']
    exact hplain
  rw [answerOf, hplain]
  rfl

/-- What is made of one number for each candidate is an answer. -/
theorem isAnswer_answerOf (config : Config) (word : String) {candidates : List Candidate}
    {results : List (ScoreResult Float)} (hlength : results.length = candidates.length)
    (hresults : ∀ r ∈ results, r.score.isNaN = false) :
    IsAnswer config word candidates results (answerOf config word candidates results) where
  byScore hfuzzy hword := by
    refine ⟨List.map_fst_zip hlength.ge, _, ?_, isTop_truncate (isStableSort_rank hresults) _⟩
    rw [answerOf, hfuzzy, hword, truncate, truncate]
    simp only [Bool.not_false, Bool.and_self, if_true]
    split
    · exact List.map_take.symm
    · rfl
  byPriority hplain := by
    rw [answerOf_of_plain hplain]
    exact isTop_truncate (isStableSort_byPriority candidates) _

namespace Completer

variable {c : Completer} {word : String} {context : Line.Context} {w : World}

/-- The results that the ranker of a completer gives for candidates, or why it gives none. -/
def resultsFor (c : Completer) (word : String) (candidates : List Candidate) (w : World) :
    Except Failure (List (ScoreResult Float)) :=
  (c.ranker.scoreMany word (candidates.map (·.text)) w).1.1

/-- There is a result for each candidate. -/
theorem length_resultsFor {candidates : List Candidate} {results : List (ScoreResult Float)}
    (h : c.resultsFor word candidates w = .ok results) : results.length = candidates.length :=
  (c.ranker.length_results_reply ⟨word, candidates.map Candidate.text, w⟩ h).trans
    (List.length_map _)

/-- Whether candidates are put in order by the results of scoring them. -/
def IsScored (config : Config) (word : String) (candidates : List Candidate) : Prop :=
  config.fuzzySearch = true ∧ Text.isBlank word = false ∧ candidates ≠ []

/-- Candidates that are scored are put in the order of their results, if the ranker gives any. -/
theorem arranged_of_isScored {candidates : List Candidate} (h : IsScored c.config word candidates) :
    c.arranged word candidates w
      = (c.resultsFor word candidates w).map (answerOf c.config word candidates) := by
  obtain ⟨hfuzzy, hword, hne⟩ := h
  have hscored : (c.config.fuzzySearch && !Text.isBlank word) = true := by rw [hfuzzy, hword]; rfl
  have hfilled : candidates.isEmpty = false := by simpa using hne
  rw [arranged, order, resultsFor, hscored, hfilled]
  refine (map_map _ _ _).trans (map_congr fun results _ => ?_)
  rw [answerOf, hscored, if_pos rfl]

/-- For candidates that are not scored the ranker is not needed. -/
theorem arranged_of_not_isScored {candidates : List Candidate}
    (h : ¬ IsScored c.config word candidates) (results : List (ScoreResult Float)) :
    c.arranged word candidates w = .ok (answerOf c.config word candidates results) := by
  unfold arranged order
  split
  · rename_i hscored
    rw [Bool.and_eq_true, Bool.not_eq_true'] at hscored
    have hnil : candidates = [] := by
      by_contra hne
      exact h ⟨hscored.1, hscored.2, hne⟩
    rw [hnil, answerOf, hscored.1, hscored.2, rank, List.zip_nil_left, List.filter_nil,
      List.mergeSort_nil]
    rfl
  · rename_i hplain
    rw [answerOf, if_neg hplain]
    rfl

/-- **An answer that is not in the cache is the first of all candidates that were found.** The source
and the history being asked, it is made of what they gave, in this order, and of what the ranker gave
for that; and whatever finite scores a ranker gives, what is made of them is such. There is no answer
just if the candidates are scored and the ranker fails. -/
theorem getCompletions_isAnswer
    (hmiss : (c.cache.get w.clock (CacheKey.ofContext word context)).1 = none)
    {found remembered : List Candidate} {asked recalling : Completer} {w' : World}
    (hfound : c.sourceCandidates context w = ((.ok found, asked), w'))
    (hremembered : asked.recalled word context w' = (.ok remembered, recalling)) :
    let candidates := found ++ remembered
    let scored := recalling.resultsFor word candidates w'
    (∀ results, scored = .ok results → results.length = candidates.length) ∧
      (∀ results, (IsScored c.config word candidates → scored = .ok results) →
        (c.getCompletions word context w).1
          = .ok (answerOf c.config word candidates results)) ∧
      (∀ failure, (c.getCompletions word context w).1 = .error failure ↔
        IsScored c.config word candidates ∧ scored = .error failure) ∧
      ∀ results : List (ScoreResult Float), results.length = candidates.length →
        (∀ r ∈ results, r.score.isNaN = false) →
        IsAnswer c.config word candidates results (answerOf c.config word candidates results) := by
  intro candidates scored
  -- The candidates and the recalled history make one list before anything is scored.
  have hconsult : c.consult word context w = (.ok candidates, recalling, w') := by
    rw [consult, hfound]
    dsimp only
    rw [hremembered]
  have hconfig := (c.consult_keeps word context w).1
  obtain ⟨given, w'', hgiven, -⟩ := getCompletions_of_get_none hmiss
  have hanswer : (c.getCompletions word context w).1 = recalling.arranged word candidates w' := by
    rw [hgiven, hconsult]
    rfl
  rw [hconsult] at hconfig
  rw [hanswer, ← hconfig]
  refine ⟨fun results => length_resultsFor, fun results hresults => ?_, fun failure => ?_,
    fun results => isAnswer_answerOf recalling.config word⟩
  · by_cases h : IsScored recalling.config word candidates
    · rw [arranged_of_isScored h]
      exact congrArg _ (hresults h)
    · exact arranged_of_not_isScored h results
  · by_cases h : IsScored recalling.config word candidates
    · rw [arranged_of_isScored h, map_error_iff, and_iff_right h]
    · rw [arranged_of_not_isScored h []]
      exact iff_of_false (by simp) fun h' => h h'.1

/-- A completer with three candidates of a source, and two commands in its history. -/
def twoSources : Completer where
  config := { maxSuggestions := 3 }
  environment := some []
  source := .fixed { candidates := .ok [{ text := "tag" }, { text := "git" }, { text := "ls" }] }
  history := {
    config := {}, mode := .solo, shell := none, hasNative := false
    providers := [("owned", .memory {
      name := "owned", entries := [{ command := "go" }, { command := "git" }] })] }
  ranker := { primary := .reference {}, fallback := {} }
  cache := { ttl := 300 }

/-- A text that is found twice is scored twice. -/
theorem getCompletions_isAnswer_of_two_sources :
    let context := Line.classify "g" none "/work" none
    ∃ candidates results, candidates.map Candidate.text = ["tag", "git", "ls", "git", "go"] ∧
      let answer := answerOf twoSources.config "g" candidates results
      (twoSources.getCompletions "g" context {}).1 = .ok answer ∧
      IsAnswer twoSources.config "g" candidates results answer := by
  intro context
  have hmiss : (twoSources.cache.get ({} : World).clock (CacheKey.ofContext "g" context)).1 = none :=
    rfl
  have hfound : twoSources.sourceCandidates context {}
      = ((.ok [{ text := "tag" }, { text := "git" }, { text := "ls" }],
          (twoSources.sourceCandidates context {}).1.2), {}) := rfl
  generalize hasked : (twoSources.sourceCandidates context {}).1.2 = asked at hfound
  have htexts : (asked.recalled "g" context {}).1.map (·.map Candidate.text) = .ok ["git", "go"] := by
    rw [← hasked]
    decide
  obtain ⟨remembered, hremembered, hmap⟩ := map_ok_iff.mp htexts
  obtain ⟨hlength, hanswer, -, hall⟩ :=
    getCompletions_isAnswer hmiss hfound (Prod.ext hremembered rfl)
  have hranker : (asked.recalled "g" context {}).2.ranker = twoSources.ranker := by
    rw [← hasked, recalled]
    split <;> rfl
  -- The reference scorer never fails.
  obtain ⟨results, hresults⟩ : ∃ results, (asked.recalled "g" context {}).2.resultsFor "g"
      ([{ text := "tag" }, { text := "git" }, { text := "ls" }] ++ remembered) {} = .ok results := by
    rw [resultsFor, hranker]
    exact ⟨_, rfl⟩
  refine ⟨_, results, ?_, hanswer results fun _ => hresults, hall results (hlength results hresults) ?_⟩
  · rw [List.map_append, hmap]
    rfl
  · rw [resultsFor, hranker, List.map_append, hmap] at hresults
    obtain rfl := Except.ok.inj hresults
    decide +kernel

end Completer

end ShellAssist.Completion
