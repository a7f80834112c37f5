import ShellAssist.Completion.Completer
import ShellAssist.Proofs.Completion.Contract
import ShellAssist.Proofs.Score.Matching
import ShellAssist.Proofs.Text.Lower

namespace ShellAssist

/-!
# Completions that ranking keeps

A backend offers what goes on from the word without its quoting, and the reference scorer compares
the word as written with the text as it is inserted. The two agree where the text has the word as
written in it: for variables, for words without quoting, and for files if the word is quoted as they
are inserted. Any other candidate is kept only if it is near enough to the word to be a typo.

* `matching` — the candidates that a ranker keeps;
* `Context.QuotedAlike` — the text has the word as written in it;
* `Backend.mem_matching_resolve` — which candidates of an answer are kept.
-/

/-- Whether a candidate is sure to have the word in its text as it is written: the word of a variable
is, a word without quoting is, and so is a word quoted as files are inserted in the text of a file
that is not among the changed ones. -/
def Line.Context.QuotedAlike (context : Line.Context) (c : Candidate) : Prop :=
  context.slot = .variable ∨ context.typed = context.word ∨
    context.insert context.typed = context.word ∧
      (c.category = .file ∨ c.category = .directory) ∧ c.description ≠ "modified file"

namespace Completion

open Line (Context)

/-! ### Candidates that match -/

/-- The candidates that a ranker keeps for a word, best first, with scores in any numbers. -/
def matching (σ : Type) [Scalar σ] (r : Ranker) (word : String) (candidates : List Candidate)
    (w : World) : Except Failure (List Candidate) :=
  (r.scoreMany (σ := σ) word (candidates.map (·.text)) w).1.1.map fun results =>
    (rank candidates results).map (·.1)

/-- The ranker of the reference scorer with its usual settings. -/
def referenceRanker : Ranker where
  primary := .reference {}
  fallback := {}

/-- Of candidates that are scored one by one those are kept that match. -/
theorem mem_rank_iff {σ : Type} [Scalar σ] (candidates : List Candidate)
    (result : Candidate → ScoreResult σ) (c : Candidate) :
    c ∈ (rank candidates (candidates.map result)).map (·.1) ↔
      c ∈ candidates ∧ (result c).isMatch = true := by
  have hzip : candidates.zip (candidates.map result) = candidates.map fun c => (c, result c) := by
    simpa using List.zip_map' (f := id) (g := result) (l := candidates)
  rw [rank, hzip]
  simp only [List.mem_map, List.mem_mergeSort, List.mem_filter]
  constructor
  · rintro ⟨_, ⟨⟨c', hc', rfl⟩, hmatch⟩, rfl⟩
    exact ⟨hc', hmatch⟩
  · rintro ⟨hc, hmatch⟩
    exact ⟨(c, result c), ⟨⟨c, hc, rfl⟩, hmatch⟩, rfl⟩

/-- The reference scorer keeps the candidates whose texts match. -/
theorem exists_matching {σ : Type} [Scalar σ] (word : String) (candidates : List Candidate)
    (w : World) : ∃ kept, matching σ referenceRanker word candidates w = .ok kept ∧
      ∀ c, c ∈ kept ↔ c ∈ candidates ∧
        (ReferenceScorer.score {} word.toList c.text.toList : ScoreResult σ).isMatch = true := by
  have hresults : (referenceRanker.scoreMany (σ := σ) word (candidates.map (·.text)) w).1.1
      = .ok (candidates.map fun c => ReferenceScorer.score {} word.toList c.text.toList) := by
    show Except.ok ((candidates.map (·.text)).map _) = _
    rw [List.map_map]
    rfl
  refine ⟨_, ?_, mem_rank_iff candidates _⟩
  rw [matching, hresults]
  rfl

/-! ### The word as written -/

/-- A path that begins as another does is inserted so too. -/
theorem prefix_insert (context : Context) {stem path : String}
    (h : Text.startsWith path stem = true) :
    (context.insert stem).toList <+: (context.insert path).toList := by
  obtain ⟨rest, hrest⟩ := Text.startsWith_iff.mp h
  have hpath : path = stem ++ String.ofList rest := by
    rw [← String.toList_inj, String.toList_append, String.toList_ofList, hrest]
  rw [Context.insert, Context.insert, hpath]
  split
  · rw [Line.escapeName_append, String.toList_append]
    exact List.prefix_append _ _
  · rw [String.toList_append, String.toList_append, String.toList_append,
      List.prefix_append_right_inj]
    exact List.prefix_append _ _

/-- What goes on from the word has the word's characters without its quoting in order. -/
theorem typed_sublist_of_completes {context : Context} {text : String}
    (hslot : context.slot ≠ .variable) (h : context.Completes text) :
    context.typed.toList.Sublist text.toList := by
  rw [Context.Completes, if_neg hslot] at h
  rcases h with h | ⟨rest, rfl, h⟩ | h
  · exact (Text.startsWith_iff.mp h).sublist
  · rw [String.toList_append]
    exact (Text.startsWith_iff.mp h).sublist.trans (List.sublist_append_right _ _)
  · exact (Text.startsWith_iff.mp h).sublist.trans (Line.unquote_sublist text)

/-- A candidate that is quoted as the word is has the word's characters in order. -/
theorem Offered.word_sublist {registry : Registry} {context : Context} {c : Candidate}
    (h : Offered registry context c) (hown : ¬ registry.Supplies context c)
    (hquoted : context.QuotedAlike c) : context.word.toList.Sublist c.text.toList := by
  have hcompletes := (h.completes hown).2
  by_cases hslot : context.slot = .variable
  · rw [Context.Completes, if_pos hslot] at hcompletes
    exact (Text.startsWith_iff.mp hcompletes).sublist
  rcases hquoted with hvariable | hplain | ⟨hinsert, hkind, hchanged⟩
  · exact absurd hvariable hslot
  · exact hplain ▸ typed_sublist_of_completes hslot hcompletes
  · rcases h.insertsFrom_of_file hkind hown with ⟨path, -, hbegins, htext⟩ | hfile
    · rw [← hinsert, htext]
      exact (prefix_insert context hbegins).sublist
    · exact absurd hfile.description hchanged

/-! ### Answers -/

/-- **Which completions ranking keeps.** A candidate of an answer is kept for the word under the
cursor exactly if, in lower case, its text has the characters of the word as written in order, or is
no more than three edits and less than its whole length away from it. So a candidate that no resolver
supplies is kept wherever it has the word as written in it, if the word has no capital sigma. With
doubles for scores, too, it is kept if its text begins with the word as written. -/
theorem Backend.mem_matching_resolve (b : Backend) (context : Context) (w w' : World)
    (hdisk : w.disk.Named) {found : List Candidate} (hfound : b.answer context w = .ok found)
    {c : Candidate} (hc : c ∈ found) :
    ∃ kept keptInDoubles, matching Rat referenceRanker context.word found w' = .ok kept ∧
      matching Float referenceRanker context.word found w' = .ok keptInDoubles ∧
      let word := Chars.lower context.word.toList
      let text := Chars.lower c.text.toList
      (c ∈ kept ↔ word.Sublist text ∨
        editDistance word text ≤ 3 ∧ editDistance word text < max word.length text.length) ∧
      (Chars.capitalSigma ∉ context.word.toList →
        (¬ b.registry.Supplies context c → context.QuotedAlike c → c ∈ kept) ∧
        (Text.startsWith c.text context.word = true → c ∈ keptInDoubles)) := by
  obtain ⟨kept, hkept, hmem⟩ := exists_matching (σ := Rat) context.word found w'
  obtain ⟨keptInDoubles, hdoubles, hmemDoubles⟩ :=
    exists_matching (σ := Float) context.word found w'
  refine ⟨kept, keptInDoubles, hkept, hdoubles, ?_⟩
  intro word text
  -- Three edits at most, and fewer than rewriting the whole word: the cut the scores make.
  have hiff : c ∈ kept ↔ word.Sublist text ∨
      editDistance word text ≤ 3 ∧ editDistance word text < max word.length text.length := by
    rw [hmem, and_iff_right hc]
    refine (ReferenceScorer.isMatch_score_iff {} _ _).trans (or_congr_right ?_)
    exact (and_iff_right rfl).trans (and_congr_left fun _ => Nat.cast_le (α := Int) (n := 3))
  refine ⟨hiff, fun hsigma => ⟨fun hown hquoted => hiff.mpr (.inl ?_), fun hbegins => ?_⟩⟩
  · have hoffered := (offered_of_mem_answer hdisk hfound).2 c hc
    exact Chars.lower_sublist (hoffered.word_sublist hown hquoted) hsigma
  · rw [hmemDoubles, and_iff_right hc]
    exact ReferenceScorer.isMatch_score_of_begins Scalar.ranksBeginnings_float {}
      (Chars.lower_begins (Text.startsWith_iff.mp hbegins) hsigma)

/-- A file with a blank in its name, behind an opening quote. -/
theorem Backend.mem_matching_resolve_quoted :
    let b : Backend := { family := .generic, shellPath := "", environment := [], timeout := 1 }
    let context := Line.classify "cat 'My" none "/work" none
    let w : World := { disk := { nodes := [(["work"], ⟨.directory false, 1⟩),
      (["work", "My file"], ⟨.file [] false false, 2⟩)] } }
    w.disk.Named ∧ ∃ found kept keptInDoubles, b.answer context w = .ok found ∧
      matching Rat referenceRanker context.word found w = .ok kept ∧
      matching Float referenceRanker context.word found w = .ok keptInDoubles ∧
      ∃ c ∈ found, c.text = "'My file" ∧ ¬ b.registry.Supplies context c ∧ context.QuotedAlike c ∧
        Chars.capitalSigma ∉ context.word.toList ∧ c ∈ kept ∧ c ∈ keptInDoubles := by
  intro b context w
  have hdisk : w.disk.Named := by decide
  have hshown : (b.answer context w).map (·.map fun c => (c.category, c.description, c.text))
      = .ok [(.file, "file", "'My file")] := by decide +kernel
  obtain ⟨found, hfound, hshown⟩ := map_ok_iff.mp hshown
  obtain ⟨c, hc, hsame⟩ := List.mem_map.mp (hshown ▸ List.mem_singleton_self _)
  obtain ⟨hkind, hdescription, htext⟩ : c.category = .file ∧ c.description = "file" ∧
      c.text = "'My file" := by simpa using hsame
  -- No resolver with a list of its own is registered, so the file is no such candidate.
  have hown : ¬ b.registry.Supplies context c :=
    Registry.not_supplies (by simp [b, Registry.builtin])
  have hquoted : context.QuotedAlike c := by
    refine .inr (.inr ⟨by decide, .inl hkind, ?_⟩)
    rw [hdescription]
    decide
  have hsigma : Chars.capitalSigma ∉ context.word.toList := by decide
  have hbegins : Text.startsWith c.text context.word = true := by
    rw [htext]
    decide
  obtain ⟨kept, keptInDoubles, hkept, hdoubles, -, hsure⟩ :=
    mem_matching_resolve b context w w hdisk hfound hc
  obtain ⟨hexact, hdouble⟩ := hsure hsigma
  exact ⟨hdisk, found, kept, keptInDoubles, hfound, hkept, hdoubles, c, hc, htext, hown, hquoted,
    hsigma, hexact hown hquoted, hdouble hbegins⟩

/-- A subcommand behind an opening quote, and a file whose name goes on behind a capital sigma: both
are offered and neither is kept. -/
theorem Backend.matching_resolve_dropped :
    let b : Backend := { family := .generic, shellPath := "", environment := [], timeout := 1 }
    let quoted := Line.classify "git \"che" none "/work" none
    let sigma := Line.classify "cat ΑΣ" none "/work" none
    let w : World := { disk := { nodes := [(["work"], ⟨.directory false, 1⟩),
      (["work", "ΑΣΑΑΑΑΑ"], ⟨.file [] false false, 2⟩)] } }
    let texts (kept : Except Failure (List Candidate)) := kept.map (·.map (·.text))
    texts (b.answer quoted w) = .ok ["checkout"] ∧
      texts (do matching Float referenceRanker quoted.word (← b.answer quoted w) w) = .ok [] ∧
      texts (b.answer sigma w) = .ok ["ΑΣΑΑΑΑΑ"] ∧
      texts (do matching Float referenceRanker sigma.word (← b.answer sigma w) w) = .ok [] := by
  decide +kernel

end Completion

end ShellAssist
