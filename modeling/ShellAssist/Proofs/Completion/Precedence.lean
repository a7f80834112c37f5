import ShellAssist.Proofs.Completion.Offers
import ShellAssist.Proofs.Completion.Ranking
import ShellAssist.Proofs.Completion.Unanswered
import ShellAssist.Proofs.History.Truncation

namespace ShellAssist.Completion

/-!
# History comes first

Where a command is completed and candidates are not scored, those of the history come before all
others, the newest first: there are so few of them that their priorities, each less by one than the
one before, stay above those of all commands.

* `map_text_historyCandidates`, `map_priority_historyCandidates` — the texts and the priorities of
  the candidates of a history;
* `Backend.finds_commands_priority` — the priorities of commands;
* `Completer.byPriority_append` — in the order of priorities, few entries of a history come first,
  as they stand;
* `Completer.getCompletions_history_first` — what a request for a command is answered with.
-/

open Line (Context)
open History (Entry)

/-! ### Candidates of a history -/

section Remembered

variable {w : World} {entries : List Entry} {remembered : List Candidate}

/-- What is known of the candidate of each entry is known of the candidates of all. -/
theorem map_historyCandidates {α : Type} {f : Candidate → α} {g : Entry × Nat → α}
    (hfg : ∀ e index c, historyCandidate w e index = .ok c → f c = g (e, index))
    (h : historyCandidates w entries = .ok remembered) :
    remembered.map f = (entries.zip (List.range entries.length)).map g := by
  have hall : List.Forall₂ Eq ((entries.zip (List.range entries.length)).map g)
      (remembered.map f) := by
    rw [List.forall₂_map_left_iff, List.forall₂_map_right_iff]
    exact (mapM_ok_iff.mp h).imp fun p c hc => (hfg p.1 p.2 c hc).symm
  rw [List.forall₂_eq_eq_eq] at hall
  exact hall.symm

/-- The candidates of a history are its commands, in order. -/
theorem map_text_historyCandidates (h : historyCandidates w entries = .ok remembered) :
    remembered.map (·.text) = entries.map (·.command) := by
  have htext (e : Entry) (index : Nat) (c : Candidate) (hc : historyCandidate w e index = .ok c) :
      c.text = e.command := by
    obtain ⟨description, -, hc⟩ := bind_ok_iff.mp hc
    obtain rfl := Except.ok.inj hc
    rfl
  rw [map_historyCandidates (g := (·.command) ∘ Prod.fst) htext h, ← List.map_map,
    List.map_fst_zip (by simp)]

/-- Each has a priority less by one than the one before. -/
theorem map_priority_historyCandidates (h : historyCandidates w entries = .ok remembered) :
    remembered.map (·.priority) = (List.range entries.length).map fun index : Nat =>
      historyPriority - index := by
  have hpriority (e : Entry) (index : Nat) (c : Candidate)
      (hc : historyCandidate w e index = .ok c) : c.priority = historyPriority - index := by
    obtain ⟨description, -, hc⟩ := bind_ok_iff.mp hc
    obtain rfl := Except.ok.inj hc
    rfl
  rw [map_historyCandidates (g := (fun index : Nat => historyPriority - index) ∘ Prod.snd)
    hpriority h, ← List.map_map, List.map_snd_zip (by simp)]

/-- The candidates of few entries are in the order of priorities, which are above those of all
commands. -/
theorem sorted_historyCandidates (h : historyCandidates w entries = .ok remembered)
    (hfew : entries.length ≤ historyLimit) :
    remembered.Pairwise PrecedesByPriority ∧ ∀ c ∈ remembered, 80 < c.priority := by
  have hpriority := map_priority_historyCandidates h
  constructor
  -- Each place costs one point, so a later entry stands strictly lower.
  · have hdescend : (remembered.map (·.priority)).Pairwise (· > ·) := by
      rw [hpriority, List.pairwise_map]
      exact List.pairwise_lt_range.imp fun hlt => by omega
    exact (List.pairwise_map.mp hdescend).imp .inl
  · intro c hc
    have hmem : c.priority ∈ remembered.map (·.priority) := List.mem_map_of_mem hc
    rw [hpriority] at hmem
    obtain ⟨index, hindex, hc⟩ := List.mem_map.mp hmem
    have hindex := List.mem_range.mp hindex
    rw [historyPriority] at hc
    rw [historyLimit] at hfew
    omega

end Remembered

/-! ### Candidates of a source -/

namespace Backend

variable {d : Disk} {context : Context}

/-- No command has a priority above that of the builtin ones. -/
theorem finds_commands_priority (b : Backend) (context : Context) :
    (b.commands context).Finds d fun found => ∀ c ∈ found, c.priority ≤ 10 := by
  unfold commands
  refine Action.Finds.get.bind fun w _ => ?_
  refine (Action.Finds.ofExcept (P := fun _ => True) fun _ _ => trivial).bind fun programs _ => ?_
  refine (b.finds_nativeNames context context.typed).bind fun known hknown =>
    Action.Finds.pure fun c hc => ?_
  -- Builtins reach ten, programs and the shell's own names five.
  rcases List.mem_append.mp hc with hc | hc
  · rcases List.mem_append.mp hc with hc | hc
    · exact (Candidate.priority_of_mem_ofNames hc).le
    · obtain ⟨p, -, rfl⟩ := List.mem_map.mp hc
      show (5 : Int) ≤ 10
      decide
  · obtain ⟨names, -, rfl⟩ := hknown
    rw [Candidate.priority_of_mem_ofNames hc]
    decide

/-- Where a command is completed, no candidate has a priority above that of the builtin commands. -/
theorem priority_le_of_mem_answer {b : Backend} {w : World} {found : List Candidate}
    (hslot : context.slot = .command) (h : b.answer context w = .ok found) :
    ∀ c ∈ found, c.priority ≤ 10 := by
  obtain ⟨b', w', -, rfl⟩ := answer_eq_ok_iff.mp h
  rw [hslot]
  have hfinds : Finds w'.disk ((b'.commands context).orElse []) fun found =>
      ∀ c ∈ found, c.priority ≤ 10 :=
    Action.Finds.orElse (b'.finds_commands_priority context) (by simp)
  exact fun c hc => (hfinds w' rfl).2 c (Candidate.mem_of_mem_distinct hc)

end Backend

namespace Completer

variable {c : Completer} {b : Backend} {word : String} {context : Context} {w : World}

/-- Where a command is completed, a shell's backend gives no candidate a high priority. -/
theorem priority_le_of_sourceCandidates {found : List Candidate} (hsource : c.source = .shell b)
    (hslot : context.slot = .command) (h : (c.sourceCandidates context w).1.1 = .ok found) :
    ∀ x ∈ found, x.priority ≤ 10 := by
  unfold sourceCandidates at h
  split at h
  · rw [hsource, ShellAssist.bind_run, Source.resolve, ShellAssist.bind_run, ExceptT.run] at h
    -- The source gives what the backend answered, in command position.
    rcases hresolve : b.resolve context w with ⟨failure | ⟨given, b'⟩, w'⟩
    · rw [hresolve] at h
      cases h
    · rw [hresolve] at h
      obtain rfl := Except.ok.inj h
      refine Backend.priority_le_of_mem_answer hslot (b := b) (w := w) ?_
      rw [Backend.answer, hresolve]
      rfl
  · obtain rfl := Except.ok.inj h
    intro x hx
    cases hx

/-- In front of candidates of lower priorities, those of few entries are put as they stand. -/
theorem byPriority_append {found remembered : List Candidate} {entries : List Entry}
    (hremembered : historyCandidates w entries = .ok remembered)
    (hfew : entries.length ≤ historyLimit) (hfound : ∀ x ∈ found, x.priority ≤ 10) :
    byPriority (found ++ remembered) = remembered ++ byPriority found := by
  obtain ⟨hsorted, hhigh⟩ := sorted_historyCandidates hremembered hfew
  have hfirst (y : Candidate) (hy : y ∈ remembered) (x : Candidate) (hx : x ∈ found) :
      PrecedesByPriority y x ∧ ¬ PrecedesByPriority x y := by
    have habove := hhigh y hy
    have hbelow := hfound x hx
    unfold PrecedesByPriority
    omega
  exact (isStableSort_byPriority _).unique
    ((isStableSort_byPriority found).append_of_before hsorted hfirst)
    (ordersList_precedesByPriority _)

/-- Where a command is completed, the history is asked as if the source had not been. -/
theorem fst_consult_of_found {found : List Candidate} (hslot : context.slot = .command)
    (hhistory : c.config.historySuggestions = true)
    (h : (c.sourceCandidates context w).1.1 = .ok found) :
    (c.consult word context w).1 = ((c.history.search w word (some historyLimit) none).1.bind
      (historyCandidates w)).map fun remembered => found ++ remembered := by
  have hrecalled : (c.recalled word context w).1
      = (c.history.search w word (some historyLimit) none).1.bind (historyCandidates w) := by
    rw [recalled, if_pos (by rw [hhistory, hslot]; rfl)]
  obtain ⟨result, source, commands, calls, hasked⟩ := c.sourceCandidates_onlyRuns context w
  rw [hasked] at h
  obtain rfl : result = .ok found := h
  rw [fst_consult_of_source hasked, fst_recalled_of_runs, hrecalled]

/-- **The history comes first.** Where a command is completed without scores, all that a search of
the history for the word finds, at most twenty entries, stands in front of the commands, in the order
in which it was found; the commands follow by priority and text. There is no answer just if the source
fails, which it does only where it refuses, or the search fails, or an entry that it found makes no
candidate. -/
theorem getCompletions_history_first (hsource : c.source = .shell b)
    (hslot : context.slot = .command) (hhistory : c.config.historySuggestions = true)
    (hplain : c.config.fuzzySearch = false ∨ Text.isBlank word = true)
    (hmiss : (c.cache.get w.clock (CacheKey.ofContext word context)).1 = none) :
    let searched := (c.history.search w word (some 20) none).1
    (¬ c.source.Refuses w → ∃ found, (c.sourceCandidates context w).1.1 = .ok found) ∧
      (∀ failure, (c.sourceCandidates context w).1.1 = .error failure →
        (c.getCompletions word context w).1 = .error failure) ∧
      ∀ found, (c.sourceCandidates context w).1.1 = .ok found →
        IsStableSort PrecedesByPriority found (byPriority found) ∧
        (∀ entries remembered, searched = .ok entries →
          historyCandidates w entries = .ok remembered →
          entries.length ≤ 20 ∧ remembered.map (·.text) = entries.map (·.command) ∧
            byPriority (found ++ remembered) = remembered ++ byPriority found) ∧
        (c.getCompletions word context w).1
          = (searched.bind (historyCandidates w)).map fun remembered =>
              truncate c.config.maxSuggestions (remembered ++ byPriority found) := by
  intro searched
  obtain ⟨given, w', hgiven, -⟩ := getCompletions_of_get_none hmiss
  refine ⟨fun hanswers => not_fails_iff.mp fun hfails =>
      hanswers (fails_sourceCandidates_iff.mp hfails).2, fun failure hfails => ?_,
    fun found hfound => ?_⟩
  · obtain ⟨result, source, commands, calls, hasked⟩ := c.sourceCandidates_onlyRuns context w
    rw [hasked] at hfails
    obtain rfl : result = .error failure := hfails
    rw [hgiven, consult, hasked]
    rfl
  · have hlow := priority_le_of_sourceCandidates hsource hslot hfound
    have hall (entries : List Entry) (remembered : List Candidate) (hsearch : searched = .ok entries)
        (hremembered : historyCandidates w entries = .ok remembered) :
        entries.length ≤ 20 ∧ remembered.map (·.text) = entries.map (·.command) ∧
          byPriority (found ++ remembered) = remembered ++ byPriority found := by
      have hfew : entries.length ≤ 20 :=
        History.Archive.length_search_le (n := 20) (by decide) hsearch
      exact ⟨hfew, map_text_historyCandidates hremembered,
        byPriority_append hremembered (Int.ofNat_le.mpr hfew) hlow⟩
    refine ⟨isStableSort_byPriority found, hall, ?_⟩
    have hconfig := (c.consult_keeps word context w).1
    have hunscored (candidates : List Candidate) : ¬ IsScored c.config word candidates := by
      rintro ⟨hfuzzy, hword, -⟩
      exact hplain.elim (fun h => absurd (hfuzzy.symm.trans h) (by decide))
        fun h => absurd (h.symm.trans hword) (by decide)
    -- Without scores, what was found is put in order whatever became of the completer and the world.
    have harranged (candidates : List Candidate) :
        (c.consult word context w).2.1.arranged word candidates (c.consult word context w).2.2
          = .ok (truncate c.config.maxSuggestions (byPriority candidates)) := by
      rw [arranged_of_not_isScored (hconfig ▸ hunscored candidates) [], hconfig,
        answerOf_of_plain hplain]
    rw [hgiven]
    dsimp only
    simp only [harranged]
    rw [fst_consult_of_found hslot hhistory hfound]
    refine (map_map _ _ _).trans (map_congr fun remembered h => ?_)
    obtain ⟨entries, hsearch, hremembered⟩ := bind_ok_iff.mp h
    rw [(hall entries remembered hsearch hremembered).2.2]

/-- A completer for a shell, with two commands in its history, that gives all candidates and scores
none. -/
def unscoredShell : Completer where
  config := { maxSuggestions := 0, fuzzySearch := false }
  environment := some []
  source := .shell (.ofFamily .generic "sh" {} [])
  history := {
    config := {}, mode := .solo, shell := none, hasNative := false
    providers := [("owned", .memory {
      name := "owned", entries := [{ command := "git" }, { command := "go" }] })] }
  ranker := { primary := .reference {}, fallback := {} }
  cache := { ttl := 300 }

/-- The newer of two commands comes first, against the order of their texts. -/
theorem getCompletions_history_first_of_two_commands :
    let context := Line.classify "g" none "/work" none
    ∃ found remembered, (unscoredShell.sourceCandidates context {}).1.1 = .ok found ∧
      remembered.map (·.text) = ["go", "git"] ∧
      (unscoredShell.getCompletions "g" context {}).1 = .ok (remembered ++ byPriority found) := by
  intro context
  have hmiss : (unscoredShell.cache.get ({} : World).clock (CacheKey.ofContext "g" context)).1
      = none := rfl
  obtain ⟨hanswers, -, hfirst⟩ :=
    getCompletions_history_first (b := .ofFamily .generic "sh" {} []) rfl (by decide) rfl (.inl rfl)
      hmiss
  -- A backend that has no shell to try refuses nothing.
  obtain ⟨found, hfound⟩ := hanswers (by rintro ⟨-, -, _, ⟨⟩, -⟩)
  obtain ⟨-, -, hanswer⟩ := hfirst found hfound
  have htexts : (((unscoredShell.history.search {} "g" (some 20) none).1.bind
      (historyCandidates {})).map fun remembered => remembered.map (·.text))
        = .ok ["go", "git"] := by
    decide
  obtain ⟨remembered, hremembered, hmap⟩ := map_ok_iff.mp htexts
  rw [hremembered] at hanswer
  exact ⟨found, remembered, hfound, hmap, hanswer⟩

end Completer

end ShellAssist.Completion
