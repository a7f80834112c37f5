import ShellAssist.Proofs.Completion.Asking
import ShellAssist.Proofs.Completion.Contract
import ShellAssist.Proofs.Completion.SideBySide
import ShellAssist.Proofs.History.Refusals
import ShellAssist.Proofs.Score.Degradation
import ShellAssist.Proofs.Time.Range

namespace ShellAssist.Completion

/-!
# Requests that get no answer

No directory keeps a request from its answer, and no external program for which the system waits as long
as it may take. The history does in two cases: it is asked as one only and that cannot be brought up to
date, or it holds an entry for the word whose age cannot be told.

* `Describable` — entries whose age can be told;
* `Source.Refuses` — sources that fail a request;
* `Completer.fails_complete_iff` — the requests that get no answer.
-/

open Line (Context Slot)
open History (Entry)

/-! ### Entries as candidates -/

/-- An entry whose age can be told, if it has one: it is less than a week old, or its instant has a date
in the zone of the process. -/
def Describable (w : World) (e : Entry) : Prop :=
  ∀ t, e.timestamp = some t →
    ∃ now, w.millis = .ok now ∧ (now - t < Time.weekMillis ∨ Time.HasDate w.offset t)

variable {w : World}

/-- An entry is described by its age. -/
theorem fails_historyDescription_iff {e : Entry} :
    Fails (historyDescription w e) ↔ ¬ Describable w e := by
  rw [← not_iff_not, not_fails_iff, not_not, Describable, historyDescription]
  cases e.timestamp with
  | none => simp
  | some t =>
    simp only [← Time.exists_age_iff, Option.some.injEq, forall_eq']
    constructor
    · rintro ⟨description, h⟩
      obtain ⟨now, hnow, h⟩ := bind_ok_iff.mp h
      obtain ⟨age, hage, -⟩ := bind_ok_iff.mp h
      exact ⟨now, hnow, age, hage⟩
    · rintro ⟨now, hnow, age, hage⟩
      exact ⟨_, bind_ok_iff.mpr ⟨now, hnow, bind_ok_iff.mpr ⟨age, hage, rfl⟩⟩⟩

/-- The entries found are candidates if the ages of all can be told. -/
theorem fails_historyCandidates_iff {found : List Entry} :
    Fails (historyCandidates w found) ↔ ∃ e ∈ found, ¬ Describable w e := by
  have hcandidate (e : Entry) (index : Nat) :
      Fails (historyCandidate w e index) ↔ ¬ Describable w e := by
    rw [← fails_historyDescription_iff]
    exact fails_map_iff
  have hentries : (found.zip (List.range found.length)).map (·.1) = found :=
    List.map_fst_zip (by simp)
  unfold historyCandidates
  rw [fails_mapM_iff]
  simp only [hcandidate]
  conv_rhs => rw [← hentries]
  simp [List.mem_map]

/-! ### Sources -/

/-- A source that fails a request: one that an embedding program supplies and that fails, or a backend
whose shell is tried, is started, and may take longer than the system waits. -/
def Source.Refuses (w : World) : Source → Prop
  | .shell b => b.initialized = false ∧ World.waitFailure? (some b.timeout) ≠ none ∧
      ∃ args ∈ b.detection, (World.answer args w.commands).1.isStarted = true
  | .fixed s => Fails s.candidates

/-- A source fails just if it refuses. -/
theorem Source.fails_resolve_iff (source : Source) (context : Context) :
    Fails (source.resolve context w).1.1 ↔ source.Refuses w := by
  cases source with
  | shell b =>
    have hanswer : Fails ((Source.shell b).resolve context w).1.1 ↔ Fails (b.answer context w) := by
      rw [resolve, bind_run, ExceptT.run, Backend.answer]
      rcases b.resolve context w with ⟨failure | ⟨found, b'⟩, w'⟩
      · exact iff_of_true ⟨failure, rfl⟩ ⟨failure, rfl⟩
      · exact iff_of_false (not_fails_ok _) (not_fails_ok _)
    rw [hanswer, Refuses]
    unfold Fails
    simp only [Backend.answer_eq_error_iff, Option.ne_none_iff_exists']
    tauto
  | fixed s => exact Iff.rfl

namespace Completer

variable {c : Completer} {word : String} {context : Context}

/-- The history has no candidates to give just if it is asked, and cannot be searched or finds an entry
whose age cannot be told. -/
theorem fails_recalled_iff : Fails (c.recalled word context w).1 ↔
    c.config.historySuggestions = true ∧ context.slot = .command ∧
      (c.history.mode ≠ .unified ∧ (c.history.providerAt c.history.activeName).Refuses w ∨
        ∃ found, (c.history.search w word (some historyLimit) none).1 = .ok found ∧
          ∃ e ∈ found, ¬ Describable w e) := by
  unfold recalled
  split
  · rename_i hasked
    rw [Bool.and_eq_true, decide_eq_true_eq] at hasked
    rw [and_iff_right hasked.1, and_iff_right hasked.2]
    simp only [← fails_historyCandidates_iff]
    refine Iff.trans fails_bind_iff (or_congr_left ?_)
    exact History.Archive.fails_search_iff
  · rename_i hnot
    rw [Bool.and_eq_true, decide_eq_true_eq] at hnot
    exact iff_of_false (not_fails_ok _) fun h => hnot ⟨h.1, h.2.1⟩

/-- What asking the source leaves behind: another source, and commands that have been run. -/
theorem sourceCandidates_onlyRuns (c : Completer) (context : Context) (w : World) :
    ∃ result source commands calls, c.sourceCandidates context w
      = ((result, { c with source }), { w with commands, calls }) := by
  unfold sourceCandidates
  split
  -- A shell only runs programs; a fixed source does not even do that.
  · have hruns : OnlyRuns (c.source.resolve context) := by
      cases c.source with
      | shell backend =>
        intro w
        obtain ⟨commands, calls, hworld⟩ := backend.onlyRuns_resolve context w
        refine ⟨commands, calls, ?_⟩
        rw [Source.resolve, bind_run]
        rcases hresolve : (backend.resolve context).run w with ⟨failure | ⟨found, b⟩, w'⟩ <;>
          rw [hresolve] at hworld <;>
          exact hworld
      | fixed s => exact fun w => ⟨w.commands, w.calls, rfl⟩
    obtain ⟨commands, calls, hworld⟩ := hruns w
    exact ⟨_, _, commands, calls, Prod.ext rfl hworld⟩
  · exact ⟨_, c.source, w.commands, w.calls, rfl⟩

/-- The source has no candidates to give just if it is asked and refuses. -/
theorem fails_sourceCandidates_iff : Fails (c.sourceCandidates context w).1.1 ↔
    c.config.completionEnabled = true ∧ c.source.Refuses w := by
  unfold sourceCandidates
  split
  · rename_i henabled
    rw [and_iff_right henabled, ← c.source.fails_resolve_iff context]
    rfl
  · rename_i hdisabled
    exact iff_of_false (not_fails_ok _) fun h => hdisabled h.1

/-- Asking fails just if the source does, or the history. -/
theorem fails_consult_iff : Fails (c.consult word context w).1 ↔
    c.config.completionEnabled = true ∧ c.source.Refuses w ∨
      Fails (c.recalled word context w).1 := by
  obtain ⟨result, source, commands, calls, hfound⟩ := c.sourceCandidates_onlyRuns context w
  have hsource : Fails (c.sourceCandidates context w).1.1 ↔ _ := fails_sourceCandidates_iff
  rw [← hsource, hfound]
  cases result with
  | error failure =>
    rw [consult, hfound]
    simp
  | ok found =>
    -- Only commands have run before the history is asked, and it reads nothing of them.
    rw [fst_consult_of_source hfound, fails_map_iff, fst_recalled_of_runs]
    simp

/-- Candidates cannot be ordered just if they are scored and the ranker overruns. -/
theorem fails_arranged_iff {candidates : List Candidate} :
    Fails (c.arranged word candidates w) ↔ c.config.fuzzySearch = true ∧ Text.isBlank word = false ∧
      c.ranker.Overruns ⟨word, candidates.map (·.text), w⟩ := by
  -- Without candidates the filter is never started, so its timeout cannot matter.
  have hempty : ¬ c.ranker.Overruns ⟨word, [], w⟩ := by
    rintro ⟨f, failure, -, program, -, htexts, -⟩
    exact htexts rfl
  rw [arranged, fails_map_iff, order]
  split
  · rename_i hscored
    rw [Bool.and_eq_true, Bool.not_eq_true'] at hscored
    rw [and_iff_right hscored.1, and_iff_right hscored.2, ← Ranker.fails_scoreMany_iff (σ := Float)]
    split
    · rename_i hnone
      rw [List.isEmpty_iff.mp hnone, List.map_nil, Ranker.fails_scoreMany_iff]
      exact iff_of_false (not_fails_ok _) hempty
    · exact fails_map_iff
  · rename_i hplain
    rw [Bool.and_eq_true, Bool.not_eq_true'] at hplain
    exact iff_of_false (not_fails_ok _) fun h => hplain ⟨h.1, h.2.1⟩

/-- **The requests that get no answer.** No directory is given and the working directory is gone; or what
is asked for is not in the cache, and the source refuses, or the history is asked for a command and
cannot be searched or finds an entry whose age cannot be told, or all was found and is to be scored by a
filter that may take longer than the system waits. -/
theorem fails_complete_iff (c : Completer) (line : String) (cursor : Option Int)
    (cwd : Option String) (w : World) :
    Fails (c.complete line cursor cwd w).1 ↔
      cwd.filter (· ≠ "") = none ∧ w.cwdRemoved = true ∨
      ∃ context, c.classify line cursor cwd w = .ok context ∧
        (c.cache.get w.clock (CacheKey.ofContext context.word context)).1 = none ∧
        (c.config.completionEnabled = true ∧ c.source.Refuses w ∨
          c.config.historySuggestions = true ∧ context.slot = .command ∧
            (c.history.mode ≠ .unified ∧ (c.history.providerAt c.history.activeName).Refuses w ∨
              ∃ found, (c.history.search w context.word (some historyLimit) none).1 = .ok found ∧
                ∃ e ∈ found, ¬ Describable w e) ∨
          ∃ candidates asked w', c.consult context.word context w = (.ok candidates, asked, w') ∧
            c.config.fuzzySearch = true ∧ Text.isBlank context.word = false ∧
            asked.ranker.Overruns ⟨context.word, candidates.map (·.text), w'⟩) := by
  -- Reading the line can fail in one way, before the cache is looked at.
  have hdirectory : (∃ failure, c.classify line cursor cwd w = .error failure) ↔
      cwd.filter (· ≠ "") = none ∧ w.cwdRemoved = true := by
    unfold classify World.workingDirectory
    cases cwd.filter (· ≠ "") with
    | some directory => exact iff_of_false (by rintro ⟨_, ⟨⟩⟩) (by simp)
    | none =>
      cases w.cwdRemoved with
      | true => exact iff_of_true ⟨_, rfl⟩ ⟨rfl, rfl⟩
      | false => exact iff_of_false (by rintro ⟨_, ⟨⟩⟩) (by simp)
  rw [complete]
  cases hcontext : c.classify line cursor cwd w with
  | error failure => exact iff_of_true ⟨failure, rfl⟩ (.inl (hdirectory.mp ⟨failure, hcontext⟩))
  | ok context =>
    have hthere : ¬ (cwd.filter (· ≠ "") = none ∧ w.cwdRemoved = true) := by
      rw [← hdirectory, hcontext]
      rintro ⟨_, ⟨⟩⟩
    rw [or_iff_right hthere]
    simp only [Except.ok.injEq, exists_eq_left']
    cases hget : (c.cache.get w.clock (CacheKey.ofContext context.word context)).1 with
    | some answer =>
      rw [getCompletions_of_get hget]
      simp
    | none =>
      obtain ⟨given, w', hgiven, -⟩ := getCompletions_of_get_none hget
      have hsettings := (c.consult_keeps context.word context w).1
      rw [and_iff_right rfl, ← or_assoc, ← fails_recalled_iff, ← fails_consult_iff, hgiven]
      -- Past the candidates only the ranking is left, in the settings the completer came with.
      rcases hconsult : c.consult context.word context w with ⟨failure | candidates, asked, w''⟩
      · exact iff_of_true ⟨failure, rfl⟩ (.inl ⟨failure, rfl⟩)
      · have harranged : Fails (asked.arranged context.word candidates w'') ↔ _ :=
          fails_arranged_iff
        rw [hconsult] at hsettings
        rw [show asked.config = c.config from hsettings] at harranged
        simp only [not_fails_ok, false_or, Prod.mk.injEq, Except.ok.injEq]
        refine harranged.trans ⟨fun h => ⟨_, _, _, ⟨rfl, rfl, rfl⟩, h⟩, ?_⟩
        rintro ⟨_, _, _, ⟨rfl, rfl, rfl⟩, h⟩
        exact h

/-- A world whose history file holds this text. -/
def recordedWorld (record : String) : World where
  disk := { nodes := [(["hist"], ⟨.file (Text.encode record.toList) false false, 1⟩)] }

/-- A new completer for that world. -/
def recordedCompleter (record : String) : Completer :=
  (create { completionBackend := some "generic", fuzzyBackend := some "subsequence",
            historyFile := "/hist" } (some []) none none (recordedWorld record)).1

/-- An instant before the first that has a date keeps every request for its command from an answer. -/
theorem complete_ancient_instant :
    let record := "\x7b\"command\": \"ls\", \"timestamp\": -99999999999999999\x7d\n"
    ((recordedCompleter record).complete "ls" none none (recordedWorld record)).1.map
      (·.map (·.text)) = .error (.yearOutOfRange (-3166904)) := by
  decide +kernel

end Completer

end ShellAssist.Completion
