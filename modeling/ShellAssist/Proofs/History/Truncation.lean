import ShellAssist.History.Archive
import ShellAssist.Proofs.Failure
import ShellAssist.Proofs.History.Merge

namespace ShellAssist.History

/-!
# Searching merged histories with a limit

A search of merged histories asks every provider for no more entries than are wanted in all. That
loses nothing: a limit cuts a provider's answer and does not change it otherwise, so the answers
begin as they would without a limit, and that is all that merging looks at.

* `search_eq_take` — a search with a limit gives the first entries of one without;
* `Archive.length_search_le` — no search of an archive gives more than its limit;
* `Archive.search_eq_cut_merge` — merged histories are searched as if every provider gave all it has.
-/

/-! ### The search of one log -/

section Search

variable {needle : List Char} {deduplicate : Bool} {seen : List String} {entries : List Entry}

/-- A limit cuts the answer. -/
theorem searchFrom_eq_take {n found : Nat} (hfound : found < n) :
    searchFrom needle deduplicate n seen found entries
      = (searchFrom needle deduplicate 0 seen found entries).take (n - found) := by
  induction entries generalizing seen found with
  | nil => simp [searchFrom]
  | cons e entries ih =>
    rw [searchFrom, searchFrom]
    by_cases hseen : (deduplicate && seen.contains e.command) = true
    · rw [if_pos hseen, if_pos hseen]
      exact ih hfound
    · rw [if_neg hseen, if_neg hseen]
      by_cases hmatch : e.containsFolded needle = true
      · rw [if_pos hmatch, if_pos hmatch, if_neg (by simp : ¬ (decide ((0 : Int) ≠ 0) && _) = true)]
        -- With the last entry that is wanted the search ends; otherwise one less is wanted.
        by_cases hlast : n = found + 1
        · have hone : n - found = 1 := by omega
          rw [if_pos (by simp [hlast]; omega), hone, List.take_succ_cons, List.take_zero]
        · have hmore : n - found = (n - (found + 1)) + 1 := by omega
          have hlimit : ¬ (decide ((n : Int) ≠ 0) && decide ((n : Int) ≤ found + 1)) = true := by
            simp only [Bool.and_eq_true, decide_eq_true_eq]
            omega
          rw [if_neg hlimit, hmore, List.take_succ_cons, ih (by omega)]
      · rw [if_neg hmatch, if_neg hmatch]
        exact ih hfound

/-- The answer is a part of the log, in its order. -/
theorem searchFrom_sublist (needle : List Char) (deduplicate : Bool) (limit : Int)
    (seen : List String) (found : Nat) (entries : List Entry) :
    (searchFrom needle deduplicate limit seen found entries).Sublist entries := by
  induction entries generalizing seen found with
  | nil => exact List.Sublist.refl _
  | cons e entries ih =>
    rw [searchFrom]
    split
    · exact (ih _ _).cons e
    · simp only
      split
      · split
        · exact (List.nil_sublist entries).cons_cons e
        · exact (ih _ _).cons_cons e
      · exact (ih _ _).cons e

/-- With deduplication no command is found twice, and none that has been seen. -/
theorem searchFrom_nodup (needle : List Char) (limit : Int) (seen : List String) (found : Nat)
    (entries : List Entry) :
    ((searchFrom needle true limit seen found entries).map (·.command)).Nodup ∧
      ∀ e ∈ searchFrom needle true limit seen found entries, e.command ∉ seen := by
  induction entries generalizing seen found with
  | nil => exact ⟨List.nodup_nil, fun e he => nomatch he⟩
  | cons e entries ih =>
    rw [searchFrom]
    by_cases hseen : seen.contains e.command = true
    · rw [if_pos (by simpa using hseen)]
      exact ih seen found
    · have hnew : e.command ∉ seen := fun hmem => hseen (List.contains_iff_mem.mpr hmem)
      rw [if_neg (by simpa using hnew)]
      -- What is found later has been searched with this command among those seen.
      have hlater (found : Nat) :
          ∀ e' ∈ searchFrom needle true limit (e.command :: seen) found entries,
            e'.command ≠ e.command ∧ e'.command ∉ seen := by
        intro e' he'
        have hnot := (ih (e.command :: seen) found).2 e' he'
        rwa [List.mem_cons, not_or] at hnot
      simp only [if_true]
      split
      · split
        · refine ⟨by simp, ?_⟩
          intro e' he'
          rw [List.mem_singleton.mp he']
          exact hnew
        · constructor
          · rw [List.map_cons, List.nodup_cons]
            refine ⟨?_, (ih _ _).1⟩
            intro hmem
            obtain ⟨e', he', heq⟩ := List.mem_map.mp hmem
            exact (hlater _ e' he').1 heq
          · intro e' he'
            rcases List.mem_cons.mp he' with rfl | he'
            · exact hnew
            · exact (hlater _ e' he').2
      · exact ⟨(ih _ _).1, fun e' he' => (hlater _ e' he').2⟩

/-- **A search with a limit gives the first entries of one without.** -/
theorem search_eq_take (entries : List Entry) (query : String) {n : Nat} (hn : 0 < n)
    (deduplicate : Bool) :
    search entries query n deduplicate = (search entries query 0 deduplicate).take n :=
  searchFrom_eq_take hn

theorem search_newestFirst {entries : List Entry} (h : NewestFirst entries.reverse) (query : String)
    (limit : Int) (deduplicate : Bool) : NewestFirst (search entries query limit deduplicate) :=
  h.sublist (searchFrom_sublist _ _ _ _ _ _)

theorem search_commands_nodup (entries : List Entry) (query : String) (limit : Int) :
    ((search entries query limit true).map (·.command)).Nodup :=
  (searchFrom_nodup _ _ _ _ _).1

end Search

/-! ### The search of merged histories -/

theorem cut_eq_take {n : Nat} (hn : 0 < n) (entries : List Entry) :
    cut (some n) entries = entries.take n := by
  have hposition : Slice.position entries.length n = min n entries.length := by
    rw [Slice.position, if_neg (by omega), Int.toNat_natCast]
  simp only [cut, Slice.before, hposition]
  rw [if_neg (by omega), List.take_eq_take_iff]
  omega

/-- A provider answers a search from its entries, once they are up to date. -/
theorem Provider.search_fst (p : Provider) (w : World) (text : String) (limit : Int)
    (deduplicate : Bool) :
    (p.search w text (some limit) (some deduplicate)).1 = (p.refresh w).1.map fun _ =>
      History.search (p.refresh w).2.entries text limit deduplicate := by
  unfold Provider.search Provider.query
  rcases p.refresh w with ⟨failure | ⟨⟩, p⟩ <;> rfl

namespace Archive

/-- The answers of the providers that do not fail. -/
theorem answers_eq {α : Type} (question : Provider → Except Failure α × Provider)
    (providers : List (String × Provider)) :
    (answers question providers).1.map (·.2)
      = providers.filterMap fun p => (question p.2).1.toOption := by
  induction providers with
  | nil => rfl
  | cons named providers ih =>
    obtain ⟨name, p⟩ := named
    rw [answers]
    rcases hanswer : question p with ⟨failure | answer, p'⟩
    · rw [List.filterMap_cons_none (by rw [hanswer]; rfl), ← ih]
    · rw [List.filterMap_cons_some (b := answer) (by rw [hanswer]; rfl), ← ih]
      rfl

/-- The answers to a search for at most `limit` entries, by the providers that do not fail. -/
def logsFound (a : Archive) (w : World) (text : String) (limit : Int) (deduplicate : Bool) :
    List (List Entry) :=
  a.providers.filterMap fun p => (p.2.search w text (some limit) (some deduplicate)).1.toOption

section LogsFound

variable {a : Archive} {w : World} {text : String} {deduplicate : Bool}

/-- A limit cuts every answer. -/
theorem logsFound_eq_take {n : Nat} (hn : 0 < n) :
    a.logsFound w text n deduplicate = (a.logsFound w text 0 deduplicate).map (List.take n) := by
  rw [logsFound, logsFound, List.map_filterMap]
  refine List.filterMap_congr fun p _ => ?_
  rw [Provider.search_fst, Provider.search_fst]
  cases (p.2.refresh w).1 with
  | error failure => rfl
  | ok _ => exact congrArg some (search_eq_take _ text hn deduplicate)

/-- Every answer is that of a provider that could be brought up to date. -/
theorem mem_logsFound {limit : Int} {log : List Entry}
    (h : log ∈ a.logsFound w text limit deduplicate) :
    ∃ p ∈ a.providers, (p.2.refresh w).1 = .ok () ∧
      log = History.search (p.2.refresh w).2.entries text limit deduplicate := by
  obtain ⟨p, hp, hanswer⟩ := List.mem_filterMap.mp h
  rw [Provider.search_fst] at hanswer
  cases hrefresh : (p.2.refresh w).1 with
  | error failure =>
    rw [hrefresh] at hanswer
    cases hanswer
  | ok _ =>
    rw [hrefresh] at hanswer
    exact ⟨p, hp, hrefresh, (Option.some.inj hanswer).symm⟩

/-- In unified mode a search merges the answers. -/
theorem search_unified_fst (hmode : a.mode = .unified) (limit : Option Int)
    (deduplicate : Option Bool) :
    (a.search w text limit deduplicate).1 = .ok (merge
      (a.logsFound w text (limit.getD a.config.historyMaxResults)
        (deduplicate.getD a.config.historyDeduplicate))
      (deduplicate.getD a.config.historyDeduplicate)
      (some (limit.getD a.config.historyMaxResults))) := by
  simp only [search, hmode, if_true, askAll, answers_eq, logsFound]

/-- No search finds more entries than are wanted, in whatever mode. -/
theorem length_search_le {n : Nat} (hn : 0 < n) {deduplicate : Option Bool} {found : List Entry}
    (h : (a.search w text (some (n : Int)) deduplicate).1 = .ok found) : found.length ≤ n := by
  by_cases hmode : a.mode = .unified
  · rw [search_unified_fst hmode, Option.getD_some, merge_eq, cut_eq_take hn] at h
    obtain rfl := Except.ok.inj h
    exact List.length_take_le n _
  · have hone : (a.search w text (some n) deduplicate).1 = ((a.providerAt a.activeName).search w text
        (some n) (some (deduplicate.getD a.config.historyDeduplicate))).1 := by
      simp only [search, hmode, if_false, ask, Option.getD_some]
    rw [hone, Provider.search_fst] at h
    obtain ⟨-, -, rfl⟩ := map_ok_iff.mp h
    rw [search_eq_take _ _ hn]
    exact List.length_take_le n _

end LogsFound

/-- **Cutting the answers of the providers loses nothing.** In unified mode, if every provider that
can be brought up to date holds its entries in order, a search for at most so many entries finds the
first ones of all that the providers find, merged: none is lost or moved, and no older repeat of a
command comes up. -/
theorem search_eq_cut_merge (a : Archive) (w : World) (text : String) (limit : Option Int)
    (deduplicate : Option Bool) (hmode : a.mode = .unified)
    (hlimit : 0 ≤ limit.getD a.config.historyMaxResults)
    (hsorted : ∀ p ∈ a.providers, (p.2.refresh w).1 = .ok () →
      NewestFirst (p.2.refresh w).2.entries.reverse) :
    (a.search w text limit deduplicate).1
      = .ok (cut (some (limit.getD a.config.historyMaxResults))
          (merge ((answers (fun p => p.search w text (some 0)
              (some (deduplicate.getD a.config.historyDeduplicate))) a.providers).1.map (·.2))
            (deduplicate.getD a.config.historyDeduplicate) none)) := by
  rw [search_unified_fst hmode, answers_eq]
  generalize deduplicate.getD a.config.historyDeduplicate = dedup
  generalize limit.getD a.config.historyMaxResults = n at hlimit
  rw [← logsFound, merge_eq, merge_eq]
  obtain ⟨n, rfl⟩ := Int.eq_ofNat_of_zero_le hlimit
  -- Without a limit both sides are the same.
  rcases Nat.eq_zero_or_pos n with rfl | hn
  · rfl
  · have hlogs : ∀ log ∈ a.logsFound w text 0 dedup, NewestFirst log := by
      intro log hlog
      obtain ⟨p, hp, hrefresh, rfl⟩ := mem_logsFound hlog
      exact search_newestFirst (hsorted p hp hrefresh) text 0 dedup
    have hnodup (hyes : dedup = true) :
        ∀ log ∈ a.logsFound w text 0 dedup, (log.map (·.command)).Nodup := by
      intro log hlog
      obtain ⟨p, -, -, rfl⟩ := mem_logsFound hlog
      rw [hyes]
      exact search_commands_nodup _ text 0
    rw [cut_eq_take hn, cut_eq_take hn, logsFound_eq_take hn]
    exact congrArg Except.ok (take_kept_mergeSort n hlogs hnodup)

/-- Two logs with a command in common, and one that cannot be refreshed. -/
theorem search_two_logs :
    let entry (command : String) (timestamp : Int) : Entry :=
      { command, timestamp := some timestamp }
    let a : Archive := {
      config := {}, mode := .unified, shell := none, hasNative := false
      providers := [
        ("first", .memory { name := "first", entries := [entry "pwd" 1, entry "ls" 3] }),
        ("second", .memory { name := "second", entries := [entry "ls" 2, entry "pwd" 2] }),
        ("third", .memory { name := "third", trouble := some "gone" })] }
    (a.search {} "" (some 1) (some true)).1
      = .ok (cut (some 1) (merge [[entry "ls" 3, entry "pwd" 1],
          [entry "pwd" 2, entry "ls" 2]] true none)) := by
  intro entry a
  have hsorted : ∀ p ∈ a.providers, (p.2.refresh {}).1 = .ok () →
      NewestFirst (p.2.refresh {}).2.entries.reverse := by
    intro p hp _
    simp only [a, List.mem_cons, List.not_mem_nil, or_false] at hp
    rcases hp with rfl | rfl | rfl <;> decide
  have hanswers : (answers (fun p => p.search {} "" (some 0) (some true)) a.providers).1.map (·.2)
      = [[entry "ls" 3, entry "pwd" 1], [entry "pwd" 2, entry "ls" 2]] := by
    -- The empty text is contained in every command.
    have hmatch (e : Entry) : e.containsFolded (Chars.lower []) = true := by
      unfold Entry.containsFolded
      cases Chars.lower e.command.toList <;> rfl
    simp [a, entry, answers, Provider.search, Provider.query, Provider.refresh, Provider.entries,
      History.search, searchFrom, hmatch]
  rw [← hanswers]
  exact search_eq_cut_merge a {} "" (some 1) (some true) rfl (by decide) hsorted

end Archive

end ShellAssist.History
