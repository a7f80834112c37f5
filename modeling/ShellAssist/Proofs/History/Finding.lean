import ShellAssist.Proofs.History.Refusals
import ShellAssist.Proofs.History.Truncation
import ShellAssist.Proofs.Text.Basic
import ShellAssist.Proofs.Text.FinalSigma

namespace ShellAssist.History

/-!
# What a search finds

A search without a limit finds the commands that contain the query where both are in lower case. The
query itself may be contained in a command and not be found: its last capital sigma may end a word, and
another one in the command.

* `mem_commands_searchFrom` — the commands that are found from some entry on;
* `Provider.search_finds_iff` — what is found, and the queries that are found in every command that
  contains them.
-/

variable {query command : String} {entries : List Entry}

/-! ### The search of one log -/

/-- Whether a command contains a query, case left aside. -/
def Matches (query command : String) : Prop :=
  Text.contains (Text.lower query) (Text.lower command) = true

/-- The commands that are found among the entries to come: those that match and, with deduplication,
have not been looked at. -/
theorem mem_commands_searchFrom (deduplicate : Bool) (seen : List String) (found : Nat) :
    command ∈ (searchFrom (Chars.lower query.toList) deduplicate 0 seen found entries).map (·.command) ↔
      command ∈ entries.map (·.command) ∧ Matches query command ∧
        (deduplicate = true → command ∉ seen) := by
  induction entries generalizing seen found with
  | nil => simp [searchFrom]
  | cons e entries ih =>
    have hmatch : e.containsFolded (Chars.lower query.toList) = true ↔ Matches query e.command := by
      rw [Matches, Text.contains, Text.lower, Text.lower, String.toList_ofList, String.toList_ofList,
        Entry.containsFolded]
    rw [searchFrom, List.map_cons, List.mem_cons]
    by_cases hseen : (deduplicate && seen.contains e.command) = true
    · -- This command has been looked at.
      rw [if_pos hseen, ih]
      obtain ⟨hyes, hmem⟩ := Bool.and_eq_true_iff.mp hseen
      refine and_congr_left fun hnew => (or_iff_right ?_).symm
      rintro rfl
      exact hnew.2 hyes (List.contains_iff_mem.mp hmem)
    · have hnew : deduplicate = true → e.command ∉ seen := by simpa using hseen
      rw [if_neg hseen]
      dsimp only
      rw [if_neg (by simp : ¬ (decide ((0 : Int) ≠ 0) && _) = true)]
      by_cases hcommand : command = e.command
      · subst hcommand
        by_cases hfound : Matches query e.command
        · rw [if_pos (hmatch.mpr hfound), List.map_cons]
          exact iff_of_true List.mem_cons_self ⟨.inl rfl, hfound, hnew⟩
        · rw [if_neg (mt hmatch.mp hfound), ih]
          exact iff_of_false (fun h => hfound h.2.1) fun h => hfound h.2.1
      · -- Another command is found further on, whether this one is or not.
        have hlater (found : Nat) := ih (if deduplicate then e.command :: seen else seen) found
        have hlook : (deduplicate = true →
            command ∉ if deduplicate then e.command :: seen else seen) ↔
              (deduplicate = true → command ∉ seen) := by
          cases deduplicate <;> simp [hcommand]
        rw [or_iff_right hcommand]
        split
        · rw [List.map_cons, List.mem_cons, or_iff_right hcommand, hlater, hlook]
        · rw [hlater, hlook]

/-- The commands that a search without a limit finds. -/
theorem mem_commands_search (deduplicate : Bool) :
    command ∈ (search entries query 0 deduplicate).map (·.command) ↔
      command ∈ entries.map (·.command) ∧ Matches query command := by
  rw [search, mem_commands_searchFrom, List.map_reverse, List.mem_reverse]
  exact and_congr_right fun _ => and_iff_left fun _ => List.not_mem_nil

/-! ### Queries that are contained in commands -/

/-- What occurs in every command that contains the query, case left aside. -/
theorem matches_of_contains_iff :
    (∀ command, Text.contains query command = true → Matches query command) ↔
      Chars.KeepsCase query.toList := by
  rw [← Chars.lower_infix_iff]
  simp only [Matches, Text.contains_iff, Text.lower, String.toList_ofList]
  constructor
  · intro h whole hin
    simpa using h (String.ofList whole) (by simpa using hin)
  · exact fun h command hin => h command.toList hin

namespace Provider

/-- **What a search finds.** A provider that can be brought up to date finds, without a limit and with
or without deduplication, the commands of its entries that contain the query where both are in lower
case. All that contain the query as it stands are among them, whatever the entries are, just if the
query settles whether each of its capital sigmas ends a word. -/
theorem search_finds_iff (query : String) :
    (∀ (p : Provider) (w : World) (deduplicate : Bool), ¬ p.Refuses w →
      ∃ found, (p.search w query (some 0) (some deduplicate)).1 = .ok found ∧
        ∀ command, command ∈ found.map (·.command) ↔
          command ∈ (p.refresh w).2.entries.map (·.command) ∧ Matches query command) ∧
    ((∀ (p : Provider) (w : World) (deduplicate : Bool), ¬ p.Refuses w →
      ∃ found, (p.search w query (some 0) (some deduplicate)).1 = .ok found ∧
        ∀ e ∈ (p.refresh w).2.entries, Text.contains query e.command = true →
          ∃ e' ∈ found, e'.command = e.command) ↔
      Chars.KeepsCase query.toList) := by
  have hanswer (p : Provider) (w : World) (deduplicate : Bool) (h : ¬ p.Refuses w) :
      (p.search w query (some 0) (some deduplicate)).1
        = .ok (History.search (p.refresh w).2.entries query 0 deduplicate) := by
    obtain ⟨⟨⟩, hrefresh⟩ := not_fails_iff.mp (mt fails_refresh_iff.mp h)
    rw [search_fst, hrefresh]
    rfl
  refine ⟨fun p w deduplicate h => ⟨_, hanswer p w deduplicate h, fun command =>
    mem_commands_search deduplicate⟩, ?_⟩
  rw [← matches_of_contains_iff]
  constructor
  · intro h command hin
    -- A log in memory with this command only.
    obtain ⟨found, hfound, hall⟩ :=
      h (.memory { name := "log", entries := [{ command }] }) {} false (by simp [Refuses])
    rw [hanswer _ _ _ (by simp [Refuses])] at hfound
    obtain rfl := Except.ok.inj hfound
    obtain ⟨e, he, hcommand⟩ := hall { command } (List.mem_singleton_self _) hin
    have hmem : command ∈ (History.search [{ command }] query 0 false).map (·.command) :=
      List.mem_map.mpr ⟨e, he, hcommand⟩
    exact ((mem_commands_search false).mp hmem).2
  · intro h p w deduplicate hrefuses
    refine ⟨_, hanswer p w deduplicate hrefuses, fun e he hin => ?_⟩
    have hmem := (mem_commands_search deduplicate).mpr
      ⟨List.mem_map_of_mem (f := (·.command)) he, h e.command hin⟩
    exact List.mem_map.mp hmem

/-- A word in capitals is not found in a file name that begins with it. -/
theorem search_misses_capitals :
    let p : Provider := .memory { name := "log", entries := [{ command := "cat ΟΔΟΣ.txt" }] }
    Text.contains "ΟΔΟΣ" "cat ΟΔΟΣ.txt" = true ∧
      ∀ deduplicate : Bool, (p.search {} "ΟΔΟΣ" (some 0) (some deduplicate)).1.map
        (·.map (·.command)) = .ok [] := by
  decide +kernel

end Provider

end ShellAssist.History
