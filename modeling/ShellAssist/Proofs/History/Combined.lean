import ShellAssist.Proofs.Failure
import ShellAssist.Proofs.History.Merge
import ShellAssist.Proofs.History.Mirror
import ShellAssist.Proofs.History.Tally
import ShellAssist.Proofs.History.Truncation
import Mathlib.Algebra.BigOperators.Ring.Finset
import Mathlib.Algebra.Order.BigOperators.Group.List
import Mathlib.Algebra.Order.Group.Nat
import Mathlib.Data.Finset.Card

namespace ShellAssist.History

/-!
# The statistics of all histories together

They are put together from the statistics of each history, not from its entries: numbers are added, and
so are the counts of the words that each history lists, which are its ten most frequent ones. So what is
said of all entries is right only where the histories have no command in common, and where none of them
leaves out a word that matters.

* `sum_distinctCommands_iff` — commands that histories have in common;
* `timesListed_iff` — words that a history leaves out;
* `Archive.stats_combined` — the combined statistics, from the entries;
* `Archive.combined_iff` — where they are those of all entries together.
-/

/-! ### Commands -/

/-- The commands of entries. -/
def commandsOf (entries : List Entry) : Finset String :=
  (entries.map (·.command)).toFinset

/-- How many commands entries have. -/
def distinctCommands (entries : List Entry) : Nat :=
  (commandsOf entries).card

/-- Two logs have no command in common. -/
def ShareNoCommand (log log' : List Entry) : Prop :=
  Disjoint (commandsOf log) (commandsOf log')

/-- The commands of entries are those that some entry has. -/
theorem mem_commandsOf {entries : List Entry} {command : String} :
    command ∈ commandsOf entries ↔ ∃ e ∈ entries, e.command = command := by
  rw [commandsOf, List.mem_toFinset, List.mem_map]

/-- Those of two logs are those of both. -/
theorem commandsOf_append (entries more : List Entry) :
    commandsOf (entries ++ more) = commandsOf entries ∪ commandsOf more := by
  rw [commandsOf, List.map_append, List.toFinset_append]
  rfl

/-- The first entries of each command are as many as the commands. -/
theorem length_dedupe (entries : List Entry) : (dedupe entries).length = distinctCommands entries := by
  have hnodup : ((dedupe entries).map (·.command)).Nodup := dedupeFrom_commands_nodup [] entries
  rw [distinctCommands, commandsOf, ← List.length_map (·.command), ← List.toFinset_card_of_nodup hnodup]
  congr 1
  ext command
  rw [List.mem_toFinset, List.mem_toFinset, mem_dedupe_commands]

/-- All logs together have no more commands than one by one. -/
theorem distinctCommands_flatten_le (logs : List (List Entry)) :
    distinctCommands logs.flatten ≤ (logs.map distinctCommands).sum := by
  induction logs with
  | nil => exact Nat.le_refl 0
  | cons log logs ih =>
    rw [List.flatten_cons, List.map_cons, List.sum_cons, distinctCommands, commandsOf_append]
    exact (Finset.card_union_le _ _).trans (Nat.add_le_add_left ih _)

/-- The numbers of commands add up just if no two logs have a command in common. -/
theorem sum_distinctCommands_iff (logs : List (List Entry)) :
    (logs.map distinctCommands).sum = distinctCommands logs.flatten ↔ logs.Pairwise ShareNoCommand := by
  induction logs with
  | nil => exact iff_of_true rfl .nil
  | cons log logs ih =>
    have hshare : (∀ log' ∈ logs, ShareNoCommand log log') ↔ Disjoint (commandsOf log)
        (commandsOf logs.flatten) := by
      simp only [ShareNoCommand, Finset.disjoint_left, mem_commandsOf, List.mem_flatten]
      grind
    have hunion := Finset.card_union_le (commandsOf log) (commandsOf logs.flatten)
    have hrest : (commandsOf logs.flatten).card ≤ _ := distinctCommands_flatten_le logs
    rw [List.pairwise_cons, hshare, ← ih, ← Finset.card_union_eq_card_add_card, List.map_cons,
      List.sum_cons, List.flatten_cons]
    simp only [distinctCommands, commandsOf_append] at hrest ⊢
    omega

/-! ### Words -/

/-- How many of the entries have the word. -/
def countWord (entries : List Entry) (word : String) : Nat :=
  entries.countP fun e => Stats.commandWord e = word

/-- The most frequent words of a log, as its own statistics list them. -/
def topTen (log : List Entry) : Tally :=
  (Tally.ofList (log.map Stats.commandWord)).top 10

/-- The word occurs in the log, and is not among its most frequent ones. -/
def Hides (log : List Entry) (word : String) : Prop :=
  0 < countWord log word ∧ word ∉ (topTen log).words

section Words

variable {log : List Entry} {logs : List (List Entry)} {word : String}

/-- The top ten count all of a word that they list, and nothing of another. -/
theorem count_topTen (log : List Entry) (word : String) : (topTen log).count word
    = if word ∈ (topTen log).words then countWord log word else 0 := by
  rw [topTen, Tally.count_top (Tally.nodup_words_ofList _), Tally.count_ofList, countWord,
    List.count_eq_countP, List.countP_map]
  rfl

/-- So they never count too much. -/
theorem count_topTen_le (log : List Entry) (word : String) :
    (topTen log).count word ≤ countWord log word := by
  rw [count_topTen]
  split
  · exact Nat.le_refl _
  · exact Nat.zero_le _

/-- A log lists a word as often as it occurs, unless it hides it. -/
theorem count_topTen_iff : (topTen log).count word = countWord log word ↔ ¬ Hides log word := by
  rw [count_topTen, Hides]
  split
  · rename_i hlisted
    exact iff_of_true rfl fun h => h.2 hlisted
  · rename_i hlisted
    rw [and_iff_left hlisted, Nat.pos_iff_ne_zero, not_not, eq_comm]

/-- A log with at most ten words hides none. -/
theorem not_hides_of_few (h : (Tally.ofList (log.map Stats.commandWord)).length ≤ 10) :
    ¬ Hides log word := by
  rintro ⟨hoccurs, hlisted⟩
  refine hlisted ((Tally.mem_words_top_of_length_le h).mpr (Tally.mem_words_ofList.mpr ?_))
  obtain ⟨e, he, hword⟩ := List.countP_pos_iff.mp hoccurs
  exact of_decide_eq_true hword ▸ List.mem_map_of_mem he

/-- How often the logs list a word, all together. -/
def timesListed (logs : List (List Entry)) (word : String) : Nat :=
  (logs.map fun log => (topTen log).count word).sum

/-- Nor do the lists of all logs. -/
theorem timesListed_le (logs : List (List Entry)) (word : String) :
    timesListed logs word ≤ countWord logs.flatten word := by
  rw [countWord, List.countP_flatten]
  exact List.sum_le_sum fun log _ => count_topTen_le log word

/-- The counts of a word add up just if no log hides it. -/
theorem timesListed_iff :
    timesListed logs word = countWord logs.flatten word ↔ ∀ log ∈ logs, ¬ Hides log word := by
  induction logs with
  | nil => exact iff_of_true rfl nofun
  | cons log logs ih =>
    have hfirst := count_topTen_le log word
    have hrest := timesListed_le logs word
    have happend : countWord (log :: logs).flatten word
        = countWord log word + countWord logs.flatten word := List.countP_append
    rw [List.forall_mem_cons, ← ih, ← count_topTen_iff, happend, timesListed, List.map_cons,
      List.sum_cons, ← timesListed]
    omega

/-- The words that the logs list, counted together. -/
theorem count_combineTallies (logs : List (List Entry)) (word : String) :
    (Archive.combineTallies (logs.map topTen)).count word = timesListed logs word := by
  show (Tally.addAll [] (logs.map topTen).flatten).count word = _
  rw [Tally.count_addAll, Tally.count_flatten, List.map_map, Tally.count_nil, Nat.zero_add]
  rfl

end Words

/-! ### Histories -/

/-- Statistics of all entries tell their number, their commands and their top ten. -/
theorem Stats.of_ofEntries {entries : List Entry} {countFailures : Bool} {s : Stats}
    (h : Stats.ofEntries entries none countFailures = .ok s) :
    s.total = entries.length ∧ s.unique = distinctCommands entries ∧ s.topCommands = topTen entries := by
  obtain ⟨average, -, h⟩ := bind_ok_iff.mp h
  obtain rfl := Except.ok.inj h
  exact ⟨rfl, length_dedupe entries, rfl⟩

/-- Refreshing keeps the dialect. -/
theorem ShellLog.dialect_refresh (log : ShellLog) (w : World) :
    (log.refresh w).2.dialect = log.dialect := by
  unfold refresh load
  dsimp only
  repeat' split
  all_goals rfl

/-- The statistics count all entries that are held; those of a zsh log count the newest of each command
only. -/
def Provider.CountsAll : Provider → Prop
  | .shellLog log => log.dialect ≠ .zsh
  | _ => True

/-- Statistics of a provider are those of its entries. -/
theorem Provider.of_stats_ok {p : Provider} (hp : p.CountsAll) {w : World} {s : Stats}
    (h : (p.stats w).1 = .ok s) :
    s.total = (p.refresh w).2.entries.length ∧ s.unique = distinctCommands (p.refresh w).2.entries ∧
      s.topCommands = topTen (p.refresh w).2.entries := by
  -- The statistics are those of the entries the refresh left.
  have hheld : heldStats (p.refresh w).2 = .ok s := by
    rw [stats, query] at h
    rcases hrefresh : p.refresh w with ⟨failure | _, p'⟩
    · rw [hrefresh] at h
      cases h
    · rw [hrefresh] at h
      exact h
  cases p with
  | shellLog log =>
    have hdialect : (log.refresh w).2.dialect ≠ .zsh := log.dialect_refresh w ▸ hp
    rw [refresh_shellLog, heldStats, if_neg hdialect] at hheld
    exact Stats.of_ofEntries hheld
  | store s => exact Stats.of_ofEntries hheld
  | memory log => exact Stats.of_ofEntries hheld

namespace Archive

variable {a : Archive} {w : World}

/-- The entries of the providers that have statistics. -/
def logsCounted (a : Archive) (w : World) : List (List Entry) :=
  a.providers.filterMap fun p => (p.2.stats w).1.toOption.map fun _ => (p.2.refresh w).2.entries

/-- What is known of each provider's statistics is known of all that are put together. -/
theorem map_stats {α : Type} (part : Stats → α) (ofLog : List Entry → α)
    (h : ∀ p ∈ a.providers, ∀ s, (p.2.stats w).1 = .ok s → part s = ofLog (p.2.refresh w).2.entries) :
    ((answers (fun p => p.stats w) a.providers).1.map (·.2)).map part
      = (a.logsCounted w).map ofLog := by
  rw [answers_eq, logsCounted, List.map_filterMap, List.map_filterMap]
  refine List.filterMap_congr fun p hp => ?_
  cases hstats : (p.2.stats w).1 with
  | error failure => rfl
  | ok s => exact congrArg some (h p hp s hstats)

/-- The combined statistics, from the entries. -/
theorem stats_combined (hmode : a.mode = .unified) (hcounts : ∀ p ∈ a.providers, p.2.CountsAll) :
    (a.stats w).1.lookup "combined" = some
      [("total", .int (a.logsCounted w).flatten.length),
       ("unique", .int ((a.logsCounted w).map distinctCommands).sum),
       ("top_commands",
         ((combineTallies ((a.logsCounted w).map topTen)).top 10).toJson "command")] := by
  have hlookup (each : List (String × Members)) (members : Members) :
      ((each.filter fun p => p.1 ≠ "combined") ++ [("combined", members)]).lookup "combined"
        = some members := by
    rw [List.lookup_append, List.lookup_eq_none_iff.mpr, Option.none_or]
    · rfl
    · intro p hp
      exact bne_iff_ne.mpr fun hname => of_decide_eq_true (List.mem_filter.mp hp).2 hname.symm
  have hsum (f : Stats → Int) (xs : List Stats) : xs.foldr (fun s n => f s + n) 0 = (xs.map f).sum := by
    rw [List.sum_eq_foldr, List.foldr_map]
  -- A provider that answers gives two numbers and a list over its log; each is combined on its own.
  have hparts (p : String × Provider) (hp : p ∈ a.providers) (s : Stats) (hs : (p.2.stats w).1 = .ok s) :=
    Provider.of_stats_ok (hcounts p hp) hs
  have htotal := map_stats Stats.total (fun log => (log.length : Int))
    fun p hp s hs => (hparts p hp s hs).1
  have hunique := map_stats (fun s => (s.unique : Int)) (fun log => (distinctCommands log : Int))
    fun p hp s hs => congrArg Nat.cast (hparts p hp s hs).2.1
  have htop := map_stats Stats.topCommands topTen
    fun p hp s hs => (hparts p hp s hs).2.2
  simp only [stats, askAll, hmode, if_true, hlookup, combined, hsum]
  rw [htotal, hunique, htop, List.length_flatten, Nat.cast_list_sum, Nat.cast_list_sum, List.map_map,
    List.map_map]
  rfl

/-- **The combined statistics are those of all entries together only where histories neither share
commands nor hide words.** The number of entries is right. The number of commands is too high, unless no
two histories have a command in common. The words that are listed are the most frequent of those that
the histories list; their counts are too low, unless no history hides the word, and a word that is not
listed can occur more often only if a history hides it. -/
theorem combined_iff (hmode : a.mode = .unified) (hcounts : ∀ p ∈ a.providers, p.2.CountsAll) :
    let logs := a.logsCounted w
    let all := logs.flatten
    ∃ (unique : Nat) (top : Tally),
      (a.stats w).1.lookup "combined" = some [("total", .int all.length), ("unique", .int unique),
        ("top_commands", top.toJson "command")] ∧
      distinctCommands all ≤ unique ∧ (unique = distinctCommands all ↔ logs.Pairwise ShareNoCommand) ∧
      top.words.Nodup ∧ top.Pairwise (fun p q => q.2 ≤ p.2) ∧
      top.length = min 10 ((logs.flatMap fun log => (topTen log).words).toFinset.card) ∧
      (∀ word n, (word, n) ∈ top →
        n ≤ countWord all word ∧ (n = countWord all word ↔ ∀ log ∈ logs, ¬ Hides log word)) ∧
      ((∀ word ∉ top.words, ∀ other n, (other, n) ∈ top → countWord all word ≤ n) ↔
        ∀ word ∉ top.words, (∃ log ∈ logs, Hides log word) →
          ∀ other n, (other, n) ∈ top → countWord all word ≤ n) := by
  intro logs all
  let tally := combineTallies (logs.map topTen)
  have hnodup : tally.words.Nodup := Tally.nodup_words_addAll Tally.nodup_words_nil _
  have hcount {word : String} {n : Nat} (h : (word, n) ∈ tally.top 10) : n = timesListed logs word := by
    rw [← count_combineTallies]
    exact ((Tally.mem_iff hnodup).mp (Tally.mem_of_mem_top h)).2
  refine ⟨_, tally.top 10, stats_combined hmode hcounts, distinctCommands_flatten_le logs,
    sum_distinctCommands_iff logs, Tally.nodup_words_top hnodup 10, Tally.pairwise_top 10 tally, ?_, ?_, ?_⟩
  · have hwords : tally.words.toFinset = (logs.flatMap fun log => (topTen log).words).toFinset := by
      ext word
      have hmem : word ∈ tally.words ↔ word ∈ (logs.map topTen).flatten.map (·.1) :=
        Tally.mem_words_addAll.trans (or_iff_right List.not_mem_nil)
      rw [List.mem_toFinset, List.mem_toFinset, hmem, List.map_flatten, List.map_map,
        ← List.flatMap_def]
      rfl
    rw [Tally.length_top, ← hwords, List.toFinset_card_of_nodup hnodup, Tally.words, List.length_map]
  · intro word n hword
    rw [hcount hword]
    exact ⟨timesListed_le logs word, timesListed_iff⟩
  · refine ⟨fun h word hword _ => h word hword, fun h word hword other n hother => ?_⟩
    by_cases hhidden : ∃ log ∈ logs, Hides log word
    · exact h word hword hhidden other n hother
    · -- All logs list the word as often as it occurs, and it was not frequent enough.
      have hall : timesListed logs word = countWord all word :=
        timesListed_iff.mpr fun log hlog hhides => hhidden ⟨log, hlog, hhides⟩
      rw [← hall, ← count_combineTallies]
      exact Tally.count_le_of_not_mem_top hnodup hword hother

/-! ### An example -/

/-- Two histories: the program's own with some commands, and one of bash in a file. -/
def twoHistories (held : List String) : Archive where
  config := {}
  mode := .unified
  shell := some .bash
  hasNative := true
  providers :=
    [("owned", .store { Store.sample with entries := held.map fun command => { command }, loaded := true }),
     ("bash", .shellLog { dialect := .bash, environment := [("HISTFILE", "/h/hist")] })]

/-- Both histories count all of their entries. -/
theorem countsAll_twoHistories (held : List String) :
    ∀ p ∈ (twoHistories held).providers, p.2.CountsAll := by
  simp [twoHistories, Provider.CountsAll]

/-- These are the entries that are counted. -/
theorem logsCounted_twoHistories :
    (twoHistories ["ls", "pwd"]).logsCounted (withHistory 2 (Text.encode "ls\n".toList))
      = [[{ command := "ls" }, { command := "pwd" }], [{ command := "ls", source := "bash" }]] :=
  rfl

/-- A command that both histories have is counted twice. -/
theorem combined_iff_shared :
    let a := twoHistories ["ls", "pwd"]
    let w := withHistory 2 (Text.encode "ls\n".toList)
    a.logsCounted w
        = [[{ command := "ls" }, { command := "pwd" }], [{ command := "ls", source := "bash" }]] ∧
      ∃ (unique : Nat) (top : Tally), (a.stats w).1.lookup "combined" = some [("total", .int 3),
          ("unique", .int unique), ("top_commands", top.toJson "command")] ∧
        2 < unique ∧ ∀ n, ("ls", n) ∈ top → n = 2 := by
  intro a w
  have hlogs := logsCounted_twoHistories
  obtain ⟨unique, top, hstats, hle, hunique, -, -, -, hcounts, -⟩ :=
    combined_iff (a := a) (w := w) rfl (countsAll_twoHistories _)
  rw [hlogs] at hstats hle hunique hcounts
  refine ⟨hlogs, unique, top, hstats, lt_of_le_of_ne hle fun heq => ?_, fun n hn => ?_⟩
  · have hshare := (List.pairwise_cons.mp (hunique.mp heq.symm)).1 _ List.mem_cons_self
    rw [ShareNoCommand] at hshare
    revert hshare
    decide
  · refine (hcounts "ls" n hn).2.mpr ?_
    rw [List.forall_mem_cons, List.forall_mem_singleton]
    exact ⟨not_hides_of_few (by decide), not_hides_of_few (by decide)⟩

/-- The combined statistics need not be those of all entries together: a command that both histories have
is counted twice, and a word that is the eleventh of one of them is left out, however often it occurs in
both. -/
theorem combined_inexact :
    let entriesOf (held : List String) (content : String) :=
      ((twoHistories held).logsCounted (withHistory 2 (Text.encode content.toList))).flatten
    let combinedOf (held : List String) (content : String) :=
      ((twoHistories held).stats (withHistory 2 (Text.encode content.toList))).1.lookup "combined"
    (¬ ∀ (held : List String) (content : String), ∃ top, combinedOf held content = some
      [("total", .int (entriesOf held content).length),
       ("unique", .int (distinctCommands (entriesOf held content))), ("top_commands", top)]) ∧
    (¬ ∀ (held : List String) (content : String), ∃ (unique : Int) (top : Tally),
      combinedOf held content = some [("total", .int (entriesOf held content).length),
        ("unique", .int unique), ("top_commands", top.toJson "command")] ∧
      ∀ word ∉ top.words, ∀ other n, (other, n) ∈ top →
        countWord (entriesOf held content) word ≤ n) := by
  intro entriesOf combinedOf
  have hcombined (held : List String) (content : String) :
      combinedOf held content = _ := stats_combined rfl (countsAll_twoHistories held)
  constructor
  · intro hexact
    obtain ⟨top, hstats⟩ := hexact ["ls"] "ls\n"
    rw [hcombined] at hstats
    simp only [Option.some.injEq, List.cons.injEq, Prod.mk.injEq, Json.int.injEq] at hstats
    obtain ⟨-, ⟨-, hunique⟩, -⟩ := hstats
    revert hunique
    decide
  · intro hexact
    let letters := ["a", "b", "c", "d", "e", "f", "g", "h", "i", "j"]
    obtain ⟨unique, top, hstats, hmost⟩ := hexact (letters ++ ["ls"]) "ls\n"
    rw [hcombined] at hstats
    simp only [Option.some.injEq, List.cons.injEq, Prod.mk.injEq, true_and, and_true] at hstats
    obtain rfl := Tally.toJson_injective "command" hstats.2.2
    -- All words are equally frequent, so the last one is left out, first alone and then together.
    have hown : topTen ((letters ++ ["ls"]).map fun command => { command }) = letters.map (·, 1) := by
      rw [topTen, Tally.top_of_pairwise (by decide)]
      rfl
    have hbash : topTen [{ command := "ls", source := "bash" }] = [("ls", 1)] := by
      rw [topTen, Tally.top_of_pairwise (by decide)]
      rfl
    have htop : (combineTallies (((twoHistories (letters ++ ["ls"])).logsCounted
        (withHistory 2 (Text.encode "ls\n".toList))).map topTen)).top 10 = letters.map (·, 1) := by
      show (combineTallies [topTen ((letters ++ ["ls"]).map fun command => { command }),
        topTen [{ command := "ls", source := "bash" }]]).top 10 = _
      rw [hown, hbash, Tally.top_of_pairwise (by decide)]
      rfl
    rw [htop] at hmost
    have hfewer := hmost "ls" (by decide) "a" 1 (by decide)
    revert hfewer
    decide

end Archive

end ShellAssist.History
