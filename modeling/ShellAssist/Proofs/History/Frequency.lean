import ShellAssist.Proofs.History.Combined
import ShellAssist.Proofs.Number.Range
import ShellAssist.Proofs.Sorting

namespace ShellAssist.History

/-!
# The statistics of entries

What is said of a list of entries is counted exactly. The most frequent words are ranked by how often they
occur, and words that occur equally often by where they occur first, so that it is settled at any place
where the list is cut which words stand on it. There are no statistics where the average of the durations
is beyond the doubles.

* `Outranks`, `ListsTop` — the most frequent of some words;
* `Tally.ranking_pairwise`, `Tally.listsTop_top` — sorting a tally ranks its words;
* `Stats.Describes` — what statistics say of entries;
* `Stats.ofEntries_describes` — they do say it, unless there are none.
-/

/-! ### The most frequent words -/

/-- A word occurs more often than another, or equally often and earlier. -/
def Outranks (list : List String) (word other : String) : Prop :=
  list.count other < list.count word ∨
    list.count other = list.count word ∧ list.idxOf word < list.idxOf other

/-- The words of a list that are at most `n` and outrank all others, in this order, each with the number
of its occurrences. -/
structure ListsTop (n : Nat) (list : List String) (top : Tally) : Prop where
  length_eq : top.length = min n list.toFinset.card
  nodup : top.words.Nodup
  counted : ∀ p ∈ top, p.1 ∈ list ∧ p.2 = list.count p.1
  ranked : top.words.Pairwise (Outranks list)
  cut : ∀ word ∈ top.words, ∀ other ∈ list, other ∉ top.words → Outranks list word other

namespace Tally

variable {list : List String} {p : String × Nat}

/-- What is counted is there, as often as is said. -/
theorem counted_of_mem_ofList (h : p ∈ ofList list) : p.1 ∈ list ∧ p.2 = list.count p.1 := by
  obtain ⟨hword, hcount⟩ := (mem_iff (nodup_words_ofList list)).mp h
  exact ⟨mem_words_ofList.mp hword, hcount.trans (count_ofList list p.1)⟩

/-- The words of a list by rank. -/
def ranking (list : List String) : List String :=
  words ((ofList list).mergeSort fun p q => q.2 ≤ p.2)

/-- The top of a tally is the beginning of the ranking. -/
theorem words_top (n : Nat) (list : List String) :
    words ((ofList list).top n) = (ranking list).take n := by
  rw [ranking, words, words, top, List.map_take]

/-- The ranking has just the words of the list. -/
theorem mem_ranking_iff {word : String} : word ∈ ranking list ↔ word ∈ list := by
  refine Iff.trans ?_ mem_words_ofList
  exact ((List.mergeSort_perm (ofList list) _).map _).mem_iff

/-- Sorting by counts keeps words that occur equally often in the order in which they occur first. -/
theorem ranking_pairwise (list : List String) : (ranking list).Pairwise (Outranks list) := by
  have horders : OrdersList (fun p q : String × Nat => q.2 ≤ p.2) (ofList list) :=
    .of_key (fun p => OrderDual.toDual p.2) fun _ _ _ _ => Iff.rfl
  have hsort := isStableSort_mergeSort horders fun p _ q _ => decide_eq_true_iff (p := q.2 ≤ p.2)
  have hties := hsort.pairwise_tied horders (List.pairwise_map.mp (isFirsts_words_ofList list).ordered)
  refine List.pairwise_map.mpr ((hsort.sorted.and hties).imp_of_mem fun {p q} hp hq hpq => ?_)
  have hp := (counted_of_mem_ofList (hsort.mem_iff.mp hp)).2
  have hq := (counted_of_mem_ofList (hsort.mem_iff.mp hq)).2
  obtain ⟨hle, htied⟩ := hpq
  rw [hp, hq] at hle htied
  rcases Nat.lt_or_eq_of_le hle with hlt | heq
  · exact .inl hlt
  · exact .inr ⟨heq, htied heq.ge⟩

/-- **The most frequent words of a tally are the first by rank.** -/
theorem listsTop_top (n : Nat) (list : List String) : ListsTop n list ((ofList list).top n) where
  length_eq := by
    have hwords : (ofList list).words.toFinset = list.toFinset := by
      ext word
      rw [List.mem_toFinset, List.mem_toFinset, mem_words_ofList]
    rw [length_top, ← hwords, List.toFinset_card_of_nodup (nodup_words_ofList list), words,
      List.length_map]
  nodup := nodup_words_top (nodup_words_ofList list) n
  counted p hp := counted_of_mem_ofList (mem_of_mem_top hp)
  ranked := by
    rw [words_top]
    exact (ranking_pairwise list).sublist (List.take_sublist n _)
  cut word hword other hother hnot := by
    -- All words are ranked, so one that is not listed stands behind the cut.
    have hranked := ranking_pairwise list
    have hother := mem_ranking_iff.mpr hother
    rw [words_top] at hword hnot
    rw [← List.take_append_drop n (ranking list)] at hranked hother
    have hbehind := (List.mem_append.mp hother).resolve_left hnot
    exact (List.pairwise_append.mp hranked).2.2 word hword other hbehind

end Tally

/-! ### Entries -/

/-- The directories of entries that are known and not empty. -/
def directoriesOf (entries : List Entry) : List String :=
  (entries.filterMap (·.cwd)).filter (· ≠ "")

/-- The durations of entries that are known and not zero. -/
def durationsOf (entries : List Entry) : List Int :=
  (entries.filterMap (·.duration)).filter (· ≠ 0)

/-- The durations, if there are any, have an average that is rounded to a finite double. -/
def HasAverage (durations : List Int) : Prop :=
  durations ≠ [] → durations.sum.natAbs < Number.Double.overflow * durations.length

namespace Stats

variable {entries : List Entry} {total : Option Int} {countFailures : Bool}

/-- The statistics say of entries how many there are, unless that is said beforehand, how many commands
they have, which words and directories are the most frequent, and if they are asked how many entries
failed. -/
structure Describes (s : Stats) (entries : List Entry) (total : Option Int) (countFailures : Bool) :
    Prop where
  total : s.total = total.getD entries.length
  unique : s.unique = distinctCommands entries
  commands : ListsTop 10 (entries.map commandWord) s.topCommands
  directories : ListsTop 5 (directoriesOf entries) s.topDirectories
  failed : s.failed =
    if countFailures then some ((entries.filterMap (·.exitCode)).countP (· ≠ 0)) else none

/-- An average is the quotient of sum and number, if that is finite. -/
theorem average_eq {durations : List Int} (h : durations ≠ []) : Stats.average durations =
    (Number.Double.quotient? durations.sum durations.length).elim (.error .quotientTooLarge)
      fun d => .ok (some d) := by
  have hsum : durations.foldr (· + ·) 0 = durations.sum := List.sum_eq_foldr.symm
  rw [average, if_neg (by simpa using h), hsum]
  cases Number.Double.quotient? durations.sum durations.length <;> rfl

/-- There is one where the quotient is finite. -/
theorem average_of_hasAverage {durations : List Int} (h : HasAverage durations) :
    ∃ average, Stats.average durations = .ok average := by
  by_cases hnil : durations = []
  · exact ⟨none, hnil ▸ rfl⟩
  · have hfinite : Number.Double.quotient? durations.sum durations.length ≠ none := by
      rw [ne_eq, Number.Double.quotient?_eq_none_iff (List.length_pos_iff.mpr hnil)]
      exact Nat.not_le_of_lt (h hnil)
    obtain ⟨d, hd⟩ := Option.ne_none_iff_exists'.mp hfinite
    exact ⟨some d, by rw [average_eq hnil, hd, Option.elim_some]⟩

/-- There is none where it is too large. -/
theorem average_of_not_hasAverage {durations : List Int} (h : ¬ HasAverage durations) :
    Stats.average durations = .error .quotientTooLarge := by
  obtain ⟨hnil, hlarge⟩ := Classical.not_imp.mp h
  have hnone : Number.Double.quotient? durations.sum durations.length = none :=
    (Number.Double.quotient?_eq_none_iff (List.length_pos_iff.mpr hnil)).mpr (Nat.le_of_not_lt hlarge)
  rw [average_eq hnil, hnone, Option.elim_none]

/-- Failed are the entries whose exit code is not zero. -/
theorem countP_failed (entries : List Entry) :
    entries.countP Entry.failed = (entries.filterMap (·.exitCode)).countP (· ≠ 0) := by
  rw [List.countP_filterMap]
  refine List.countP_congr fun e _ => ?_
  unfold Entry.failed
  cases e.exitCode <;> simp

/-- Of statistics only the average can be missing. -/
theorem ofEntries_eq (entries : List Entry) (total : Option Int) (countFailures : Bool) :
    ofEntries entries total countFailures = (Stats.average (durationsOf entries)).map fun average =>
      { total := total.getD entries.length
        unique := distinctCommands entries
        topCommands := (Tally.ofList (entries.map commandWord)).top 10
        topDirectories := (Tally.ofList (directoriesOf entries)).top 5
        averageDuration := average
        failed := if countFailures then some ((entries.filterMap (·.exitCode)).countP (· ≠ 0))
          else none } := by
  rw [ofEntries, durationsOf, directoriesOf, List.filter_filterMap, List.filter_filterMap,
    ← length_dedupe, ← countP_failed]
  cases Stats.average (entries.filterMap fun e => e.duration.filter (· ≠ 0)) <;> rfl

/-- And then they fail. -/
theorem ofEntries_of_not_hasAverage (h : ¬ HasAverage (durationsOf entries)) :
    ofEntries entries total countFailures = .error .quotientTooLarge := by
  rw [ofEntries_eq, average_of_not_hasAverage h]
  rfl

/-- **Statistics are exact**: the numbers of entries, commands and failures, and the most frequent words and
directories by rank. There are some for all entries but those whose durations have no average that is
finite. -/
theorem ofEntries_describes (entries : List Entry) (total : Option Int) (countFailures : Bool) :
    (HasAverage (durationsOf entries) → ∃ s, ofEntries entries total countFailures = .ok s ∧
      s.Describes entries total countFailures) ∧
    (¬ HasAverage (durationsOf entries) →
      ofEntries entries total countFailures = .error .quotientTooLarge) := by
  refine ⟨fun h => ?_, ofEntries_of_not_hasAverage⟩
  obtain ⟨average, haverage⟩ := average_of_hasAverage h
  rw [ofEntries_eq, haverage]
  refine ⟨_, rfl, ?_⟩
  exact {
    total := rfl
    unique := rfl
    commands := Tally.listsTop_top 10 _
    directories := Tally.listsTop_top 5 _
    failed := rfl }

/-- An entry whose duration is known and beyond the doubles. -/
def longEntry : Entry :=
  { command := "ls", duration := some (10 ^ 400) }

/-- The long duration has no average. -/
theorem not_hasAverage_longEntry : ¬ HasAverage (durationsOf [longEntry]) := by
  refine fun h => absurd (h (by decide)) (Nat.not_lt_of_le ?_)
  decide +kernel

/-- Eleven words, of which two occur twice, and the last of those that occur once is cut off; and an entry
that has no statistics. -/
theorem ofEntries_describes_ties :
    let entries : List Entry :=
      [{ command := "ls -l", cwd := some "/x", duration := some 3 },
        { command := "git pull", cwd := some "/", exitCode := some 1 }, { command := "ls", cwd := some "" },
        { command := "git pull", cwd := some "/x", exitCode := some 0 }]
        ++ ["a", "b", "c", "d", "e", "f", "g", "h", "i"].map fun command => ({ command } : Entry)
    HasAverage (durationsOf entries) ∧
      (∃ s, ofEntries entries none true = .ok s ∧ s.Describes entries none true ∧
        s.total = 13 ∧ s.unique = 12 ∧ s.failed = some 1 ∧ s.topDirectories = [("/x", 2), ("/", 1)] ∧
        s.topCommands = [("ls", 2), ("git", 2), ("a", 1), ("b", 1), ("c", 1), ("d", 1), ("e", 1), ("f", 1),
          ("g", 1), ("h", 1)]) ∧
      ¬ HasAverage (durationsOf [longEntry]) ∧
      ofEntries [longEntry] none true = .error .quotientTooLarge := by
  intro entries
  have haverage : HasAverage (durationsOf entries) := fun _ => by decide +kernel
  have hdirectories : (Tally.ofList (directoriesOf entries)).top 5 = [("/x", 2), ("/", 1)] := by
    rw [Tally.top_of_pairwise (by decide)]
    decide
  -- The tallies are in falling order already, so the ties stand as they were counted.
  have hcommands : (Tally.ofList (entries.map commandWord)).top 10
      = [("ls", 2), ("git", 2), ("a", 1), ("b", 1), ("c", 1), ("d", 1), ("e", 1), ("f", 1), ("g", 1),
        ("h", 1)] := by
    rw [Tally.top_of_pairwise (by decide)]
    decide
  obtain ⟨s, hs, hdescribes⟩ := (ofEntries_describes entries none true).1 haverage
  have hnone := (ofEntries_describes [longEntry] none true).2 not_hasAverage_longEntry
  refine ⟨haverage, ⟨s, hs, hdescribes, hdescribes.total, hdescribes.unique.trans (by decide),
    hdescribes.failed.trans (by decide), ?_⟩, not_hasAverage_longEntry, hnone⟩
  rw [ofEntries_eq] at hs
  obtain ⟨average, -, rfl⟩ := map_ok_iff.mp hs
  exact ⟨hdirectories, hcommands⟩

/-- A duration can be known and be beyond the doubles. -/
theorem no_statistics_of_longEntry :
    ¬ ∃ s, ofEntries [longEntry] none true = .ok s ∧ s.Describes [longEntry] none true := by
  rintro ⟨s, hs, -⟩
  rw [ofEntries_of_not_hasAverage not_hasAverage_longEntry] at hs
  cases hs

end Stats

end ShellAssist.History
