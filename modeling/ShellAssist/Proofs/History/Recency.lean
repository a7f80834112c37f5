import ShellAssist.Proofs.History.Truncation
import ShellAssist.Proofs.Sorting
import Mathlib.Data.Prod.Lex

namespace ShellAssist.History

/-!
# Merging keeps the newest of everything

An entry of several logs has a place: the log it is in and its position there. Merging puts the entries in
the order of their ranks, first by how recent they are and then by place, and deduplication leaves of
each command the one that comes first.

* `recencyKey`, `Occurrence.rank` — the order of entries, and the order of their occurrences;
* `map_sortedOccurrences` — merged entries stand in the order of their ranks;
* `exists_dedupeFrom` — which occurrences deduplication leaves;
* `merge_isMerge` — what a merged history holds, and that merging it again changes nothing.
-/

/-! ### Recency -/

/-- The sort key of an entry: newest first, and entries without a timestamp last. -/
def recencyKey (e : Entry) : Bool ×ₗ Int :=
  match e.timestamp with
  | none => toLex (true, 0)
  | some t => toLex (false, -t)

/-- The computed order is that of the keys. -/
theorem noOlder_iff {a b : Entry} : noOlder a b = true ↔ recencyKey a ≤ recencyKey b := by
  unfold noOlder recencyKey
  cases a.timestamp with
  | none => cases b.timestamp <;> simp [Prod.Lex.toLex_le_toLex]
  | some s => cases b.timestamp <;> simp [Prod.Lex.toLex_le_toLex]

/-- It orders all entries. -/
theorem ordersList_noOlder (entries : List Entry) :
    OrdersList (fun a b => noOlder a b = true) entries :=
  .of_key recencyKey fun _ _ _ _ => noOlder_iff

/-! ### Occurrences -/

/-- An entry at its place in several logs. -/
structure Occurrence where
  /-- The number of the log. -/
  log : Nat
  /-- The position in the log. -/
  index : Nat
  entry : Entry

namespace Occurrence

/-- The occurrence is one in these logs. -/
def In (logs : List (List Entry)) (o : Occurrence) : Prop :=
  ∃ log, logs[o.log]? = some log ∧ log[o.index]? = some o.entry

/-- The place by which occurrences are told apart. -/
def place (o : Occurrence) : Nat ×ₗ Nat :=
  toLex (o.log, o.index)

/-- Occurrences are ranked by recency, then by log, then by position. -/
def rank (o : Occurrence) : (Bool ×ₗ Int) ×ₗ (Nat ×ₗ Nat) :=
  toLex (recencyKey o.entry, o.place)

/-- No occurrence of the same command is ranked before this one. -/
def IsFirst (logs : List (List Entry)) (o : Occurrence) : Prop :=
  ∀ o' : Occurrence, o'.In logs → o'.entry.command = o.entry.command → o.rank ≤ o'.rank

variable {o o' : Occurrence}

/-- A lower key and an earlier place make a lower rank. -/
theorem rank_le (hkey : recencyKey o.entry ≤ recencyKey o'.entry) (hplace : o.place ≤ o'.place) :
    o.rank ≤ o'.rank := by
  rw [rank, rank, Prod.Lex.toLex_le_toLex]
  rcases hkey.lt_or_eq with hnewer | hsame
  · exact .inl hnewer
  · exact .inr ⟨hsame, hplace⟩

/-- A lower rank means no higher key. -/
theorem recencyKey_le (h : o.rank ≤ o'.rank) : recencyKey o.entry ≤ recencyKey o'.entry := by
  rw [rank, rank, Prod.Lex.toLex_le_toLex] at h
  rcases h with hnewer | ⟨hsame, -⟩
  · exact hnewer.le
  · exact hsame.le

/-- Occurrences of one rank are at one place. -/
theorem place_eq (h : o.rank = o'.rank) : o.place = o'.place :=
  congrArg (fun rank => (ofLex rank).2) h

end Occurrence

/-- The occurrences in several logs, in the order of their places. -/
def occurrences (logs : List (List Entry)) : List Occurrence :=
  logs.zipIdx.flatMap fun (log, i) => log.zipIdx.map fun (e, j) => ⟨i, j, e⟩

/-- Numbers that are given along a list go up. -/
theorem pairwise_zipIdx {α : Type} (xs : List α) :
    xs.zipIdx.Pairwise fun a b => a.2 < b.2 := by
  rw [List.pairwise_iff_getElem]
  intro i j hi hj hlt
  simpa [List.getElem_zipIdx] using hlt

/-- The occurrences are those of the logs. -/
theorem mem_occurrences {logs : List (List Entry)} {o : Occurrence} :
    o ∈ occurrences logs ↔ o.In logs := by
  unfold occurrences Occurrence.In
  simp only [List.mem_flatMap, List.mem_map, Prod.exists, List.mk_mem_zipIdx_iff_getElem?]
  constructor
  · rintro ⟨log, i, hlog, e, j, he, rfl⟩
    exact ⟨log, hlog, he⟩
  · rintro ⟨log, hlog, he⟩
    exact ⟨log, o.log, hlog, o.entry, o.index, he, rfl⟩

/-- They hold the entries of the logs, one log behind the other. -/
theorem map_entry_occurrences (logs : List (List Entry)) :
    (occurrences logs).map (·.entry) = logs.flatten := by
  have hlog (log : List Entry) (i : Nat) :
      (log.zipIdx.map fun (e, j) => (⟨i, j, e⟩ : Occurrence)).map (·.entry) = log := by
    rw [List.map_map]
    exact List.zipIdx_map_fst 0 log
  simp only [occurrences, List.map_flatMap, hlog]
  rw [List.flatMap_def]
  exact congrArg List.flatten (List.zipIdx_map_fst 0 logs)

/-- They are listed by their places. -/
theorem occurrences_ascending (logs : List (List Entry)) :
    (occurrences logs).Pairwise fun a b => a.place < b.place := by
  rw [occurrences, List.pairwise_flatMap]
  constructor
  · intro log _
    rw [List.pairwise_map]
    refine (pairwise_zipIdx log.1).imp fun {a b} h => ?_
    exact Prod.Lex.toLex_lt_toLex.mpr (.inr ⟨rfl, h⟩)
  · refine (pairwise_zipIdx logs).imp fun {a b} h o ho o' ho' => ?_
    obtain ⟨_, -, rfl⟩ := List.mem_map.mp ho
    obtain ⟨_, -, rfl⟩ := List.mem_map.mp ho'
    exact Prod.Lex.toLex_lt_toLex.mpr (.inl h)

/-! ### In the order of their ranks -/

/-- The occurrences in several logs, in the order of their ranks. -/
def sortedOccurrences (logs : List (List Entry)) : List Occurrence :=
  (occurrences logs).mergeSort fun a b => decide (a.rank ≤ b.rank)

section Sorted

variable (logs : List (List Entry))

/-- Sorted by rank, those of one key stay in order. -/
theorem isStableSort_sortedOccurrences :
    IsStableSort (fun a b : Occurrence => a.rank ≤ b.rank) (occurrences logs)
      (sortedOccurrences logs) :=
  isStableSort_mergeSort (.of_key Occurrence.rank fun _ _ _ _ => Iff.rfl)
    fun _ _ _ _ => decide_eq_true_iff

/-- No occurrence is lost by that. -/
theorem mem_sortedOccurrences {o : Occurrence} : o ∈ sortedOccurrences logs ↔ o.In logs :=
  (isStableSort_sortedOccurrences logs).mem_iff.trans mem_occurrences

/-- No two occurrences have the same rank. -/
theorem sortedOccurrences_ascending :
    (sortedOccurrences logs).Pairwise fun a b => a.rank < b.rank := by
  have hsort := isStableSort_sortedOccurrences logs
  have hplaces : (sortedOccurrences logs).Pairwise fun a b => a.place ≠ b.place := by
    refine (hsort.perm.pairwise_iff fun h => h.symm).mpr ?_
    exact (occurrences_ascending logs).imp fun h => h.ne
  refine (hsort.sorted.and hplaces).imp fun h => lt_of_le_of_ne h.1 fun heq => ?_
  exact h.2 (Occurrence.place_eq heq)

/-- **Merged entries stand in the order of their ranks.** Entries that are equally recent stand as they
stood, log by log, and that is the order of their places. -/
theorem map_sortedOccurrences :
    (sortedOccurrences logs).map (·.entry) = logs.flatten.mergeSort noOlder := by
  have hsort := isStableSort_sortedOccurrences logs
  have hstable : IsStableSort (fun a b => noOlder a b = true) logs.flatten
      ((sortedOccurrences logs).map (·.entry)) := by
    refine ⟨?_, ?_, fun entries hentries hsorted => ?_⟩
    · rw [← map_entry_occurrences]
      exact hsort.perm.map _
    · rw [List.pairwise_map]
      exact hsort.sorted.imp fun h => noOlder_iff.mpr (Occurrence.recencyKey_le h)
    · rw [← map_entry_occurrences] at hentries
      obtain ⟨those, hthose, rfl⟩ := List.sublist_map_iff.mp hentries
      rw [List.pairwise_map] at hsorted
      have hplaces := (occurrences_ascending logs).sublist hthose
      refine (hsort.stable those hthose ?_).map _
      exact (hsorted.and hplaces).imp fun h =>
        Occurrence.rank_le (noOlder_iff.mp h.1) h.2.le
  -- Two stable sorts of one list agree: by time alone and by time and place.
  exact hstable.unique
    (isStableSort_mergeSort (ordersList_noOlder logs.flatten) fun _ _ _ _ => Iff.rfl)
    (ordersList_noOlder logs.flatten)

end Sorted

/-! ### The first of each command -/

/-- Of occurrences in the order of their ranks, deduplication leaves those before which none of the same
command stands, unless the command has been seen. -/
theorem exists_dedupeFrom {order : List Occurrence}
    (hsorted : order.Pairwise fun a b => a.rank < b.rank) (seen : List String) :
    ∃ kept : List Occurrence, kept.Sublist order ∧
      dedupeFrom seen (order.map (·.entry)) = kept.map (·.entry) ∧
      ∀ o, o ∈ kept ↔ o ∈ order ∧ o.entry.command ∉ seen ∧
        ∀ o' ∈ order, o'.entry.command = o.entry.command → o.rank ≤ o'.rank := by
  induction order generalizing seen with
  | nil => exact ⟨[], List.Sublist.refl _, rfl, by simp⟩
  | cons first order ih =>
    obtain ⟨hfirst, hsorted⟩ := List.pairwise_cons.mp hsorted
    simp only [List.map_cons, dedupeFrom, List.mem_cons]
    by_cases hseen : first.entry.command ∈ seen
    · -- Neither the first occurrence nor another one of its command is left.
      obtain ⟨kept, hsub, hdedupe, hmem⟩ := ih hsorted seen
      refine ⟨kept, hsub.cons first, ?_, fun o => ?_⟩
      · rw [if_pos (List.contains_iff_mem.mpr hseen), hdedupe]
      rw [hmem]
      constructor
      · rintro ⟨ho, hnew, hleast⟩
        refine ⟨.inr ho, hnew, ?_⟩
        rintro o' (rfl | ho') hsame
        · exact absurd (hsame ▸ hseen) hnew
        · exact hleast o' ho' hsame
      · rintro ⟨rfl | ho, hnew, hleast⟩
        · exact absurd hseen hnew
        · exact ⟨ho, hnew, fun o' ho' => hleast o' (.inr ho')⟩
    · obtain ⟨kept, hsub, hdedupe, hmem⟩ := ih hsorted (first.entry.command :: seen)
      refine ⟨first :: kept, hsub.cons_cons first, ?_, fun o => ?_⟩
      · rw [if_neg fun h => hseen (List.contains_iff_mem.mp h), hdedupe, List.map_cons]
      rw [List.mem_cons, hmem, List.mem_cons, not_or]
      constructor
      · rintro (rfl | ⟨ho, ⟨hother, hnew⟩, hleast⟩)
        · refine ⟨.inl rfl, hseen, ?_⟩
          rintro o' (rfl | ho') -
          · exact le_rfl
          · exact (hfirst o' ho').le
        · refine ⟨.inr ho, hnew, ?_⟩
          rintro o' (rfl | ho') hsame
          · exact absurd hsame.symm hother
          · exact hleast o' ho' hsame
      · rintro ⟨rfl | ho, hnew, hleast⟩
        · exact .inl rfl
        · refine .inr ⟨ho, ⟨fun hsame => ?_, hnew⟩, fun o' ho' => hleast o' (.inr ho')⟩
          exact (hfirst o ho).not_ge (hleast first (.inl rfl) hsame.symm)

/-! ### Merged histories -/

/-- The entries are those of the logs, or the first of each command, in the order of their ranks. -/
structure IsMerge (logs : List (List Entry)) (deduplicate : Bool) (merged : List Entry) : Prop where
  /-- Newest first, and entries without a timestamp last. -/
  sorted : merged.Pairwise fun a b => recencyKey a ≤ recencyKey b
  /-- Which occurrences are left, and in which order. -/
  places : ∃ kept : List Occurrence, merged = kept.map (·.entry) ∧
    kept.Pairwise (fun a b => a.rank < b.rank) ∧
    ∀ o, o ∈ kept ↔ o.In logs ∧ (deduplicate = true → o.IsFirst logs)
  /-- Without deduplication nothing is lost. -/
  perm : deduplicate = false → merged.Perm logs.flatten
  /-- With it every command is left once. -/
  commands : deduplicate = true → (merged.map (·.command)).Nodup ∧
    ∀ c, c ∈ merged.map (·.command) ↔ c ∈ logs.flatten.map (·.command)

/-- What is kept of the sorted entries is a merge of the logs. -/
theorem isMerge_kept (logs : List (List Entry)) (deduplicate : Bool) :
    IsMerge logs deduplicate (kept deduplicate (logs.flatten.mergeSort noOlder)) := by
  have hperm : (logs.flatten.mergeSort noOlder).Perm logs.flatten := List.mergeSort_perm _ _
  have hsorted : (logs.flatten.mergeSort noOlder).Pairwise
      fun a b => recencyKey a ≤ recencyKey b :=
    (List.pairwise_mergeSort noOlder_trans noOlder_total _).imp noOlder_iff.mp
  -- Without deduplication every occurrence is kept, with it the first of each command.
  cases deduplicate with
  | false =>
    refine ⟨hsorted, ⟨sortedOccurrences logs, (map_sortedOccurrences logs).symm,
      sortedOccurrences_ascending logs, fun o => ?_⟩, fun _ => hperm, nofun⟩
    simp [mem_sortedOccurrences]
  | true =>
    obtain ⟨left, hsub, hdedupe, hmem⟩ :=
      exists_dedupeFrom (sortedOccurrences_ascending logs) []
    rw [map_sortedOccurrences] at hdedupe
    have hkept : kept true (logs.flatten.mergeSort noOlder) = left.map (·.entry) := hdedupe
    have hentries : (left.map (·.entry)).Sublist (logs.flatten.mergeSort noOlder) :=
      map_sortedOccurrences logs ▸ hsub.map _
    refine ⟨?_, ⟨left, hkept, (sortedOccurrences_ascending logs).sublist hsub, fun o => ?_⟩,
      nofun, fun _ => ⟨dedupeFrom_commands_nodup [] _, fun c => ?_⟩⟩
    · rw [hkept]
      exact hsorted.sublist hentries
    · simp [hmem, mem_sortedOccurrences, Occurrence.IsFirst]
    · exact mem_dedupe_commands.trans (hperm.map _).mem_iff

/-- Cutting to the same length again changes nothing. -/
theorem cut_cut (limit : Option Nat) (entries : List Entry) :
    cut (limit.map Int.ofNat) (cut (limit.map Int.ofNat) entries)
      = cut (limit.map Int.ofNat) entries := by
  rcases limit with _ | _ | n
  · rfl
  · rfl
  · show cut (some ((n + 1 : Nat) : Int)) (cut (some ((n + 1 : Nat) : Int)) entries) = _
    rw [cut_eq_take n.succ_pos, cut_eq_take n.succ_pos, List.take_take, Nat.min_self]
    exact (cut_eq_take n.succ_pos entries).symm

/-- A limit only leaves entries out. -/
theorem cut_sublist (limit : Option Nat) (entries : List Entry) :
    (cut (limit.map Int.ofNat) entries).Sublist entries := by
  rcases limit with _ | _ | n
  · exact List.Sublist.refl _
  · exact List.Sublist.refl _
  · show (cut (some ((n + 1 : Nat) : Int)) entries).Sublist entries
    rw [cut_eq_take n.succ_pos]
    exact List.take_sublist _ _

/-- Merging again what has been merged changes nothing. -/
theorem merge_merge (logs : List (List Entry)) (deduplicate : Bool) (limit : Option Nat) :
    merge [merge logs deduplicate (limit.map Int.ofNat)] deduplicate (limit.map Int.ofNat)
      = merge logs deduplicate (limit.map Int.ofNat) := by
  have hmerge := isMerge_kept logs deduplicate
  have hsub := cut_sublist limit (kept deduplicate (logs.flatten.mergeSort noOlder))
  have hsorted := (hmerge.sorted.sublist hsub).imp noOlder_iff.mpr
  have hnodup (hyes : deduplicate = true) := (hmerge.commands hyes).1.sublist (hsub.map _)
  rw [merge_eq logs, merge_eq, List.flatten_singleton, List.mergeSort_of_pairwise hsorted,
    kept_eq_self hnodup, cut_cut]

/-- **Merging keeps the newest of everything.** The entries stand newest first, those without a timestamp
last, and where that does not decide in the order of the logs and of their places in them. Without
deduplication they are all entries of the logs; with it they are of each command the one that comes first
in this order. No limit and a limit of zero are the same, any other cuts off what is behind so many
entries, and merging what has been merged gives it back. -/
theorem merge_isMerge (logs : List (List Entry)) (deduplicate : Bool) :
    IsMerge logs deduplicate (merge logs deduplicate none) ∧
      merge logs deduplicate (some 0) = merge logs deduplicate none ∧
      (∀ n : Nat, merge logs deduplicate (some ((n + 1 : Nat) : Int))
        = (merge logs deduplicate none).take (n + 1)) ∧
      ∀ limit : Option Nat,
        merge [merge logs deduplicate (limit.map Int.ofNat)] deduplicate (limit.map Int.ofNat)
          = merge logs deduplicate (limit.map Int.ofNat) := by
  refine ⟨isMerge_kept logs deduplicate, rfl, fun n => ?_, merge_merge logs deduplicate⟩
  rw [merge_eq, cut_eq_take n.succ_pos]
  rfl

end ShellAssist.History
