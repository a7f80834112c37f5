import ShellAssist.History.Archive
import ShellAssist.Proofs.FirstOccurrences
import Mathlib.Algebra.GroupWithZero.Nat
import Mathlib.Data.List.Induction
import Mathlib.Data.List.Nodup

namespace ShellAssist.History.Tally

/-!
# Tallies

A tally counts words one after the other, so a word stands in it once, with the sum of its counts. The
most frequent words of a tally are the first so many of a sorted list.

* `words`, `count` — what a tally says of a word;
* `addAll`, `count_addAll` — counting one word after the other;
* `isFirsts_words_ofList` — the words of a list stand in the order in which they occur first;
* `count_top`, `count_le_of_not_mem_top` — which words are among the most frequent.
-/

variable {tally more : Tally} {word other : String} {n k : Nat}

/-- The words that occur. -/
def words (tally : Tally) : List String :=
  tally.map (·.1)

/-- How often a word occurs. -/
def count : Tally → String → Nat
  | [], _ => 0
  | (w, n) :: rest, word => (if w = word then n else 0) + count rest word

@[simp] theorem count_nil (word : String) : count [] word = 0 := rfl

@[simp] theorem count_cons (p : String × Nat) (tally : Tally) (word : String) :
    count (p :: tally) word = (if p.1 = word then p.2 else 0) + count tally word := rfl

/-- Counts of two tallies in a row add up. -/
theorem count_append (tally more : Tally) (word : String) :
    count (tally ++ more) word = count tally word + count more word := by
  induction tally with
  | nil => simp
  | cons p tally ih => rw [List.cons_append, count_cons, count_cons, ih, Nat.add_assoc]

/-- So do those of many. -/
theorem count_flatten (tallies : List Tally) (word : String) :
    count tallies.flatten word = (tallies.map fun tally => count tally word).sum := by
  induction tallies with
  | nil => rfl
  | cons tally tallies ih => rw [List.flatten_cons, count_append, ih, List.map_cons, List.sum_cons]

/-- A word that is not listed counts nothing. -/
theorem count_of_not_mem (h : word ∉ tally.words) : count tally word = 0 := by
  induction tally with
  | nil => rfl
  | cons p tally ih =>
    obtain ⟨hne, hrest⟩ := not_or.mp (mt List.mem_cons.mpr h)
    rw [count_cons, if_neg (Ne.symm hne), ih hrest]

/-- A word that stands in a tally once stands there with its count. -/
theorem mem_iff (h : tally.words.Nodup) :
    (word, n) ∈ tally ↔ word ∈ tally.words ∧ n = count tally word := by
  induction tally with
  | nil => simp [words]
  | cons p tally ih =>
    obtain ⟨hp, hrest⟩ := List.nodup_cons.mp h
    rw [List.mem_cons, ih hrest, count_cons]
    -- The word stands once in a tally, so its first place is the only one that counts.
    by_cases hfirst : p.1 = word
    · subst hfirst
      have hnone : count tally p.1 = 0 := count_of_not_mem hp
      rw [if_pos rfl, hnone, Nat.add_zero, or_iff_left fun h => hp h.1]
      refine ⟨fun heq => ?_, fun ⟨_, heq⟩ => Prod.ext rfl heq⟩
      exact ⟨List.mem_cons_self, congrArg Prod.snd heq⟩
    · rw [if_neg hfirst, Nat.zero_add, or_iff_right fun heq => hfirst (congrArg Prod.fst heq).symm]
      refine and_congr_left fun _ => ?_
      show _ ↔ word ∈ p.1 :: words tally
      rw [List.mem_cons, or_iff_right (Ne.symm hfirst)]

/-! ### Counting -/

/-- Adding a word changes its count and no other. -/
theorem count_add (tally : Tally) (word other : String) (n : Nat) :
    count (add word n tally) other = count tally other + if word = other then n else 0 := by
  induction tally with
  | nil => rw [add, count_cons, count_nil, Nat.add_comm]
  | cons p tally ih =>
    rw [add]
    split
    · rename_i hsame
      rw [count_cons, count_cons, hsame]
      split <;> omega
    · rw [count_cons, count_cons, ih, Nat.add_assoc]

/-- A new word is listed last. -/
theorem words_add (tally : Tally) (word : String) (n : Nat) :
    (add word n tally).words = if word ∈ tally.words then tally.words else tally.words ++ [word] := by
  induction tally with
  | nil => rfl
  | cons p tally ih =>
    rw [add]
    -- A word that is counted already keeps its place, a new one goes to the end.
    by_cases hsame : p.1 = word
    · rw [if_pos hsame, if_pos (hsame ▸ List.mem_cons_self)]
      rfl
    · rw [if_neg hsame]
      have hmem : word ∈ words (p :: tally) ↔ word ∈ words tally :=
        List.mem_cons.trans (or_iff_right (Ne.symm hsame))
      simp only [hmem]
      show p.1 :: words (add word n tally) = _
      rw [ih]
      split <;> rfl

/-- The tally behind counting the words of another with their counts. -/
def addAll (tally more : Tally) : Tally :=
  more.foldl (fun tally p => add p.1 p.2 tally) tally

/-- Counts of a tally that is added add up. -/
theorem count_addAll (tally more : Tally) (word : String) :
    count (addAll tally more) word = count tally word + count more word := by
  induction more generalizing tally with
  | nil => rfl
  | cons p more ih =>
    rw [addAll, List.foldl_cons, ← addAll, ih, count_add, count_cons, Nat.add_assoc]

/-- It lists the words of both. -/
theorem mem_words_addAll :
    word ∈ (addAll tally more).words ↔ word ∈ tally.words ∨ word ∈ more.words := by
  induction more generalizing tally with
  | nil => exact (or_iff_left List.not_mem_nil).symm
  | cons p more ih =>
    have hadd : word ∈ (add p.1 p.2 tally).words ↔ word ∈ tally.words ∨ word = p.1 := by
      rw [words_add]
      split
      · rename_i hp
        exact (or_iff_left_of_imp fun heq => heq ▸ hp).symm
      · rw [List.mem_append, List.mem_singleton]
    rw [addAll, List.foldl_cons, ← addAll, ih, hadd, or_assoc]
    exact or_congr_right List.mem_cons.symm

/-- No word is listed twice at first. -/
theorem nodup_words_nil : (words []).Nodup :=
  List.nodup_nil

/-- A word stands in a tally once. -/
theorem nodup_words_addAll (h : tally.words.Nodup) (more : Tally) : (addAll tally more).words.Nodup := by
  induction more generalizing tally with
  | nil => exact h
  | cons p more ih =>
    rw [addAll, List.foldl_cons, ← addAll]
    refine ih ?_
    rw [words_add]
    split
    · exact h
    · rename_i hp
      exact List.nodup_append.mpr ⟨h, List.nodup_singleton _, fun a ha b hb heq =>
        hp (List.mem_singleton.mp hb ▸ heq ▸ ha)⟩

/-! ### Words of a list -/

/-- The tally of a list counts each of its words once. -/
theorem ofList_eq (list : List String) : ofList list = addAll [] (list.map fun word => (word, 1)) := by
  rw [ofList, addAll, List.foldl_map]

/-- The words of a list are counted in the order in which they occur first. -/
theorem isFirsts_words_ofList (list : List String) : IsFirsts list (ofList list).words := by
  induction list using List.reverseRecOn with
  | nil => exact .nil
  | append_singleton list word ih =>
    have hmem := ih.mem_iff word
    have hadd : ofList (list ++ [word]) = add word 1 (ofList list) := List.foldl_append
    rw [hadd, words_add]
    -- One more word at the end is counted where it stands already, or behind all others.
    by_cases hword : word ∈ list
    · rw [if_pos (hmem.mpr hword)]
      exact ih.concat_old hword
    · rw [if_neg (mt hmem.mp hword)]
      exact ih.concat_new hword

/-- It lists no word twice. -/
theorem nodup_words_ofList (list : List String) : (ofList list).words.Nodup :=
  (isFirsts_words_ofList list).nodup

/-- It lists just the words of the list. -/
theorem mem_words_ofList {list : List String} : word ∈ (ofList list).words ↔ word ∈ list :=
  (isFirsts_words_ofList list).mem_iff word

/-- It counts how often each is there. -/
theorem count_ofList (list : List String) (word : String) : count (ofList list) word = list.count word := by
  rw [ofList_eq, count_addAll, count_nil, Nat.zero_add]
  induction list with
  | nil => rfl
  | cons w list ih =>
    rw [List.map_cons, count_cons, ih, List.count_cons, Nat.add_comm]
    simp only [beq_iff_eq]

/-! ### The most frequent -/

section Top

/-- More frequent words first. -/
theorem pairwise_mergeSort (tally : Tally) :
    (tally.mergeSort fun p q => q.2 ≤ p.2).Pairwise fun p q => q.2 ≤ p.2 := by
  refine (List.pairwise_mergeSort ?_ ?_ tally).imp of_decide_eq_true
  · intro p q r hpq hqr
    exact decide_eq_true (Nat.le_trans (of_decide_eq_true hqr) (of_decide_eq_true hpq))
  · intro p q
    rw [Bool.or_eq_true, decide_eq_true_iff, decide_eq_true_iff]
    exact Nat.le_total _ _

/-- The top of a tally goes by counts. -/
theorem pairwise_top (n : Nat) (tally : Tally) : (top n tally).Pairwise fun p q => q.2 ≤ p.2 :=
  (pairwise_mergeSort tally).sublist (List.take_sublist _ _)

/-- It is as long as is asked for, if there are so many words. -/
theorem length_top (n : Nat) (tally : Tally) : (top n tally).length = min n tally.length := by
  rw [top, List.length_take, List.length_mergeSort]

/-- A tally with the more frequent words first is not sorted anew. -/
theorem top_of_pairwise (h : tally.Pairwise fun p q => q.2 ≤ p.2) : top n tally = tally.take n := by
  rw [top, List.mergeSort_of_pairwise (h.imp decide_eq_true)]

/-- Of a few words all are among the most frequent. -/
theorem mem_words_top_of_length_le (h : tally.length ≤ n) :
    word ∈ words (top n tally) ↔ word ∈ tally.words := by
  rw [top, List.take_of_length_le (by rwa [List.length_mergeSort])]
  exact ((List.mergeSort_perm tally _).map _).mem_iff

/-- It is part of the tally. -/
theorem mem_of_mem_top {p : String × Nat} (h : p ∈ top n tally) : p ∈ tally :=
  List.mem_mergeSort.mp (List.mem_of_mem_take h)

/-- No word that is left out counts more than one that is not. -/
theorem le_of_not_mem_top {p q : String × Nat} (hp : p ∈ tally) (hnot : p ∉ top n tally)
    (hq : q ∈ top n tally) : p.2 ≤ q.2 := by
  have hsorted := pairwise_mergeSort tally
  rw [← List.take_append_drop n (tally.mergeSort _), List.pairwise_append] at hsorted
  rw [← List.mem_mergeSort, ← List.take_append_drop n (tally.mergeSort _), List.mem_append] at hp
  exact hsorted.2.2 q hq p (hp.resolve_left hnot)

/-- It lists no word twice if the tally does not. -/
theorem nodup_words_top (h : tally.words.Nodup) (n : Nat) : (words (top n tally)).Nodup := by
  have hsorted : (words (tally.mergeSort fun p q => q.2 ≤ p.2)).Nodup :=
    ((List.mergeSort_perm tally _).map _).nodup_iff.mpr h
  exact hsorted.sublist ((List.take_sublist _ _).map _)

/-- The most frequent words have the counts that they have in the tally. -/
theorem count_top (h : tally.words.Nodup) (n : Nat) (word : String) :
    count (top n tally) word = if word ∈ words (top n tally) then count tally word else 0 := by
  split
  · rename_i hword
    have hpair := (mem_iff (nodup_words_top h n)).mpr ⟨hword, rfl⟩
    exact ((mem_iff h).mp (mem_of_mem_top hpair)).2
  · rename_i hword
    exact count_of_not_mem hword

/-- No word that is left out is more frequent. -/
theorem count_le_of_not_mem_top (h : tally.words.Nodup) (hother : other ∉ words (top n tally))
    (hword : (word, k) ∈ top n tally) : count tally other ≤ k := by
  by_cases hoccurs : other ∈ tally.words
  · have hpair := (mem_iff h).mpr ⟨hoccurs, rfl⟩
    refine le_of_not_mem_top hpair (fun hmem => hother ?_) hword
    exact List.mem_map_of_mem hmem
  · rw [count_of_not_mem hoccurs]
    exact Nat.zero_le k

end Top

/-- A tally can be told from its JSON objects. -/
theorem toJson_injective (label : String) {tally more : Tally}
    (h : tally.toJson label = more.toJson label) : tally = more := by
  refine List.map_injective_iff.mpr (fun p q hpq => ?_) (Json.arr.inj h)
  simp only [Json.obj.injEq, List.cons.injEq, Prod.mk.injEq, Json.str.injEq, Json.int.injEq, true_and,
    and_true] at hpq
  exact Prod.ext hpq.1 (Int.ofNat.inj hpq.2)

end ShellAssist.History.Tally
