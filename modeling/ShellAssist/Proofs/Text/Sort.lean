import ShellAssist.Proofs.Sorting
import ShellAssist.Text.Basic
import Mathlib.Data.List.Nodup
import Mathlib.Data.String.Basic

namespace ShellAssist.Text

/-!
# Texts in order

Texts are sorted by their code points, and things by texts that they have.

* `le_iff` — the order is the one of strings;
* `isStableSort_by` — things are sorted stably by a text of theirs;
* `sort_distinct_ascending` — texts without repeats stand in strict order;
* `filter_sort`, `filter_distinct` — texts may be left out before a list is put in order and freed
  of repeats, or after.
-/

variable {α : Type}

/-- The computed order is that of texts. -/
theorem le_iff (a b : String) : le a b = true ↔ a ≤ b := by
  rw [le, Chars.le, Bool.not_eq_true', decide_eq_false_iff_not]
  rfl

/-- Sorting by a text goes by a total order. -/
theorem ordersList_by (key : α → String) (xs : List α) :
    OrdersList (fun a b => key a ≤ key b) xs :=
  .of_key key fun _ _ _ _ => Iff.rfl

/-- Sorting by a text is a stable sort. -/
theorem isStableSort_by (key : α → String) (xs : List α) :
    IsStableSort (fun a b => key a ≤ key b) xs (xs.mergeSort fun a b => le (key a) (key b)) :=
  isStableSort_mergeSort (ordersList_by key xs) fun a _ b _ => le_iff (key a) (key b)

/-- No text is kept twice. -/
theorem distinct_nodup (texts : List String) : (distinct texts).Nodup := by
  suffices h : ∀ seen : List String, seen.Nodup →
      (texts.foldl (fun seen t => if seen.contains t then seen else seen ++ [t]) seen).Nodup from
    h [] List.nodup_nil
  -- Over the texts seen so far, which stay distinct by what is tested.
  induction texts with
  | nil => exact fun _ h => h
  | cons t rest ih =>
    intro seen hseen
    rw [List.foldl_cons]
    refine ih _ ?_
    split
    · exact hseen
    · rename_i hnew
      exact List.Nodup.append hseen (List.nodup_singleton t)
        (List.disjoint_singleton.mpr fun hmem => hnew (List.contains_iff_mem.mpr hmem))

/-- Without repeats the order is strict. -/
theorem sort_distinct_ascending (texts : List String) :
    (sort (distinct texts)).Pairwise (· < ·) := by
  have hsort := isStableSort_by id (distinct texts)
  have hnodup : (sort (distinct texts)).Nodup := hsort.perm.nodup_iff.mpr (distinct_nodup texts)
  exact (hsort.sorted.and hnodup).imp fun hab => lt_of_le_of_ne hab.1 hab.2

/-- Texts may be left out before or after they are sorted. -/
theorem filter_sort (p : String → Bool) (texts : List String) :
    (sort texts).filter p = sort (texts.filter p) :=
  ((isStableSort_by id texts).filter p).unique (isStableSort_by id (texts.filter p))
    (ordersList_by id (texts.filter p))

/-- They may be left out before or after repeated ones are. -/
theorem filter_distinct (p : String → Bool) (texts : List String) :
    (distinct texts).filter p = distinct (texts.filter p) := by
  -- The texts kept so far are looked up among those that are left only.
  suffices h : ∀ seen : List String,
      (texts.foldl (fun seen t => if seen.contains t then seen else seen ++ [t]) seen).filter p
        = (texts.filter p).foldl (fun seen t => if seen.contains t then seen else seen ++ [t])
            (seen.filter p) from h []
  induction texts with
  | nil => exact fun _ => rfl
  | cons t rest ih =>
    intro seen
    rw [List.foldl_cons, ih]
    by_cases ht : p t = true
    · rw [List.filter_cons_of_pos ht, List.foldl_cons]
      congr 1
      by_cases hseen : t ∈ seen
      · simp [hseen, ht]
      · simp [hseen, ht, List.filter_append]
    · rw [List.filter_cons_of_neg ht]
      congr 1
      split
      · rfl
      · simp [List.filter_append, ht]

end ShellAssist.Text
