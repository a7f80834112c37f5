import Mathlib.Data.List.Nodup

namespace ShellAssist

/-!
# First occurrences

A list of all that occurs in another, each once, in the order in which it occurs there first.

* `IsFirsts` — the second list has the first occurrences of the first;
* `IsFirsts.concat_old`, `IsFirsts.concat_new` — one more element behind the first list.
-/

variable {α : Type} [DecidableEq α] {xs ys : List α} {x : α}

/-- The second list has what occurs in the first, in the order of the first occurrences. -/
structure IsFirsts (xs ys : List α) : Prop where
  mem_iff : ∀ x, x ∈ ys ↔ x ∈ xs
  ordered : ys.Pairwise fun x y => xs.idxOf x < xs.idxOf y

namespace IsFirsts

theorem nil : IsFirsts ([] : List α) [] :=
  ⟨fun _ => Iff.rfl, .nil⟩

/-- Each element stands in the list once. -/
theorem nodup (h : IsFirsts xs ys) : ys.Nodup :=
  h.ordered.imp fun hlt heq => Nat.ne_of_lt hlt (congrArg xs.idxOf heq)

theorem eq_nil_iff (h : IsFirsts xs ys) : ys = [] ↔ xs = [] := by
  rw [List.eq_nil_iff_forall_not_mem, List.eq_nil_iff_forall_not_mem]
  exact forall_congr' fun x => not_congr (h.mem_iff x)

/-- Behind a list nothing changes what occurs first in it. -/
theorem ordered_append (h : IsFirsts xs ys) (more : List α) :
    ys.Pairwise fun x y => (xs ++ more).idxOf x < (xs ++ more).idxOf y := by
  refine h.ordered.imp_of_mem fun hx hy hlt => ?_
  rwa [List.idxOf_append_of_mem ((h.mem_iff _).mp hx), List.idxOf_append_of_mem ((h.mem_iff _).mp hy)]

theorem concat_old (h : IsFirsts xs ys) (hx : x ∈ xs) : IsFirsts (xs ++ [x]) ys where
  mem_iff y := by
    rw [h.mem_iff, List.mem_append, List.mem_singleton, or_iff_left_of_imp fun heq => heq ▸ hx]
  ordered := h.ordered_append [x]

theorem concat_new (h : IsFirsts xs ys) (hx : x ∉ xs) : IsFirsts (xs ++ [x]) (ys ++ [x]) where
  mem_iff y := by rw [List.mem_append, List.mem_append, h.mem_iff]
  ordered := by
    refine List.pairwise_append.mpr ⟨h.ordered_append [x], List.pairwise_singleton _ _, ?_⟩
    intro y hy z hz
    have hy := (h.mem_iff y).mp hy
    rw [List.mem_singleton.mp hz, List.idxOf_append_of_mem hy, List.idxOf_append_of_notMem hx]
    exact Nat.lt_add_right _ (List.idxOf_lt_length_of_mem hy)

end IsFirsts

end ShellAssist
