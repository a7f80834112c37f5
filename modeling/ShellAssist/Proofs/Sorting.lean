import Mathlib.Data.List.Perm.Basic
import Mathlib.Data.List.Perm.Subperm
import Mathlib.Order.Lattice

namespace ShellAssist

/-!
# Stable sorting

A list is sorted stably if its elements are put in order and those that were in order before stay as
they stand: of two that may stand either way, the first comes first.

* `IsStableSort` — a list is another one, sorted stably;
* `isStableSort_mergeSort` — sorting by merging is stable;
* `IsStableSort.unique` — there is only one way to sort stably;
* `IsStableSort.pairwise_tied` — elements that tie are related as they were before;
* `IsStableSort.filter` — what is not wanted can be left out before or after;
* `IsStableSort.append_of_before` — what belongs in front of all else is sorted for itself.
-/

variable {α : Type} {before : α → α → Prop} {xs ys zs : List α}

/-- The second list is the first one, sorted stably. -/
structure IsStableSort (before : α → α → Prop) (xs ys : List α) : Prop where
  perm : ys.Perm xs
  sorted : ys.Pairwise before
  /-- Elements that are in order stay as they stand. -/
  stable : ∀ zs : List α, zs.Sublist xs → zs.Pairwise before → zs.Sublist ys

/-- Of any two elements of a list one may stand before the other, and elements of it that may stand
one before the other may do so through a third. -/
structure OrdersList (before : α → α → Prop) (xs : List α) : Prop where
  trans : ∀ a ∈ xs, ∀ b ∈ xs, ∀ c ∈ xs, before a b → before b c → before a c
  total : ∀ a ∈ xs, ∀ b ∈ xs, before a b ∨ before b a

/-- Elements that are compared by keys of a linear order are ordered. -/
theorem OrdersList.of_key {κ : Type} [LinearOrder κ] (key : α → κ)
    (h : ∀ a ∈ xs, ∀ b ∈ xs, before a b ↔ key a ≤ key b) : OrdersList before xs where
  trans a ha b hb c hc hab hbc :=
    (h a ha c hc).mpr (le_trans ((h a ha b hb).mp hab) ((h b hb c hc).mp hbc))
  total a ha b hb := (le_total (key a) (key b)).imp (h a ha b hb).mpr (h b hb a ha).mpr

/-- **Sorting by merging is stable.** The order need only be one on the elements of the list. -/
theorem isStableSort_mergeSort {le : α → α → Bool} (horders : OrdersList before xs)
    (hle : ∀ a ∈ xs, ∀ b ∈ xs, le a b = true ↔ before a b) :
    IsStableSort before xs (xs.mergeSort le) := by
  -- On the elements of the list alone, the order is one on all there are.
  let le' (a b : {a // a ∈ xs}) : Bool := le a b
  have hbefore (a b : {a // a ∈ xs}) : le' a b = true ↔ before a b := hle a a.2 b b.2
  have htrans (a b c : {a // a ∈ xs}) (hab : le' a b = true) (hbc : le' b c = true) :
      le' a c = true := by
    rw [hbefore] at hab hbc ⊢
    exact horders.trans a a.2 b b.2 c c.2 hab hbc
  have htotal (a b : {a // a ∈ xs}) : (le' a b || le' b a) = true := by
    rw [Bool.or_eq_true, hbefore, hbefore]
    exact horders.total a a.2 b b.2
  have hsort : (xs.attach.mergeSort le').map Subtype.val = xs.mergeSort le := by
    rw [List.map_mergeSort (s := le) (f := Subtype.val) fun _ _ _ _ => rfl,
      List.attach_map_subtype_val]
  rw [← hsort]
  refine ⟨?_, ?_, ?_⟩
  · rw [hsort]
    exact List.mergeSort_perm xs le
  · rw [List.pairwise_map]
    exact (List.pairwise_mergeSort htrans htotal xs.attach).imp fun h => (hbefore _ _).mp h
  · intro zs hsub hsorted
    rw [← List.attach_map_subtype_val xs] at hsub
    obtain ⟨those, hthose, rfl⟩ := List.sublist_map_iff.mp hsub
    rw [List.pairwise_map] at hsorted
    have hinOrder := hsorted.imp fun h => (hbefore _ _).mpr h
    exact (List.sublist_mergeSort htrans htotal hinOrder hthose).map _

namespace IsStableSort

theorem mem_iff (h : IsStableSort before xs ys) {a : α} : a ∈ ys ↔ a ∈ xs :=
  h.perm.mem_iff

theorem length_eq (h : IsStableSort before xs ys) : ys.length = xs.length :=
  h.perm.length_eq

/-- Elements may be left out before sorting or after. -/
theorem filter (h : IsStableSort before xs ys) (p : α → Bool) :
    IsStableSort before (xs.filter p) (ys.filter p) := by
  refine ⟨h.perm.filter p, h.sorted.filter p, ?_⟩
  intro zs hzs hsorted
  have hkept : zs.filter p = zs :=
    List.filter_eq_self.mpr fun a ha => (List.mem_filter.mp (hzs.subset ha)).2
  rw [← hkept]
  exact (h.stable zs (hzs.trans List.filter_sublist) hsorted).filter p

/-- What belongs in front of all else, and is in order already, is put there as it stands. -/
theorem append_of_before (h : IsStableSort before xs zs) (hsorted : ys.Pairwise before)
    (hfirst : ∀ y ∈ ys, ∀ x ∈ xs, before y x ∧ ¬ before x y) :
    IsStableSort before (xs ++ ys) (ys ++ zs) := by
  refine ⟨?_, ?_, ?_⟩
  · exact (h.perm.append_left ys).trans List.perm_append_comm
  · refine List.pairwise_append.mpr ⟨hsorted, h.sorted, fun y hy z hz => ?_⟩
    exact (hfirst y hy z (h.mem_iff.mp hz)).1
  · intro cs hcs hinOrder
    obtain ⟨those, these, rfl, hthose, hthese⟩ := List.sublist_append_iff.mp hcs
    -- Elements of both lists cannot be in order, so they are all of one.
    cases those with
    | nil => exact hthese.trans (List.sublist_append_left ys zs)
    | cons x those =>
      cases these with
      | nil =>
        rw [List.append_nil] at hinOrder ⊢
        exact (h.stable _ hthose hinOrder).trans (List.sublist_append_right ys zs)
      | cons y these =>
        have hxy : before x y :=
          (List.pairwise_append.mp hinOrder).2.2 x List.mem_cons_self y List.mem_cons_self
        have hx := hthose.subset List.mem_cons_self
        have hy := hthese.subset List.mem_cons_self
        exact absurd hxy (hfirst y hy x hx).2

/-! ### There is one stable order -/

section Unique

open scoped Classical

/-- Either of two elements may stand before the other. -/
def Tied (before : α → α → Prop) (a b : α) : Prop :=
  before a b ∧ before b a

/-- Elements that tie stand as they stood. -/
theorem filter_tied (h : IsStableSort before xs ys) (horders : OrdersList before xs) {a : α}
    (ha : a ∈ xs) : ys.filter (Tied before a) = xs.filter (Tied before a) := by
  have hsorted : (xs.filter (Tied before a)).Pairwise before := by
    refine List.pairwise_of_forall_mem_list fun b hb c hc => ?_
    obtain ⟨hb, htied⟩ := List.mem_filter.mp hb
    obtain ⟨hc, htied'⟩ := List.mem_filter.mp hc
    exact horders.trans b hb a ha c hc (of_decide_eq_true htied).2 (of_decide_eq_true htied').1
  have hsub := (h.stable _ List.filter_sublist hsorted).filter (Tied before a)
  simp only [List.filter_filter, Bool.and_self] at hsub
  exact (hsub.eq_of_length (h.perm.filter _).length_eq.symm).symm

/-- What holds of every element and those behind it before sorting holds of those that tie after. -/
theorem pairwise_tied (h : IsStableSort before xs ys) (horders : OrdersList before xs)
    {r : α → α → Prop} (hr : xs.Pairwise r) : ys.Pairwise fun a b => before b a → r a b := by
  rw [List.pairwise_iff_forall_sublist]
  intro a b hsub hba
  have ha : a ∈ xs := h.mem_iff.mp (hsub.subset List.mem_cons_self)
  have hab : before a b := List.pairwise_iff_forall_sublist.mp h.sorted hsub
  have hself : before a a := (horders.total a ha a ha).elim id id
  have htied : [a, b].filter (Tied before a) = [a, b] := by
    rw [List.filter_eq_self]
    simp [Tied, hself, hab, hba]
  have hkept := hsub.filter fun c => decide (Tied before a c)
  rw [htied, h.filter_tied horders ha] at hkept
  exact List.pairwise_iff_forall_sublist.mp hr (hkept.trans List.filter_sublist)

/-- Lists in order are the same if all elements that tie stand in them alike. -/
theorem eq_of_filter_tied (hrefl : ∀ a ∈ ys, before a a) (hys : ys.Pairwise before)
    (hzs : zs.Pairwise before) (hperm : ys.Perm zs)
    (hties : ∀ a ∈ ys, ys.filter (Tied before a) = zs.filter (Tied before a)) : ys = zs := by
  induction ys generalizing zs with
  | nil => exact hperm.symm.eq_nil.symm ▸ rfl
  | cons y ys ih =>
    cases zs with
    | nil => exact absurd hperm.eq_nil (List.cons_ne_nil y ys)
    | cons z zs =>
      -- Each of the first elements may stand before all others, so the two tie.
      have hself : Tied before y y := and_self_iff.mpr (hrefl y List.mem_cons_self)
      have htied : Tied before y z := by
        constructor
        · rcases List.mem_cons.mp (hperm.mem_iff.mpr List.mem_cons_self) with rfl | hz
          · exact hself.1
          · exact (List.pairwise_cons.mp hys).1 z hz
        · rcases List.mem_cons.mp (hperm.mem_iff.mp List.mem_cons_self) with rfl | hy
          · exact hself.1
          · exact (List.pairwise_cons.mp hzs).1 y hy
      have hfirst := hties y List.mem_cons_self
      simp only [List.filter_cons, hself, htied, decide_true, if_true] at hfirst
      obtain rfl := (List.cons.inj hfirst).1
      refine congrArg _ (ih (fun a ha => hrefl a (List.mem_cons_of_mem _ ha))
        (List.pairwise_cons.mp hys).2 (List.pairwise_cons.mp hzs).2 hperm.cons_inv fun a ha => ?_)
      have htie := hties a (List.mem_cons_of_mem _ ha)
      simp only [List.filter_cons] at htie
      split at htie
      · exact (List.cons.inj htie).2
      · exact htie

/-- **There is only one way to sort a list stably.** -/
theorem unique (h : IsStableSort before xs ys) (h' : IsStableSort before xs zs)
    (horders : OrdersList before xs) : ys = zs := by
  refine eq_of_filter_tied (fun a ha => ?_) h.sorted h'.sorted (h.perm.trans h'.perm.symm)
    fun a ha => ?_
  · have ha := h.mem_iff.mp ha
    exact (horders.total a ha a ha).elim id id
  · have ha := h.mem_iff.mp ha
    rw [h.filter_tied horders ha, h'.filter_tied horders ha]

end Unique

end IsStableSort

end ShellAssist
