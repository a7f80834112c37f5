import ShellAssist.Text.Lower
import Mathlib.Data.List.Basic

namespace ShellAssist

/-!
# Lower case and the order of characters

Every character but the capital sigma has its own lower case, whatever stands around it. So a text
whose characters stand in order in another still does in lower case.

* `Chars.lower_sublist` — lower case keeps characters in order;
* `Chars.lower_begins` — and it keeps beginnings.
-/

namespace Chars

/-- The one letter whose lower case depends on its neighbours. -/
def capitalSigma : Char := 'Σ'

theorem lowerFrom_cons {c : Char} (hc : c ≠ capitalSigma) (before rest : List Char) :
    lowerFrom before (c :: rest) = lowerChar c ++ lowerFrom (c :: before) rest := by
  have hcode : c.toNat ≠ 0x3A3 := fun h => hc (Char.ext (UInt32.toNat_inj.mp h))
  rw [lowerFrom, if_neg hcode]

/-- The induction goes along the way the characters are found; what stands before may differ. -/
theorem lowerFrom_sublist {part whole : List Char} (h : part.Sublist whole)
    (hpart : capitalSigma ∉ part) (before before' : List Char) :
    (lowerFrom before part).Sublist (lowerFrom before' whole) := by
  induction h generalizing before before' with
  | slnil => exact List.Sublist.refl _
  | cons c h ih => exact (ih hpart before (c :: before')).trans (List.sublist_append_right _ _)
  | cons_cons c h ih =>
    obtain ⟨hc, hrest⟩ := not_or.mp (mt List.mem_cons.mpr hpart)
    rw [lowerFrom_cons (Ne.symm hc), lowerFrom_cons (Ne.symm hc)]
    exact (List.Sublist.refl _).append (ih hrest _ _)

/-- **Lower case keeps characters in order.** -/
theorem lower_sublist {part whole : List Char} (h : part.Sublist whole)
    (hpart : capitalSigma ∉ part) : (lower part).Sublist (lower whole) :=
  lowerFrom_sublist h hpart [] []

theorem lowerFrom_append {part : List Char} (hpart : capitalSigma ∉ part)
    (before rest : List Char) :
    ∃ before', lowerFrom before (part ++ rest) = lowerFrom before part ++ lowerFrom before' rest := by
  induction part generalizing before with
  | nil => exact ⟨before, rfl⟩
  | cons c part ih =>
    obtain ⟨hc, hpart⟩ := not_or.mp (mt List.mem_cons.mpr hpart)
    obtain ⟨before', happend⟩ := ih hpart (c :: before)
    refine ⟨before', ?_⟩
    rw [List.cons_append, lowerFrom_cons (Ne.symm hc), happend, lowerFrom_cons (Ne.symm hc),
      List.append_assoc]

/-- **Lower case keeps beginnings.** -/
theorem lower_begins {part whole : List Char} (h : part <+: whole)
    (hpart : capitalSigma ∉ part) : lower part <+: lower whole := by
  obtain ⟨rest, rfl⟩ := h
  obtain ⟨before', happend⟩ := lowerFrom_append hpart [] rest
  rw [lower, lower, happend]
  exact List.prefix_append _ _

/-- Not so the capital sigma, which ends one of these words and stands within the other. -/
example : ¬(lower "ΑΣ".toList).Sublist (lower "ΑΣΑ".toList) := by
  decide +kernel

end Chars

end ShellAssist
