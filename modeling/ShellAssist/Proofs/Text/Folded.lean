import ShellAssist.Proofs.Text.FinalSigma
import Mathlib.Data.Nat.Basic

namespace ShellAssist.Chars

/-!
# Texts in lower case

The lower case of a text is in lower case: it is its own. Character by character it stands where the text
does, as long as no dotted capital I comes before, the one letter with a lower case of two characters.

* `lowerAt_eq_singleton` — every other letter has a lower case of one;
* `isLower_of_mem_lower`, `lower_eq_self` — lower case is in lower case, and its own lower case;
* `flatMap_lowerPlace` — lower case is that of the characters, each in its place;
* `lowerPlace_eq` — the lower case of the character at a place stands at that place.
-/

variable {before after text : List Char} {c d : Char}

/-! ### The length of lower case -/

/-- The one letter whose lower case is two characters. -/
def dottedI : Char := 'İ'

/-- All characters but one are lowered to a single one. -/
theorem lowerChar_eq_singleton (hc : c ≠ dottedI) : ∃ d, lowerChar c = [d] := by
  have hcode : c.toNat ≠ 0x130 := fun h => hc (Char.ext (UInt32.toNat_inj.mp h))
  rw [lowerChar, if_neg hcode]
  split
  · exact ⟨_, rfl⟩
  · split <;> exact ⟨_, rfl⟩

/-- So they are wherever they stand. -/
theorem lowerAt_eq_singleton (hc : c ≠ dottedI) (before after : List Char) :
    ∃ d, lowerAt before c after = [d] := by
  rw [lowerAt]
  split
  · exact ⟨_, rfl⟩
  · exact lowerChar_eq_singleton hc

/-- Without that one a text keeps its length. -/
theorem length_lowerWithin (h : dottedI ∉ text) (before after : List Char) :
    (lowerWithin before after text).length = text.length := by
  induction text generalizing before with
  | nil => rfl
  | cons c text ih =>
    obtain ⟨hc, htext⟩ := not_or.mp (mt List.mem_cons.mpr h)
    obtain ⟨d, hd⟩ := lowerAt_eq_singleton (Ne.symm hc) before (text ++ after)
    rw [lowerWithin, hd, List.length_append, ih htext, List.length_singleton, List.length_cons,
      Nat.add_comm]

/-- Every letter has a lower case of at least one character, and the dotted capital I of more. -/
theorem length_le_lowerWithin (before after text : List Char) :
    text.length + text.count dottedI ≤ (lowerWithin before after text).length := by
  induction text generalizing before with
  | nil => exact Nat.le_refl 0
  | cons c text ih =>
    have hrest := ih (c :: before)
    -- The dotted capital is the one letter that becomes two.
    have hfirst : 1 + [c].count dottedI ≤ (lowerAt before c (text ++ after)).length := by
      by_cases hc : c = dottedI
      · subst hc
        have hlower : lowerAt before dottedI (text ++ after) = lowerChar dottedI :=
          if_neg (by decide)
        rw [hlower]
        decide
      · obtain ⟨d, hd⟩ := lowerAt_eq_singleton hc before (text ++ after)
        rw [hd, List.count_eq_zero_of_not_mem (by simpa using Ne.symm hc)]
        rfl
    rw [lowerWithin, List.length_append, List.length_cons, ← List.singleton_append, List.count_append]
    omega

/-- Without that one a text keeps its length. -/
theorem length_lower (h : dottedI ∉ text) : (lower text).length = text.length :=
  lower_eq text ▸ length_lowerWithin h [] []

/-- Each of them makes it longer by one. -/
theorem length_le_lower (text : List Char) : text.length + text.count dottedI ≤ (lower text).length :=
  lower_eq text ▸ length_le_lowerWithin [] [] text

/-- A text that is not empty stays so. -/
theorem lower_ne_nil (h : text ≠ []) : lower text ≠ [] := by
  intro hnil
  have hle := length_le_lower text
  rw [hnil, List.length_nil] at hle
  have hlt := List.length_pos_of_ne_nil h
  omega

/-- Every letter but a sigma brings its own lower case. -/
theorem mem_lower (hc : c ∈ text) (hsigma : c ≠ capitalSigma) (hd : d ∈ lowerChar c) :
    d ∈ lower text := by
  obtain ⟨before, after, rfl⟩ := List.append_of_mem hc
  rw [lower_eq, lowerWithin_append, lowerWithin, lowerAt, if_neg hsigma]
  exact List.mem_append_right _ (List.mem_append_left _ hd)

/-! ### Lower case is in lower case -/

/-- A character that is its own lower case wherever it stands. -/
def IsLower (c : Char) : Prop :=
  lowerChar c = [c] ∧ c ≠ capitalSigma

instance (c : Char) : Decidable (IsLower c) :=
  inferInstanceAs (Decidable (_ ∧ _))

/-- The first and last letter that the letters of a run go to. -/
def targets (run : Nat × Nat × Nat × Int) : Nat × Nat :=
  ((run.1 + run.2.2.2).toNat, (run.2.1 + run.2.2.2).toNat)

/-- Whether none of the letters that one run goes to is one of another run: the ranges are apart, or
both take every second letter and their steps do not meet. -/
def missesRun (run other : Nat × Nat × Nat × Int) : Bool :=
  Nat.blt (targets run).2 other.1 || Nat.blt other.2.1 (targets run).1 ||
    ((Nat.beq run.2.2.1 2 || Nat.beq run.1 run.2.1) && Nat.beq other.2.2.1 2 &&
      Nat.beq (((targets run).1 + other.1) % 2) 1)

/-- Whether the letters of a run go to small letters: to none of a run, nor the two special letters. -/
def landsLow (run : Nat × Nat × Nat × Int) : Bool :=
  Text.lowerCaseRuns.all (missesRun run) &&
    (Nat.blt (targets run).2 0x130 || Nat.blt 0x130 (targets run).1) &&
    (Nat.blt (targets run).2 0x3A3 || Nat.blt 0x3A3 (targets run).1) &&
    (Nat.blt (targets run).2 0xD800 || (Nat.blt 0xDFFF (targets run).1 && Nat.blt (targets run).2 0x110000)) &&
    (Nat.blt 0x7F (targets run).1 || (Nat.blt 0x60 (targets run).1 && Nat.blt (targets run).2 0x7B))

/-- All runs of the table lead to small letters. -/
theorem landsLow_runs : Text.lowerCaseRuns.all landsLow = true := by
  decide +kernel

/-- An ASCII character that is no capital letter is small. -/
theorem isLower_of_ascii (hascii : c.toNat < 0x80) (hletter : ¬ (0x41 ≤ c.toNat ∧ c.toNat ≤ 0x5A)) :
    IsLower c := by
  have hkept : ¬ (c.val ≥ 'A'.val ∧ c.val ≤ 'Z'.val) :=
    fun h => hletter ⟨UInt32.le_iff_toNat_le.mp h.1, UInt32.le_iff_toNat_le.mp h.2⟩
  refine ⟨?_, ?_⟩
  · have hlower : c.toLower = c := dif_neg hkept
    rw [lowerChar, if_pos hascii, hlower]
  · rintro rfl
    exact absurd hascii (by decide)

/-- A letter in no run is in lower case, but for the two special ones. -/
theorem isLower_of_no_run (hascii : 0x80 ≤ c.toNat) (hdotted : c.toNat ≠ 0x130)
    (hsigma : c.toNat ≠ 0x3A3) (hruns : ∀ run ∈ Text.lowerCaseRuns,
      ¬ (run.1 ≤ c.toNat ∧ c.toNat ≤ run.2.1 ∧ (c.toNat - run.1) % run.2.2.1 = 0)) : IsLower c := by
  refine ⟨?_, fun h => hsigma (congrArg Char.toNat h)⟩
  rw [lowerChar, if_neg (by omega), if_neg hdotted]
  split
  · rename_i first last step shift hfind
    have hin := List.find?_some hfind
    simp only [Bool.and_eq_true, decide_eq_true_eq] at hin
    exact absurd ⟨hin.1.1, hin.1.2, hin.2⟩ (hruns _ (List.mem_of_find?_eq_some hfind))
  · rfl

/-- The letters of every run go to letters in lower case. -/
theorem isLower_of_run {run : Nat × Nat × Nat × Int} (hrun : run ∈ Text.lowerCaseRuns) {n : Nat}
    (hfirst : run.1 ≤ n) (hlast : n ≤ run.2.1) (hstep : (n - run.1) % run.2.2.1 = 0) :
    IsLower (Char.ofNat (n + run.2.2.2 : Int).toNat) := by
  have hlands := List.all_eq_true.mp landsLow_runs run hrun
  simp only [landsLow, missesRun, targets, Bool.and_eq_true, Bool.or_eq_true, List.all_eq_true,
    Nat.blt_eq, Nat.beq_eq] at hlands
  obtain ⟨⟨⟨⟨hmisses, hdotted⟩, hsigma⟩, hvalid⟩, hascii⟩ := hlands
  generalize hcode : (n + run.2.2.2 : Int).toNat = code
  -- The target is a character, so its number can be compared with the other runs.
  have hchar : (Char.ofNat code).toNat = code := by
    have hscalar : code.isValidChar := by
      rw [Nat.isValidChar]
      omega
    rw [Char.ofNat, dif_pos hscalar]
    rfl
  rw [← hchar] at hcode
  by_cases hsmall : (Char.ofNat code).toNat < 0x80
  · exact isLower_of_ascii hsmall (by omega)
  refine isLower_of_no_run (by omega) (by omega) (by omega) fun other hother hin => ?_
  have hmiss := hmisses other hother
  obtain ⟨first, last, step, shift⟩ := run
  obtain ⟨first', last', step', shift'⟩ := other
  dsimp only at *
  obtain ⟨hfirst', hlast', hstep'⟩ := hin
  -- The runs are apart, or both go in steps of two and the target falls between.
  rcases hmiss with (hhigh | hlow) | ⟨⟨htwo, htwo'⟩, hodd⟩
  · omega
  · omega
  · subst htwo'
    rcases htwo with rfl | rfl <;> omega

/-- A lowered ASCII letter is small. -/
theorem isLower_toLower (hascii : c.toNat < 0x80) : IsLower c.toLower := by
  -- A capital moves up by thirty-two; everything else stays where it is.
  by_cases hletter : c.val ≥ 'A'.val ∧ c.val ≤ 'Z'.val
  · have hcode : c.toLower.toNat = c.toNat + 0x20 := by
      have hmoved : c.toLower.val = c.val + 0x20 := congrArg Char.val (dif_pos hletter)
      show c.toLower.val.toNat = _
      rw [hmoved, UInt32.toNat_add]
      show (c.toNat + 0x20) % 2 ^ 32 = _
      omega
    have hlower : 0x41 ≤ c.toNat := UInt32.le_iff_toNat_le.mp hletter.1
    have hupper : c.toNat ≤ 0x5A := UInt32.le_iff_toNat_le.mp hletter.2
    exact isLower_of_ascii (by omega) (by omega)
  · have hkept : c.toLower = c := dif_neg hletter
    rw [hkept]
    exact isLower_of_ascii hascii fun h =>
      hletter ⟨UInt32.le_iff_toNat_le.mpr h.1, UInt32.le_iff_toNat_le.mpr h.2⟩

/-- The lower case of a character is in lower case. -/
theorem isLower_of_mem_lowerChar (hc : c ≠ capitalSigma) (hd : d ∈ lowerChar c) : IsLower d := by
  rw [lowerChar] at hd
  -- Small codes, the dotted capital, the runs of the table, and the letters in none.
  by_cases hascii : c.toNat < 0x80
  · rw [if_pos hascii, List.mem_singleton] at hd
    exact hd ▸ isLower_toLower hascii
  by_cases hdotted : c.toNat = 0x130
  · rw [if_neg hascii, if_pos hdotted, List.mem_cons, List.mem_singleton] at hd
    rcases hd with rfl | rfl <;> decide
  rw [if_neg hascii, if_neg hdotted] at hd
  split at hd
  · rename_i first last step shift hfind
    have hin := List.find?_some hfind
    simp only [Bool.and_eq_true, decide_eq_true_eq] at hin
    rw [List.mem_singleton.mp hd]
    exact isLower_of_run (List.mem_of_find?_eq_some hfind) hin.1.1 hin.1.2 hin.2
  · rename_i hnone
    obtain rfl := List.mem_singleton.mp hd
    refine ⟨?_, hc⟩
    rw [lowerChar, if_neg hascii, if_neg hdotted, hnone]

/-- What a character is lowered to is small. -/
theorem isLower_of_mem_lowerAt (hd : d ∈ lowerAt before c after) : IsLower d := by
  rw [lowerAt] at hd
  split at hd
  · rw [List.mem_singleton] at hd
    subst hd
    cases endsWord before after <;> decide
  · rename_i hc
    exact isLower_of_mem_lowerChar hc hd

/-- So is what a text is lowered to. -/
theorem isLower_of_mem_lowerWithin (hd : d ∈ lowerWithin before after text) : IsLower d := by
  induction text generalizing before with
  | nil => exact absurd hd List.not_mem_nil
  | cons c text ih =>
    rcases List.mem_append.mp hd with hfirst | hrest
    · exact isLower_of_mem_lowerAt hfirst
    · exact ih hrest

/-- **The lower case of a text is in lower case.** -/
theorem isLower_of_mem_lower (hd : d ∈ lower text) : IsLower d :=
  isLower_of_mem_lowerWithin (lower_eq text ▸ hd)

/-- Small characters stay. -/
theorem lowerFrom_eq_self (h : ∀ c ∈ text, IsLower c) (before : List Char) :
    lowerFrom before text = text := by
  induction text generalizing before with
  | nil => rfl
  | cons c text ih =>
    obtain ⟨⟨hlower, hsigma⟩, htext⟩ := List.forall_mem_cons.mp h
    rw [lowerFrom_cons hsigma, hlower, ih htext, List.singleton_append]

/-- A text in lower case is its own lower case. -/
theorem lower_eq_self (h : ∀ c ∈ text, IsLower c) : lower text = text :=
  lowerFrom_eq_self h []

/-! ### Lower case in its place -/

/-- The lower case of the character at a place of a text, if there is one. -/
def lowerPlace (text : List Char) (i : Nat) : List Char :=
  text[i]?.elim [] fun c => lowerAt (text.take i).reverse c (text.drop (i + 1))

/-- A text is lowered character by character, each by what stands around it. -/
theorem lowerWithin_eq_flatMap (before text : List Char) :
    lowerWithin before [] text = (List.range text.length).flatMap fun i =>
      text[i]?.elim [] fun c => lowerAt ((text.take i).reverse ++ before) c (text.drop (i + 1)) := by
  induction text generalizing before with
  | nil => rfl
  | cons c text ih =>
    rw [lowerWithin, ih, List.length_cons, List.range_succ_eq_map, List.flatMap_cons, List.flatMap_map,
      List.append_nil]
    simp only [List.getElem?_cons_succ, List.take_succ_cons, List.reverse_cons, List.append_assoc,
      List.drop_succ_cons]
    rfl

/-- Lower case is that of the characters, each in its place. -/
theorem flatMap_lowerPlace (text : List Char) :
    (List.range text.length).flatMap (lowerPlace text) = lower text := by
  rw [lower_eq, lowerWithin_eq_flatMap]
  simp only [List.append_nil]
  rfl

/-- The two small sigmas are different. -/
theorem smallSigma_inj {final final' : Bool} : smallSigma final = smallSigma final' ↔ final = final' := by
  cases final <;> cases final' <;> decide

/-- A character in two texts has the same lower case unless it is a sigma that ends a word in one of
them. -/
theorem lowerPlace_eq_iff {text' : List Char} {i j : Nat} (hi : text[i]? = some c)
    (hj : text'[j]? = some c) : lowerPlace text i = lowerPlace text' j ↔ (c = capitalSigma →
      endsWord (text.take i).reverse (text.drop (i + 1))
        = endsWord (text'.take j).reverse (text'.drop (j + 1))) := by
  rw [lowerPlace, lowerPlace, hi, hj, Option.elim_some, Option.elim_some, lowerAt, lowerAt]
  by_cases hc : c = capitalSigma
  · rw [if_pos hc, if_pos hc, forall_prop_of_true hc, List.singleton_inj, smallSigma_inj]
  · rw [if_neg hc, if_neg hc, forall_prop_of_false hc]
    exact iff_of_true rfl trivial

/-- **Lower case stands in its place**, as long as no dotted capital I has come. -/
theorem lowerPlace_eq {i : Nat} (h : dottedI ∉ text.take (i + 1)) :
    lowerPlace text i = (lower text)[i]?.toList := by
  by_cases hi : i < text.length
  · have hfirst : dottedI ∉ text.take i := fun hmem =>
      h ((List.take_subset_take_left text i.le_succ) hmem)
    have hc : text[i] ≠ dottedI := fun heq =>
      h (heq ▸ List.mem_take_iff_getElem.mpr ⟨i, by omega, rfl⟩)
    obtain ⟨d, hd⟩ := lowerAt_eq_singleton hc (text.take i).reverse (text.drop (i + 1))
    -- The lower case of what comes before is as long as that.
    have hbefore : (lowerWithin [] (text[i] :: text.drop (i + 1)) (text.take i)).length = i := by
      rw [length_lowerWithin hfirst, List.length_take_of_le hi.le]
    have hlower : lower text = lowerWithin [] (text[i] :: text.drop (i + 1)) (text.take i)
        ++ d :: lowerWithin (text[i] :: (text.take i).reverse) [] (text.drop (i + 1)) := by
      have hsplit : text = text.take i ++ text[i] :: text.drop (i + 1) := by simp
      conv_lhs => rw [hsplit]
      rw [lower_eq, lowerWithin_append, List.append_nil, List.append_nil, lowerWithin, List.append_nil,
        hd]
      rfl
    rw [lowerPlace, List.getElem?_eq_getElem hi, Option.elim_some, hd, hlower,
      List.getElem?_append_right hbefore.le, hbefore, Nat.sub_self]
    rfl
  · have hlong : text.length ≤ i := not_lt.mp hi
    rw [List.take_of_length_le (by omega)] at h
    have hlength := length_lower h
    rw [lowerPlace, List.getElem?_eq_none hlong, List.getElem?_eq_none (by omega)]
    rfl

end ShellAssist.Chars
