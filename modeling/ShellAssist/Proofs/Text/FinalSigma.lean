import ShellAssist.Proofs.Text.Lower
import Mathlib.Data.List.Infix

namespace ShellAssist.Chars

/-!
# Lower case and occurrences

The lower case of a text within another is that of the text alone but for its capital sigmas. Whether
one ends a word depends on the nearest characters on both sides that case does not look through, and
these may stand outside the text.

* `lowerWithin` — the lower case of a text between others;
* `Settled` — a capital sigma that is the same between any texts;
* `lower_infix_iff` — the texts that occur in lower case wherever they occur.
-/

variable {before after text : List Char}

/-! ### What a sigma sees -/

/-- Whether the nearest character that case does not look through is cased, if there is one. -/
def nearest? (neighbours : List Char) : Option Bool :=
  (neighbours.dropWhile fun c => inRanges Text.caseIgnorableRanges c.toNat).head?.map fun c =>
    inRanges Text.casedRanges c.toNat

/-- Whether a cased character is met is told by the nearest one that counts. -/
theorem meetsCased_eq (neighbours : List Char) :
    meetsCased neighbours = (nearest? neighbours).getD false := by
  unfold meetsCased nearest?
  split
  · rename_i hnil
    rw [hnil]
    rfl
  · rename_i hcons
    rw [hcons]
    rfl

/-- The nearest one is looked for in the nearer part first. -/
theorem nearest?_append (near far : List Char) :
    nearest? (near ++ far) = (nearest? near).or (nearest? far) := by
  unfold nearest?
  rw [List.dropWhile_append]
  split
  · rename_i hnil
    rw [List.isEmpty_iff.mp hnil]
    rfl
  · rename_i hsome
    obtain ⟨c, rest, hcons⟩ := List.exists_cons_of_ne_nil fun hnil => hsome (List.isEmpty_iff.mpr hnil)
    rw [hcons]
    rfl

/-- Whether a capital sigma ends a word; the neighbours before it are given nearest first. -/
def endsWord (before after : List Char) : Bool :=
  meetsCased before && !meetsCased after

/-- The small sigma. -/
def smallSigma (final : Bool) : Char :=
  if final then 'ς' else 'σ'

/-- A capital sigma whose lower case is the same whatever stands around the text. Where a cased
character is before it and one that is not is behind it, it ends a word; where either is the other way,
it does not. -/
def Settled (before after : List Char) : Prop :=
  nearest? before = some false ∨ nearest? after = some true ∨
    (nearest? before = some true ∧ nearest? after = some false)

/-- Where a word ends is not changed by what stands further out, if it is settled already. -/
theorem endsWord_of_settled (h : Settled before after) (outer behind : List Char) :
    endsWord (before ++ outer) (after ++ behind) = endsWord before after := by
  simp only [endsWord, meetsCased_eq, nearest?_append]
  rcases h with h | h | ⟨hbefore, hafter⟩
  · simp [h]
  · simp [h]
  · simp [hbefore, hafter]

/-! ### Lower case between other texts -/

/-- The lower case of a character between its neighbours. -/
def lowerAt (before : List Char) (c : Char) (after : List Char) : List Char :=
  if c = capitalSigma then [smallSigma (endsWord before after)] else lowerChar c

/-- The lower case of a text between others; `before` is given nearest first. -/
def lowerWithin (before after : List Char) : List Char → List Char
  | [] => []
  | c :: rest => lowerAt before c (rest ++ after) ++ lowerWithin (c :: before) after rest

/-- With nothing behind it a text is lowered as it stands. -/
theorem lowerWithin_nil (before text : List Char) :
    lowerWithin before [] text = lowerFrom before text := by
  induction text generalizing before with
  | nil => rfl
  | cons c rest ih =>
    rw [lowerWithin, ih, List.append_nil, lowerAt]
    by_cases hc : c = capitalSigma
    · subst hc
      rw [if_pos rfl]
      show _ = [Char.ofNat (if endsWord before rest then 0x3C2 else 0x3C3)] ++ _
      cases endsWord before rest <;> rfl
    · rw [if_neg hc, lowerFrom_cons hc]

/-- Two parts are lowered one by one, each beside the other. -/
theorem lowerWithin_append (before after text rest : List Char) :
    lowerWithin before after (text ++ rest)
      = lowerWithin before (rest ++ after) text
        ++ lowerWithin (text.reverse ++ before) after rest := by
  induction text generalizing before with
  | nil => rfl
  | cons c text ih =>
    rw [List.cons_append, lowerWithin, ih, lowerWithin, List.append_assoc, List.append_assoc,
      List.reverse_cons, List.append_assoc]
    rfl

/-- A sigma between two parts is lowered by what stands on both sides. -/
theorem lowerWithin_sigma (before after first last : List Char) :
    lowerWithin before after (first ++ capitalSigma :: last)
      = lowerWithin before (capitalSigma :: (last ++ after)) first
        ++ ([smallSigma (endsWord (first.reverse ++ before) (last ++ after))]
          ++ lowerWithin (capitalSigma :: (first.reverse ++ before)) after last) :=
  lowerWithin_append before after first (capitalSigma :: last)

/-- A text is lowered with nothing around it. -/
theorem lower_eq (text : List Char) : lower text = lowerWithin [] [] text :=
  (lowerWithin_nil [] text).symm

/-! ### Texts that keep their lower case -/

/-- Every capital sigma is settled within the text. -/
def KeepsCase (text : List Char) : Prop :=
  ∀ before after, text = before ++ capitalSigma :: after → Settled before.reverse after

/-- The lower case of the rest of such a text, between other texts. -/
theorem lowerWithin_of_keepsCase {whole : List Char} (h : KeepsCase whole) (passed text : List Char)
    (hwhole : whole = passed.reverse ++ text) (outer behind : List Char) :
    lowerWithin (passed ++ outer) behind text = lowerWithin passed [] text := by
  -- What has been passed of the text stands nearer than what is before it.
  induction text generalizing passed with
  | nil => rfl
  | cons c rest ih =>
    have hrest := ih (c :: passed) (by rw [hwhole, List.reverse_cons, List.append_assoc]; rfl)
    rw [lowerWithin, lowerWithin, ← List.cons_append, hrest, List.append_nil, lowerAt, lowerAt]
    by_cases hc : c = capitalSigma
    · subst hc
      have hsettled := h _ _ hwhole
      rw [List.reverse_reverse] at hsettled
      rw [if_pos rfl, if_pos rfl, endsWord_of_settled hsettled]
    · rw [if_neg hc, if_neg hc]

/-- A part that keeps its case is found in lower case as well. -/
theorem lower_infix_of_keepsCase (h : KeepsCase text) {whole : List Char} (hin : text <:+: whole) :
    lower text <:+: lower whole := by
  obtain ⟨first, last, rfl⟩ := hin
  have hkept : lowerWithin first.reverse last text = lowerWithin [] [] text :=
    lowerWithin_of_keepsCase h [] text rfl first.reverse last
  simp only [List.append_assoc, lower_eq, lowerWithin_append, List.append_nil, hkept]
  exact List.append_assoc _ _ _ ▸ List.infix_append _ _ _

/-! ### Texts that do not -/

/-- All sigmas that are of one kind between two texts are so between two others. -/
def KeepsKind (final : Bool) (outer behind outer' behind' : List Char) : Prop :=
  ∀ near next, endsWord (near ++ outer) (next ++ behind) = final →
    endsWord (near ++ outer') (next ++ behind') = final

section Count

variable {final : Bool} {outer behind outer' behind' : List Char}

/-- What keeps a kind further out keeps it further in. -/
theorem KeepsKind.within (h : KeepsKind final outer behind outer' behind') (near next : List Char) :
    KeepsKind final (near ++ outer) (next ++ behind) (near ++ outer') (next ++ behind') := by
  intro near' next'
  rw [← List.append_assoc, ← List.append_assoc, ← List.append_assoc, ← List.append_assoc]
  exact h _ _

/-- A sigma counts for its kind. -/
theorem count_smallSigma (final kind : Bool) :
    [smallSigma kind].count (smallSigma final) = if kind = final then 1 else 0 := by
  cases final <;> cases kind <;> decide

/-- There are no fewer sigmas of that kind between the other texts. -/
theorem KeepsKind.count_le (h : KeepsKind final outer behind outer' behind') (text : List Char) :
    (lowerWithin outer behind text).count (smallSigma final)
      ≤ (lowerWithin outer' behind' text).count (smallSigma final) := by
  induction text generalizing outer outer' with
  | nil => exact Nat.le_refl _
  | cons c rest ih =>
    have hwithin : KeepsKind final (c :: outer) behind (c :: outer') behind' := h.within [c] []
    have hrest := ih hwithin
    rw [lowerWithin, lowerWithin, List.count_append, List.count_append]
    refine Nat.add_le_add ?_ hrest
    -- Only the lower case of a sigma depends on what stands around it.
    rw [lowerAt, lowerAt]
    by_cases hc : c = capitalSigma
    · rw [if_pos hc, if_pos hc, count_smallSigma, count_smallSigma]
      by_cases hkind : endsWord outer (rest ++ behind) = final
      · have hkept : endsWord outer' (rest ++ behind') = final := h [] rest hkind
        rw [if_pos hkind, if_pos hkept]
      · rw [if_neg hkind]
        exact Nat.zero_le _
    · rw [if_neg hc, if_neg hc]

/-- There are more of them if one is of the other kind between the first two. -/
theorem KeepsKind.count_lt (h : KeepsKind final outer behind outer' behind') (first last : List Char)
    (hother : endsWord (first.reverse ++ outer) (last ++ behind) ≠ final)
    (hkind : endsWord (first.reverse ++ outer') (last ++ behind') = final) :
    (lowerWithin outer behind (first ++ capitalSigma :: last)).count (smallSigma final)
      < (lowerWithin outer' behind' (first ++ capitalSigma :: last)).count (smallSigma final) := by
  have hfirst := (h.within [] (capitalSigma :: last)).count_le first
  have hlast := (h.within (capitalSigma :: first.reverse) []).count_le last
  simp only [List.nil_append, List.cons_append] at hfirst hlast
  simp only [lowerWithin_sigma, List.count_append, count_smallSigma, if_neg hother, if_pos hkind]
  omega

end Count

/-- A letter is cased. -/
theorem nearest?_letter : nearest? ['a'] = some true := by
  decide +kernel

/-- A small letter stays. -/
theorem lowerWithin_letter (before after : List Char) : lowerWithin before after ['a'] = ['a'] := by
  rw [lowerWithin, lowerAt, if_neg (by decide), lowerWithin]
  decide

/-- A letter in front of a text is the only change around it. -/
theorem lower_cons_letter (text : List Char) :
    lower ('a' :: text) = ['a'] ++ lowerWithin ['a'] [] text := by
  rw [lower_eq, ← List.singleton_append, lowerWithin_append, lowerWithin_letter]
  rfl

/-- So is a letter behind it. -/
theorem lower_append_letter (text : List Char) :
    lower (text ++ ['a']) = lowerWithin [] ['a'] text ++ ['a'] := by
  rw [lower_eq, lowerWithin_append, lowerWithin_letter]
  rfl

/-- In front of a letter only final sigmas change. -/
theorem keepsKind_before_letter : KeepsKind true [] ['a'] [] [] := by
  intro near next
  simp only [endsWord, meetsCased_eq, nearest?_append, nearest?_letter, List.append_nil]
  cases nearest? next <;> simp

/-- Behind one only the others do. -/
theorem keepsKind_behind_letter : KeepsKind false ['a'] [] [] [] := by
  intro near next
  simp only [endsWord, meetsCased_eq, nearest?_append, nearest?_letter, List.append_nil]
  cases nearest? near <;> simp

/-- A text that occurs in lower case wherever it occurs settles its capital sigmas. Where a letter
before or behind the text turns one, the whole has fewer small sigmas of that kind than the text alone. -/
theorem keepsCase_of_occurs (h : ∀ whole, text <:+: whole → lower text <:+: lower whole) :
    KeepsCase text := by
  rintro first last rfl
  generalize hquery : first ++ capitalSigma :: last = query at h
  have hfewer (final : Bool) (whole : List Char) (hin : query <:+: whole) :=
    (h whole hin).sublist.count_le (smallSigma final)
  have hletter (final : Bool) : ['a'].count (smallSigma final) = 0 := by
    cases final <;> decide
  by_contra hopen
  simp only [Settled, not_or, not_and] at hopen
  obtain ⟨hfirst, hlast, hboth⟩ := hopen
  rcases hcased : nearest? first.reverse with _ | _ | _
  · -- The sigma begins a word, and no cased character follows. Behind a letter it ends one.
    have hnext : (nearest? last).getD false = false := by
      rcases hnext : nearest? last with _ | _ | _
      · rfl
      · rfl
      · exact absurd hnext hlast
    have hmore := keepsKind_behind_letter.count_lt first last
      (by simp [endsWord, meetsCased_eq, nearest?_append, nearest?_letter, hcased, hnext])
      (by simp [endsWord, meetsCased_eq, hcased])
    have hcount := hfewer false _ (List.suffix_cons 'a' query).isInfix
    rw [lower_cons_letter, lower_eq, List.count_append, hletter] at hcount
    rw [hquery] at hmore
    omega
  · exact hfirst hcased
  · -- The sigma ends a word, but not in front of a letter.
    have hnone : nearest? last = none := by
      rcases hnext : nearest? last with _ | _ | _
      · rfl
      · exact absurd hnext (hboth hcased)
      · exact absurd hnext hlast
    have hmore := keepsKind_before_letter.count_lt first last
      (by simp [endsWord, meetsCased_eq, nearest?_append, nearest?_letter, hnone])
      (by simp [endsWord, meetsCased_eq, hcased, hnone])
    have hcount := hfewer true _ (List.prefix_append query ['a']).isInfix
    rw [lower_append_letter, lower_eq, List.count_append, hletter] at hcount
    rw [hquery] at hmore
    omega

/-- **The texts that occur in lower case wherever they occur.** -/
theorem lower_infix_iff :
    (∀ whole, text <:+: whole → lower text <:+: lower whole) ↔ KeepsCase text :=
  ⟨keepsCase_of_occurs, fun h _ hin => lower_infix_of_keepsCase h hin⟩

end ShellAssist.Chars
