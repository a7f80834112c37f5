import ShellAssist.Text.Basic
import Mathlib.Data.List.Infix
import Mathlib.Data.List.TakeWhile

namespace ShellAssist

/-!
# Searching and cutting text

What the searches and cuts of texts find, in the words of the list library.

* `Text.startsWith_iff`, `Text.contains_iff` — beginnings and occurrences;
* `Chars.throughLast_append_afterLast`, `Chars.prefix_dropEndWhile` — what a cut loses and keeps;
* `Chars.splitOn_append`, `Chars.splitOn_append_sep` — the pieces of two texts as one;
* `Text.mem_sort`, `Text.mem_distinct` — which texts are left in a list.
-/

namespace Chars

/-- A text is found just where it occurs. -/
theorem isSome_indexOf?_iff {needle text : List Char} :
    (indexOf? needle text).isSome = true ↔ needle <:+: text := by
  induction text with
  | nil => cases needle <;> simp [indexOf?]
  | cons c rest ih =>
    rw [indexOf?, List.infix_cons_iff]
    by_cases h : needle <+: c :: rest
    · rw [if_pos (List.isPrefixOf_iff_prefix.mpr h)]
      exact iff_of_true rfl (.inl h)
    · rw [if_neg fun hp => h (List.isPrefixOf_iff_prefix.mp hp), Option.isSome_map, ih,
        or_iff_right h]

/-- What is found stands at its index. -/
theorem append_of_indexOf? {needle text : List Char} {i : Nat} (h : indexOf? needle text = some i) :
    ∃ before after, text = before ++ needle ++ after ∧ before.length = i := by
  -- The first place counts, so what was passed is put in front of what is found behind it.
  induction text generalizing i with
  | nil =>
    obtain rfl : needle = [] := by
      by_contra hne
      simp [indexOf?, hne] at h
    exact ⟨[], [], rfl, by simpa [indexOf?] using h⟩
  | cons c rest ih =>
    rw [indexOf?] at h
    split at h
    · rename_i hprefix
      obtain ⟨after, hafter⟩ := List.isPrefixOf_iff_prefix.mp hprefix
      exact ⟨[], after, hafter.symm, Option.some.inj h⟩
    · obtain ⟨j, hj, rfl⟩ := Option.map_eq_some_iff.mp h
      obtain ⟨before, after, rfl, rfl⟩ := ih hj
      exact ⟨c :: before, after, rfl, rfl⟩

/-- The text up to the last separator and the text behind it are all of the text. -/
theorem throughLast_append_afterLast (sep : Char) (text : List Char) :
    throughLast sep text ++ afterLast sep text = text := by
  rw [throughLast, afterLast, ← List.reverse_append, List.takeWhile_append_dropWhile,
    List.reverse_reverse]

/-- Behind the last separator there is none. -/
theorem not_mem_afterLast (sep : Char) (text : List Char) : sep ∉ afterLast sep text := by
  rw [afterLast, List.mem_reverse]
  intro hsep
  simpa using List.mem_takeWhile_imp hsep

/-- The text up to the last separator ends with it, if there is one. -/
theorem throughLast_eq_nil_or (sep : Char) (text : List Char) :
    throughLast sep text = [] ∨ [sep] <:+ throughLast sep text := by
  rw [throughLast]
  cases hrest : text.reverse.dropWhile (· ≠ sep) with
  | nil => exact .inl rfl
  | cons c rest =>
    have hc := List.head?_dropWhile_not (· ≠ sep) text.reverse
    rw [hrest] at hc
    obtain rfl : c = sep := by simpa using hc
    exact .inr (List.reverse_cons ▸ List.suffix_append _ _)

/-- Without a separator nothing stands in front of the last one. -/
theorem throughLast_of_not_mem {sep : Char} {text : List Char} (h : sep ∉ text) :
    throughLast sep text = [] := by
  refine (throughLast_eq_nil_or sep text).resolve_right fun hsep => h ?_
  rw [← throughLast_append_afterLast sep text]
  exact List.mem_append_left _ (hsep.subset (List.mem_singleton_self sep))

/-- And everything stands behind it. -/
theorem afterLast_of_not_mem {sep : Char} {text : List Char} (h : sep ∉ text) :
    afterLast sep text = text := by
  have hcut := throughLast_append_afterLast sep text
  rwa [throughLast_of_not_mem h] at hcut

/-- Leaving out characters at the end keeps a beginning that has none of them. -/
theorem prefix_dropEndWhile {p : Char → Bool} {stem text : List Char} (h : stem <+: text)
    (hstem : ∀ c ∈ stem, p c = false) : stem <+: dropEndWhile p text := by
  obtain ⟨rest, rfl⟩ := h
  rw [dropEndWhile, List.reverse_append, List.dropWhile_append]
  split
  · have hkeep : stem.reverse.dropWhile p = stem.reverse := by
      cases hreverse : stem.reverse with
      | nil => rfl
      | cons c rest =>
        have hc := hstem c (List.mem_reverse.mp (hreverse ▸ List.mem_cons_self))
        exact List.dropWhile_cons_of_neg (by rw [hc]; decide)
    rw [hkeep, List.reverse_reverse]
  · rw [List.reverse_append, List.reverse_reverse]
    exact List.prefix_append _ _

/-- Dropping at the end leaves a beginning. -/
theorem dropEndWhile_prefix (p : Char → Bool) (text : List Char) :
    dropEndWhile p text <+: text := by
  refine List.reverse_suffix.mp ?_
  rw [dropEndWhile, List.reverse_reverse]
  exact List.dropWhile_suffix p

/-- Where nothing is to be left out, a text is left as it is. -/
theorem trim_eq_self {p : Char → Bool} {text : List Char} (h : ∀ c ∈ text, p c = false) :
    trim p text = text := by
  have hdrop {l : List Char} (hl : ∀ c ∈ l, p c = false) : l.dropWhile p = l := by
    cases l with
    | nil => rfl
    | cons c l => exact List.dropWhile_cons_of_neg (by simp [hl c List.mem_cons_self])
  rw [trim, dropEndWhile, hdrop h, hdrop fun c hc => h c (List.mem_reverse.mp hc),
    List.reverse_reverse]

/-- A text without the separator is one piece. -/
theorem splitOn_of_not_mem {sep : Char} {text : List Char} (h : sep ∉ text) :
    splitOn sep text = [text] := by
  induction text with
  | nil => rfl
  | cons c text ih =>
    rw [List.mem_cons, not_or] at h
    simp only [splitOn, Ne.symm h.1, if_false, ih h.2]

/-- No piece holds a separator. -/
theorem not_mem_of_mem_splitOn {sep : Char} {text : List Char} :
    ∀ piece ∈ splitOn sep text, sep ∉ piece := by
  induction text with
  | nil => simp [splitOn]
  | cons c text ih =>
    rw [splitOn]
    split
    · exact List.forall_mem_cons.mpr ⟨List.not_mem_nil, ih⟩
    · rename_i hc
      split
      · simpa using Ne.symm hc
      · rename_i first rest hsplit
        rw [hsplit, List.forall_mem_cons] at ih
        refine List.forall_mem_cons.mpr ⟨?_, ih.2⟩
        exact List.not_mem_cons_of_ne_of_not_mem (Ne.symm hc) ih.1

/-- A piece has no characters but those of the text. -/
theorem mem_of_mem_splitOn {sep c : Char} {text : List Char} :
    ∀ piece ∈ splitOn sep text, c ∈ piece → c ∈ text := by
  induction text with
  | nil => simp [splitOn]
  | cons d text ih =>
    have hrest : ∀ piece ∈ splitOn sep text, c ∈ piece → c ∈ d :: text :=
      fun piece hpiece hc => List.mem_cons_of_mem _ (ih piece hpiece hc)
    rw [splitOn]
    split
    · exact List.forall_mem_cons.mpr ⟨nofun, hrest⟩
    · split
      · rintro piece hpiece hc
        rw [List.mem_singleton.mp hpiece, List.mem_singleton] at hc
        exact hc ▸ List.mem_cons_self
      -- The character joins the first piece of the rest.
      · rename_i first rest hsplit
        rw [hsplit, List.forall_mem_cons] at hrest
        refine List.forall_mem_cons.mpr ⟨fun hc => ?_, hrest.2⟩
        rcases List.mem_cons.mp hc with rfl | hc
        · exact List.mem_cons_self
        · exact hrest.1 hc

/-- Characters behind a text without the separator belong to its last piece. -/
theorem splitOn_append (sep : Char) (text : List Char) :
    ∃ init last, splitOn sep text = init ++ [last] ∧
      ∀ tail, sep ∉ tail → splitOn sep (text ++ tail) = init ++ [last ++ tail] := by
  induction text with
  | nil => exact ⟨[], [], rfl, fun tail htail => splitOn_of_not_mem htail⟩
  | cons c text ih =>
    obtain ⟨init, last, hsplit, happend⟩ := ih
    -- A separator begins a new piece; any other character belongs to the first piece, which may
    -- be the last one as well.
    by_cases hc : c = sep
    · refine ⟨[] :: init, last, ?_, fun tail htail => ?_⟩
      · simp only [splitOn, hc, if_true, hsplit, List.cons_append]
      · simp only [List.cons_append, splitOn, hc, if_true, happend tail htail]
    · cases init with
      | nil =>
        refine ⟨[], c :: last, ?_, fun tail htail => ?_⟩
        · simp only [splitOn, hc, if_false, hsplit, List.nil_append]
        · simp only [List.cons_append, splitOn, hc, if_false, happend tail htail, List.nil_append]
      | cons piece init =>
        refine ⟨(c :: piece) :: init, last, ?_, fun tail htail => ?_⟩
        · simp only [splitOn, hc, if_false, hsplit, List.cons_append]
        · simp only [List.cons_append, splitOn, hc, if_false, happend tail htail]

/-- The pieces on both sides of a separator. -/
theorem splitOn_append_sep (sep : Char) (text rest : List Char) :
    splitOn sep (text ++ sep :: rest) = splitOn sep text ++ splitOn sep rest := by
  induction text with
  | nil => simp [splitOn]
  | cons c text ih =>
    rw [List.cons_append, splitOn, splitOn, ih]
    by_cases hc : c = sep
    · rw [if_pos hc, if_pos hc, List.cons_append]
    · rw [if_neg hc, if_neg hc]
      obtain ⟨init, last, hsplit, -⟩ := splitOn_append sep text
      rw [hsplit]
      cases init <;> rfl

end Chars

namespace Text

/-- The pieces on both sides of a slash. -/
theorem splitOn_append_slash (text rest : String) :
    splitOn '/' (text ++ "/" ++ rest) = splitOn '/' text ++ splitOn '/' rest := by
  rw [splitOn, splitOn, splitOn, ← List.map_append, ← Chars.splitOn_append_sep,
    String.toList_append, String.toList_append, List.append_assoc]
  rfl

/-- Starting with a text is having it as a beginning. -/
theorem startsWith_iff {text stem : String} :
    startsWith text stem = true ↔ stem.toList <+: text.toList :=
  List.isPrefixOf_iff_prefix

/-- What is put behind a text does not change how it starts. -/
theorem startsWith_append {text stem : String} (h : startsWith text stem = true) (tail : String) :
    startsWith (text ++ tail) stem = true := by
  rw [startsWith_iff, String.toList_append]
  exact (startsWith_iff.mp h).trans (List.prefix_append _ _)

/-- A text is contained where it occurs. -/
theorem contains_iff {needle text : String} :
    contains needle text = true ↔ needle.toList <:+: text.toList :=
  Chars.isSome_indexOf?_iff

/-- Both parts make up the text. -/
theorem throughLast_append_afterLast (sep : Char) (text : String) :
    throughLast sep text ++ afterLast sep text = text := by
  rw [throughLast, afterLast, ← String.ofList_append, Chars.throughLast_append_afterLast,
    String.ofList_toList]

/-- Sorting keeps all texts. -/
theorem mem_sort {t : String} {texts : List String} : t ∈ sort texts ↔ t ∈ texts :=
  List.mem_mergeSort

/-- So does leaving out the repeated ones. -/
theorem mem_distinct {t : String} {texts : List String} : t ∈ distinct texts ↔ t ∈ texts := by
  -- The texts kept so far and those still to come are the same ones at every step.
  suffices h : ∀ seen : List String,
      t ∈ texts.foldl (fun seen t => if seen.contains t then seen else seen ++ [t]) seen
        ↔ t ∈ seen ∨ t ∈ texts by
    rw [distinct, h [], or_iff_right (List.not_mem_nil)]
  intro seen
  induction texts generalizing seen with
  | nil => simp
  | cons t' rest ih =>
    rw [List.foldl_cons, ih, List.mem_cons]
    by_cases hseen : t' ∈ seen
    · rw [if_pos (List.contains_iff_mem.mpr hseen)]
      constructor
      · rintro (h | h)
        · exact .inl h
        · exact .inr (.inr h)
      · rintro (h | rfl | h)
        · exact .inl h
        · exact .inl hseen
        · exact .inr h
    · rw [if_neg fun h => hseen (List.contains_iff_mem.mp h), List.mem_append,
        List.mem_singleton, or_assoc]

end Text

end ShellAssist
