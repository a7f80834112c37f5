import ShellAssist.Proofs.Text.Basic
import ShellAssist.Proofs.Text.Lines

namespace ShellAssist.Chars

/-!
# Lines that are not blank

Line boundaries are white space. So white space around a text takes no part in what is left of it, and
where that is on one line, so is the text but for blank lines.

* `strip_blank_append`, `strip_append_blank` — white space around a text;
* `filledLines_eq_flatMap` — the filled lines of a text are those of its pieces between line feeds;
* `exists_filledLine_iff`, `strip_of_filledLines` — texts with one filled line.
-/

variable {blank line text : List Char}

/-- A line end is white space. -/
theorem isBlank_of_isLineBreak {c : Char} (h : isLineBreak c = true) : isBlank c = true := by
  simp only [isLineBreak, isBlank, blankRanges, inRanges, List.any_cons, List.any_nil, Bool.or_false,
    Bool.or_eq_true, Bool.and_eq_true, decide_eq_true_eq] at h ⊢
  omega

/-! ### White space around a text -/

/-- What is to be dropped may be put behind. -/
theorem dropEndWhile_append_of_all {p : Char → Bool} (text : List Char)
    (h : ∀ c ∈ blank, p c = true) : dropEndWhile p (text ++ blank) = dropEndWhile p text := by
  rw [dropEndWhile, dropEndWhile, List.reverse_append,
    List.dropWhile_append_of_pos fun c hc => h c (List.mem_reverse.mp hc)]

/-- Characters are kept in front of one that is. -/
theorem dropEndWhile_append_of_exists {p : Char → Bool} (text : List Char)
    (h : ∃ c ∈ line, p c = false) :
    dropEndWhile p (text ++ line) = text ++ dropEndWhile p line := by
  have hkept : line.reverse.dropWhile p ≠ [] := by
    obtain ⟨c, hc, hp⟩ := h
    intro hnil
    have hall := List.dropWhile_eq_nil_iff.mp hnil c (List.mem_reverse.mpr hc)
    exact absurd (hp.symm.trans hall) nofun
  rw [dropEndWhile, dropEndWhile, List.reverse_append, List.dropWhile_append,
    if_neg (by simpa using hkept), List.reverse_append, List.reverse_reverse]

/-- Where something is not dropped, nothing behind it is. -/
theorem dropWhile_append_of_exists {p : Char → Bool} (text : List Char)
    (h : ∃ c ∈ line, p c = false) : (line ++ text).dropWhile p = line.dropWhile p ++ text := by
  have hkept : line.dropWhile p ≠ [] := by
    obtain ⟨c, hc, hp⟩ := h
    intro hnil
    exact absurd (hp.symm.trans (List.dropWhile_eq_nil_iff.mp hnil c hc)) nofun
  rw [List.dropWhile_append, if_neg (by simpa using hkept)]

/-- White space in front goes. -/
theorem strip_blank_append (h : blank.all isBlank = true) (text : List Char) :
    strip (blank ++ text) = strip text := by
  rw [strip, trim, List.dropWhile_append_of_pos (List.all_eq_true.mp h), strip, trim]

/-- What is not all white space holds something else. -/
theorem exists_of_not_all (h : ¬ text.all isBlank = true) : ∃ c ∈ text, isBlank c = false := by
  simpa using h

/-- White space behind goes. -/
theorem strip_append_blank (h : blank.all isBlank = true) (text : List Char) :
    strip (text ++ blank) = strip text := by
  have hblank := List.all_eq_true.mp h
  by_cases htext : text.all isBlank = true
  · have hall : ∀ c ∈ text ++ blank, isBlank c = true :=
      List.forall_mem_append.mpr ⟨List.all_eq_true.mp htext, hblank⟩
    rw [strip, trim, List.dropWhile_eq_nil_iff.mpr hall, strip, trim,
      List.dropWhile_eq_nil_iff.mpr (List.all_eq_true.mp htext)]
  · rw [strip, trim, dropWhile_append_of_exists _ (exists_of_not_all htext),
      dropEndWhile_append_of_all _ hblank, strip, trim]

/-- What stands between two texts that are not blank is not stripped. -/
theorem sublist_strip_append {first rest : List Char} (hfirst : ¬ first.all isBlank = true)
    (hrest : ¬ rest.all isBlank = true) (between : List Char) :
    between.Sublist (strip (first ++ (between ++ rest))) := by
  rw [strip, trim, dropWhile_append_of_exists _ (exists_of_not_all hfirst),
    dropEndWhile_append_of_exists, dropEndWhile_append_of_exists _ (exists_of_not_all hrest)]
  · exact (List.sublist_append_left _ _).trans (List.sublist_append_right _ _)
  · obtain ⟨c, hc, hblank⟩ := exists_of_not_all hrest
    exact ⟨c, List.mem_append_right _ hc, hblank⟩

/-- Of a text that is not blank something is left. -/
theorem all_isBlank_of_strip (h : strip text = []) : text.all isBlank = true := by
  rw [strip, trim, dropEndWhile, List.reverse_eq_nil_iff, List.dropWhile_eq_nil_iff] at h
  cases hdrop : text.dropWhile isBlank with
  | nil => exact List.all_eq_true.mpr (List.dropWhile_eq_nil_iff.mp hdrop)
  | cons c rest =>
    have hhead := List.head?_dropWhile_not isBlank text
    rw [hdrop] at h hhead
    have hblank := h c (List.mem_reverse.mpr List.mem_cons_self)
    simp [hblank] at hhead

/-- Nothing is put in. -/
theorem strip_sublist (text : List Char) : (strip text).Sublist text := by
  have hprefix := dropEndWhile_prefix isBlank (text.dropWhile isBlank)
  exact hprefix.sublist.trans (List.dropWhile_sublist _)

/-- What is left of a text does not begin with white space. -/
theorem not_blank_of_head?_strip {c : Char} (h : (strip text).head? = some c) :
    isBlank c = false := by
  have hprefix := dropEndWhile_prefix isBlank (text.dropWhile isBlank)
  obtain ⟨rest, hrest⟩ := List.head?_eq_some_iff.mp h
  rw [strip, trim] at hrest
  rw [hrest] at hprefix
  obtain ⟨behind, hbehind⟩ := hprefix
  have hhead := List.head?_dropWhile_not isBlank text
  rw [← hbehind] at hhead
  simpa using hhead

/-! ### The first line -/

/-- A text that is not empty begins with a line, and where that does not end the text, with a boundary
behind it. -/
theorem exists_first_line (h : text ≠ []) : ∃ first boundary rest : List Char,
    text = first ++ (boundary ++ rest) ∧ lines text = first :: lines rest ∧
      (∀ c ∈ boundary, isLineBreak c = true) ∧ (boundary = [] → rest = []) ∧
        rest.length < text.length := by
  induction text using lines.induct with
  | case1 => exact absurd rfl h
  -- A return and a newline are one boundary of two characters.
  | case2 rest ih =>
    refine ⟨[], ['\r', '\n'], rest, rfl, by rw [lines], ?_,
      fun hnil => absurd hnil (List.cons_ne_nil _ _), ?_⟩
    · exact List.forall_mem_cons.mpr ⟨rfl, List.forall_mem_singleton.mpr rfl⟩
    · rw [List.length_cons, List.length_cons]
      omega
  | case3 c rest hreturn hbreak ih =>
    refine ⟨[], [c], rest, rfl, ?_, by simpa using hbreak,
      fun hnil => absurd hnil (List.cons_ne_nil _ _), by simp⟩
    rw [lines.eq_3 c rest hreturn, if_pos hbreak]
  | case4 c rest hreturn hc hnil ih =>
    obtain rfl := lines_eq_nil_iff.mp hnil
    refine ⟨[c], [], [], rfl, ?_, by simp, fun _ => rfl, by simp⟩
    rw [lines_cons_of_unbroken (by simpa using hc)]
    rfl
  | case5 c rest hreturn hc line more hlines ih =>
    have hne : rest ≠ [] := by
      rintro rfl
      cases hlines
    obtain ⟨first, boundary, behind, hrest, hfirst, hboundary, hlast, hlength⟩ := ih hne
    refine ⟨c :: first, boundary, behind, by rw [hrest, List.cons_append], ?_, hboundary, hlast,
      by simpa using Nat.lt_succ_of_lt hlength⟩
    rw [lines_cons_of_unbroken (by simpa using hc), hfirst]

/-! ### Filled lines -/

/-- The lines of a text that are not blank. -/
def filledLines (text : List Char) : List (List Char) :=
  (lines text).filter fun line => !line.all isBlank

/-- The lines on both sides of a line feed. A carriage return in front of it belongs to the same
boundary, and any other boundary there ends a line of its own. -/
theorem lines_append_feed_eq (text rest : List Char) : ∃ gap : List (List Char),
    (gap = [] ∨ gap = [[]]) ∧ lines (text ++ '\n' :: rest) = lines text ++ (gap ++ lines rest) := by
  induction text using lines.induct with
  | case1 => exact ⟨[[]], .inr rfl, rfl⟩
  | case2 text ih =>
    obtain ⟨gap, hgap, hlines⟩ := ih
    refine ⟨gap, hgap, ?_⟩
    rw [List.cons_append, List.cons_append, lines, hlines, lines, List.cons_append]
  | case3 c text hreturn hbreak ih =>
    have hline : lines (c :: text) = [] :: lines text := by
      rw [lines.eq_3 c text hreturn, if_pos hbreak]
    -- A return at the end takes the newline to itself, and no empty line comes between.
    by_cases hcrlf : c = '\r' ∧ text = []
    · obtain ⟨rfl, rfl⟩ := hcrlf
      exact ⟨[], .inl rfl, rfl⟩
    · obtain ⟨gap, hgap, hlines⟩ := ih
      refine ⟨gap, hgap, ?_⟩
      rw [hline, List.cons_append, List.cons_append, ← hlines, lines.eq_3 c, if_pos hbreak]
      rintro rest' rfl htext
      cases text with
      | nil => exact hcrlf ⟨rfl, rfl⟩
      | cons d text => exact hreturn text rfl (by rw [(List.cons.inj htext).1])
  | case4 c text hreturn hc hnil ih =>
    have hunbroken : isLineBreak c = false := by simpa using hc
    obtain rfl := lines_eq_nil_iff.mp hnil
    have hline : Unbroken [c] := by simpa [Unbroken] using hunbroken
    refine ⟨[], .inl rfl, ?_⟩
    rw [lines_append_feed hline, lines_of_unbroken hline (List.cons_ne_nil c [])]
    rfl
  | case5 c text hreturn hc line more hlines ih =>
    have hunbroken : isLineBreak c = false := by simpa using hc
    obtain ⟨gap, hgap, happend⟩ := ih
    refine ⟨gap, hgap, ?_⟩
    rw [List.cons_append, lines_cons_of_unbroken hunbroken, happend,
      lines_cons_of_unbroken hunbroken, hlines]
    rfl

/-- A line feed ends a line, filled or not. -/
theorem filledLines_append_feed (text rest : List Char) :
    filledLines (text ++ '\n' :: rest) = filledLines text ++ filledLines rest := by
  obtain ⟨gap, hgap, hlines⟩ := lines_append_feed_eq text rest
  have hempty : gap.filter (fun line => !line.all isBlank) = [] := by
    rcases hgap with rfl | rfl <;> rfl
  rw [filledLines, hlines, List.filter_append, List.filter_append, hempty, List.nil_append]
  rfl

/-- **The filled lines of a text** are those of its pieces between line feeds. -/
theorem filledLines_eq_flatMap (text : List Char) :
    filledLines text = (splitOn '\n' text).flatMap filledLines := by
  induction hlength : text.length using Nat.strong_induction_on generalizing text with
  | _ n ih =>
    by_cases hfeed : '\n' ∈ text
    · obtain ⟨piece, rest, rfl, hpiece⟩ := List.eq_append_cons_of_mem hfeed
      rw [filledLines_append_feed, splitOn_append_sep, splitOn_of_not_mem hpiece,
        List.flatMap_append, List.flatMap_singleton,
        ih rest.length (by rw [← hlength]; simp; omega) rest rfl]
    · rw [splitOn_of_not_mem hfeed, List.flatMap_singleton]

/-- A text is blank, or has one filled line that holds what is left of it, or what is left of it goes
over several lines. -/
theorem filledLines_cases (text : List Char) :
    (text.all isBlank = true ∧ filledLines text = []) ∨
      (¬ text.all isBlank = true ∧
        ((∃ line, filledLines text = [line] ∧ strip text = strip line) ∨
          (2 ≤ (filledLines text).length ∧ ¬ Unbroken (strip text)))) := by
  induction hlength : text.length using Nat.strong_induction_on generalizing text with
  | _ n ih =>
    by_cases hne : text = []
    · subst hne
      exact .inl ⟨rfl, rfl⟩
    obtain ⟨first, boundary, rest, rfl, hlines, hboundary, hlast, hshorter⟩ :=
      exists_first_line hne
    have hbreaks : boundary.all isBlank = true :=
      List.all_eq_true.mpr fun c hc => isBlank_of_isLineBreak (hboundary c hc)
    have hrest := ih rest.length (hlength ▸ hshorter) rest rfl
    by_cases hfirst : first.all isBlank = true
    · -- The first line counts for nothing.
      have hfilled : filledLines (first ++ (boundary ++ rest)) = filledLines rest := by
        rw [filledLines, hlines, List.filter_cons_of_neg (by simp [hfirst]), filledLines]
      rw [hfilled, strip_blank_append hfirst, strip_blank_append hbreaks, List.all_append, hfirst,
        List.all_append, hbreaks, Bool.true_and, Bool.true_and]
      exact hrest
    · have hfilled : filledLines (first ++ (boundary ++ rest)) = first :: filledLines rest := by
        rw [filledLines, hlines, List.filter_cons_of_pos (by simpa using hfirst), filledLines]
      refine .inr ⟨by simp [hfirst], ?_⟩
      rcases hrest with ⟨hblank, hnone⟩ | ⟨hmore, hrest⟩
      · refine .inl ⟨first, by rw [hfilled, hnone], strip_append_blank ?_ first⟩
        rw [List.all_append, hbreaks, hblank, Bool.true_and]
      · -- Both sides of the boundary are filled, so it stays.
        refine .inr ⟨?_, fun hunbroken => ?_⟩
        · rw [hfilled, List.length_cons]
          rcases hrest with ⟨line, hline, -⟩ | ⟨hlong, -⟩
          · simp [hline]
          · omega
        · have hsome : boundary ≠ [] := fun hnil => hmore (by rw [hlast hnil]; rfl)
          obtain ⟨c, hc⟩ := List.exists_mem_of_ne_nil boundary hsome
          have hkept := (sublist_strip_append hfirst hmore boundary).subset hc
          exact absurd ((hunbroken c hkept).symm.trans (hboundary c hc)) nofun

/-- Only white space has no filled line. -/
theorem filledLines_eq_nil_iff : filledLines text = [] ↔ text.all isBlank = true := by
  rcases filledLines_cases text with ⟨hblank, hnone⟩ | ⟨hfilled, ⟨line, hline, -⟩ | ⟨hlong, -⟩⟩
  · exact iff_of_true hnone hblank
  · exact iff_of_false (by simp [hline]) hfilled
  · refine iff_of_false (fun hnone => ?_) hfilled
    rw [hnone, List.length_nil] at hlong
    omega

/-- What is left of a text with one filled line is what is left of that. -/
theorem strip_of_filledLines (h : filledLines text = [line]) : strip text = strip line := by
  rcases filledLines_cases text with ⟨-, hnone⟩ | ⟨-, ⟨line', hline, hstrip⟩ | ⟨hlong, -⟩⟩
  · rw [h] at hnone
    cases hnone
  · rw [h] at hline
    rw [hstrip, List.singleton_inj.mp hline]
  · rw [h, List.length_singleton] at hlong
    omega

/-- A text that is not blank has one filled line just if what is left of it is on one line. -/
theorem exists_filledLine_iff (h : ¬ text.all isBlank = true) :
    (∃ line, filledLines text = [line]) ↔ Unbroken (strip text) := by
  rcases filledLines_cases text with ⟨hblank, -⟩ | ⟨-, ⟨line, hline, hstrip⟩ | ⟨hlong, hbroken⟩⟩
  · exact absurd hblank h
  · refine iff_of_true ⟨line, hline⟩ fun c hc => ?_
    have hmem : line ∈ lines text := List.mem_of_mem_filter (hline ▸ List.mem_singleton_self line)
    rw [hstrip] at hc
    exact unbroken_of_mem_lines hmem c ((strip_sublist line).subset hc)
  · refine iff_of_false ?_ hbroken
    rintro ⟨line, hline⟩
    rw [hline, List.length_singleton] at hlong
    omega

/-- A line that is not blank is its only filled one. -/
theorem filledLines_of_unbroken (h : Unbroken text) (hfilled : ¬ text.all isBlank = true) :
    filledLines text = [text] := by
  have hne : text ≠ [] := by
    rintro rfl
    exact hfilled rfl
  rw [filledLines, lines_of_unbroken h hne, List.filter_cons_of_pos (by simpa using hfilled),
    List.filter_nil]

end ShellAssist.Chars
