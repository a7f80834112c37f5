import ShellAssist.History.Dialect.Bash
import Mathlib.Data.List.Infix

namespace ShellAssist

/-!
# Lines and their texts

A text can be written from lines in two ways: with a line feed behind each, or with line feeds
between them only. Both are read as the same lines.

* `Chars.lines_ofLines`, `Chars.lines_joinLines` — the lines of a text that is written from lines;
* `Chars.joinLines_lines` — a text is its lines, joined;
* `Chars.unifyNewlines_append_cons` — with line feeds for all line ends.
-/

namespace Chars

open History.Bash (joinLines)

variable {line text : List Char} {ls : List (List Char)}

/-- A text without a line boundary. -/
def Unbroken (line : List Char) : Prop :=
  ∀ c ∈ line, isLineBreak c = false

instance (line : List Char) : Decidable (Unbroken line) :=
  List.decidableBAll _ line

/-- Lines that are put one behind the other are a line. -/
theorem Unbroken.append (h : Unbroken line) (htext : Unbroken text) : Unbroken (line ++ text) :=
  List.forall_mem_append.mpr ⟨h, htext⟩

/-- A text with no line boundaries but line feeds. -/
def FeedsOnly (text : List Char) : Prop :=
  ∀ c ∈ text, c = '\n' ∨ isLineBreak c = false

instance (text : List Char) : Decidable (FeedsOnly text) :=
  List.decidableBAll _ text

/-- The text of lines, each with a line feed behind it. -/
def ofLines (ls : List (List Char)) : List Char :=
  ls.flatMap (· ++ ['\n'])

@[simp] theorem ofLines_nil : ofLines [] = [] := rfl

@[simp] theorem ofLines_cons (line : List Char) (ls : List (List Char)) :
    ofLines (line :: ls) = line ++ '\n' :: ofLines ls := by
  simp [ofLines]

@[simp] theorem ofLines_append (ls ms : List (List Char)) :
    ofLines (ls ++ ms) = ofLines ls ++ ofLines ms :=
  List.flatMap_append

/-! ### The lines of a text -/

/-- A character that ends no line belongs to the first one. -/
theorem lines_cons_of_unbroken {c : Char} (hc : isLineBreak c = false) (rest : List Char) :
    lines (c :: rest) = match lines rest with
      | [] => [[c]]
      | line :: more => (c :: line) :: more := by
  -- A carriage return might take a line feed along, but it is a boundary itself.
  have hreturn : c ≠ '\r' := by
    rintro rfl
    exact absurd hc (by decide)
  rw [lines.eq_3 c rest fun _ h => absurd h hreturn]
  exact if_neg (by rw [hc]; decide)

/-- A line ends at the line feed behind it. -/
theorem lines_append_feed (h : Unbroken line) (rest : List Char) :
    lines (line ++ '\n' :: rest) = line :: lines rest := by
  induction line with
  | nil => rfl
  | cons c line ih =>
    rw [List.cons_append, lines_cons_of_unbroken (h c List.mem_cons_self),
      ih fun d hd => h d (List.mem_cons_of_mem _ hd)]

/-- A line is the only one of itself. -/
theorem lines_of_unbroken (h : Unbroken line) (hne : line ≠ []) : lines line = [line] := by
  induction line with
  | nil => exact absurd rfl hne
  | cons c line ih =>
    rw [lines_cons_of_unbroken (h c List.mem_cons_self)]
    by_cases hline : line = []
    · rw [hline]
      rfl
    · rw [ih (fun d hd => h d (List.mem_cons_of_mem _ hd)) hline]

/-- A text that ends in a line feed is read as the lines that it is written from. -/
theorem lines_ofLines (h : ∀ l ∈ ls, Unbroken l) : lines (ofLines ls) = ls := by
  induction ls with
  | nil => rfl
  | cons l ls ih =>
    rw [ofLines_cons, lines_append_feed (h l List.mem_cons_self),
      ih fun m hm => h m (List.mem_cons_of_mem _ hm)]

/-! ### Lines with line feeds between them -/

/-- Lines are joined by line feeds. -/
theorem joinLines_cons (l : List Char) (hne : ls ≠ []) :
    joinLines (l :: ls) = l ++ '\n' :: joinLines ls := by
  obtain ⟨m, ls, rfl⟩ := List.exists_cons_of_ne_nil hne
  rw [joinLines, List.intercalate_cons_cons, joinLines, List.append_assoc]
  rfl

/-- With another line feed they are the text of a file. -/
theorem joinLines_append_feed (hne : ls ≠ []) : joinLines ls ++ ['\n'] = ofLines ls := by
  induction ls with
  | nil => exact absurd rfl hne
  | cons l ls ih =>
    rw [ofLines_cons]
    by_cases hls : ls = []
    · subst hls
      rw [joinLines, List.intercalate_singleton, ofLines_nil]
    · rw [joinLines_cons l hls, List.append_assoc, List.cons_append, ih hls]

/-- A text in front of the first line stays there. -/
theorem joinLines_append_cons (text l : List Char) (ls : List (List Char)) :
    joinLines ((text ++ l) :: ls) = text ++ joinLines (l :: ls) := by
  cases ls with
  | nil => rw [joinLines, List.intercalate_singleton, joinLines, List.intercalate_singleton]
  | cons m ls =>
    rw [joinLines_cons _ (List.cons_ne_nil m ls), joinLines_cons _ (List.cons_ne_nil m ls),
      List.append_assoc]

/-- The text of a file is longer by one. -/
theorem length_joinLines (hne : ls ≠ []) : (joinLines ls).length + 1 = (ofLines ls).length := by
  rw [← joinLines_append_feed hne, List.length_append, List.length_singleton]

/-- The last line is read without a line feed behind it, if there is anything in it. -/
theorem lines_joinLines (h : ∀ l ∈ ls, Unbroken l) (hlast : ∀ l ∈ ls.getLast?, l ≠ []) :
    lines (joinLines ls) = ls := by
  induction ls with
  | nil => rfl
  | cons l ls ih =>
    have hl := h l List.mem_cons_self
    by_cases hne : ls = []
    · subst hne
      rw [joinLines, List.intercalate_singleton]
      exact lines_of_unbroken hl (hlast l rfl)
    · rw [joinLines_cons l hne, lines_append_feed hl,
        ih (fun m hm => h m (List.mem_cons_of_mem _ hm))]
      rwa [List.getLast?_cons_of_ne_nil hne] at hlast

/-- Joining lines group by group is joining them all. -/
theorem joinLines_flatMap {α : Type} {f : α → List (List Char)} {xs : List α}
    (h : ∀ x ∈ xs, f x ≠ []) : joinLines (xs.map fun x => joinLines (f x)) = joinLines (xs.flatMap f) := by
  by_cases hne : xs = []
  · rw [hne]
    rfl
  · obtain ⟨x, hx⟩ := List.exists_mem_of_ne_nil xs hne
    have hflat : xs.flatMap f ≠ [] := fun hnil => h x hx (List.flatMap_eq_nil_iff.mp hnil x hx)
    refine List.append_cancel_right (?_ : _ ++ ['\n'] = _ ++ ['\n'])
    rw [joinLines_append_feed (by simpa using hne), joinLines_append_feed hflat]
    -- Behind every group stands a line feed, as behind every line.
    clear hflat hne hx
    induction xs with
    | nil => rfl
    | cons x xs ih =>
      rw [List.map_cons, ofLines_cons, List.flatMap_cons, ofLines_append,
        ih fun y hy => h y (List.mem_cons_of_mem _ hy),
        ← joinLines_append_feed (h x List.mem_cons_self), List.append_assoc]
      rfl

/-- What holds of a line feed and of all lines holds of the joined text. -/
theorem all_joinLines {p : Char → Bool} (hp : p '\n' = true) :
    (joinLines ls).all p = ls.all fun l => l.all p := by
  induction ls with
  | nil => rfl
  | cons l ls ih =>
    by_cases hne : ls = []
    · subst hne
      simp [joinLines]
    · rw [joinLines_cons l hne, List.all_append, List.all_cons, hp, Bool.true_and, ih,
        List.all_cons]

/-- A text of lines ends as the last of them does, if there is anything in it. -/
theorem getLast?_joinLines (h : ls.getLast? = some line) (hne : line ≠ []) :
    (joinLines ls).getLast? = line.getLast? := by
  induction ls with
  | nil => cases h
  | cons l ls ih =>
    by_cases hls : ls = []
    · subst hls
      obtain rfl : l = line := Option.some.inj h
      rw [joinLines, List.intercalate_singleton]
    · rw [List.getLast?_cons_of_ne_nil hls] at h
      have hjoin := ih h
      -- The last line has a character, so the text joined behind the first one is not empty.
      have hfilled : joinLines ls ≠ [] := by
        intro hnil
        rw [hnil, List.getLast?_nil, eq_comm, List.getLast?_eq_none_iff] at hjoin
        exact hne hjoin
      rw [joinLines_cons l hls, List.getLast?_append_of_ne_nil _ (List.cons_ne_nil _ _),
        List.getLast?_cons_of_ne_nil hfilled, hjoin]

/-! ### A text from its lines -/

/-- Only an empty text has no lines. -/
theorem lines_eq_nil_iff : lines text = [] ↔ text = [] := by
  constructor
  · intro h
    unfold lines at h
    split at h
    · rfl
    · cases h
    · split at h
      · cases h
      · split at h <;> cases h
  · rintro rfl
    rfl

/-- A line holds no line end. -/
theorem unbroken_of_mem_lines (h : line ∈ lines text) : Unbroken line := by
  -- A line is built up by characters that break nothing; every break begins an empty one.
  induction text using lines.induct generalizing line with
  | case1 => cases h
  | case2 rest ih =>
    rcases List.mem_cons.mp h with rfl | h
    · exact fun c hc => nomatch hc
    · exact ih h
  | case3 c rest hreturn hbreak ih =>
    rw [lines, if_pos hbreak] at h
    · rcases List.mem_cons.mp h with rfl | h
      · exact fun c hc => nomatch hc
      · exact ih h
    · exact hreturn
  | case4 c rest hreturn hc hnil ih =>
    rw [lines_cons_of_unbroken (by simpa using hc), hnil] at h
    obtain rfl := List.mem_singleton.mp h
    intro d hd
    obtain rfl := List.mem_singleton.mp hd
    simpa using hc
  | case5 c rest hreturn hc first more hlines ih =>
    rw [lines_cons_of_unbroken (by simpa using hc), hlines] at h
    rcases List.mem_cons.mp h with rfl | h
    · intro d hd
      rcases List.mem_cons.mp hd with rfl | hd
      · simpa using hc
      · exact ih (hlines ▸ List.mem_cons_self) d hd
    · exact ih (hlines ▸ List.mem_cons_of_mem _ h)

/-- A text whose only line boundaries are line feeds between its lines is its lines, joined. -/
theorem joinLines_lines (hfeeds : FeedsOnly text) (hlast : text.getLast? ≠ some '\n') :
    joinLines (lines text) = text := by
  induction text with
  | nil => rfl
  | cons c rest ih =>
    have hrest : FeedsOnly rest := fun d hd => hfeeds d (List.mem_cons_of_mem c hd)
    -- A newline at the end would be lost, since no line stands behind it.
    by_cases hne : rest = []
    · subst hne
      rcases hfeeds c List.mem_cons_self with rfl | hc
      · exact absurd rfl hlast
      · rw [lines_cons_of_unbroken hc]
        rfl
    · have hlines : lines rest ≠ [] := fun h => hne (lines_eq_nil_iff.mp h)
      rw [List.getLast?_cons_of_ne_nil hne] at hlast
      rcases hfeeds c List.mem_cons_self with rfl | hc
      · show joinLines ([] :: lines rest) = _
        rw [joinLines_cons [] hlines, ih hrest hlast]
        rfl
      · obtain ⟨line, more, hcons⟩ := List.exists_cons_of_ne_nil hlines
        have ih := ih hrest hlast
        rw [lines_cons_of_unbroken hc, hcons]
        rw [hcons] at ih
        rw [← ih]
        exact joinLines_append_cons [c] line more

/-- The last line of such a text is not empty. -/
theorem getLast?_lines_ne_nil (hfeeds : FeedsOnly text) (hlast : text.getLast? ≠ some '\n') :
    (lines text).getLast? ≠ some [] := by
  intro h
  obtain ⟨before, hlines⟩ := List.getLast?_eq_some_iff.mp h
  have hne : lines text ≠ [] := by simp [hlines]
  have htext := joinLines_append_feed hne
  rw [joinLines_lines hfeeds hlast, hlines, ofLines_append, ofLines_cons, ofLines_nil,
    List.nil_append, List.append_left_inj] at htext
  by_cases hbefore : before = []
  · -- An empty text has no lines.
    rw [htext, hbefore] at h
    cases h
  · rw [htext, ← joinLines_append_feed hbefore, List.getLast?_concat] at hlast
    exact hlast rfl

/-! ### One spelling of the line ends -/

/-- A character that is no part of a line end stays. -/
theorem unifyNewlines_cons {c : Char} (hc : c ≠ '\r') (rest : List Char) :
    unifyNewlines (c :: rest) = c :: unifyNewlines rest :=
  unifyNewlines.eq_4 c rest (fun _ heq => absurd heq hc) hc

/-- Without carriage returns no line end is changed. -/
theorem unifyNewlines_eq_self (h : '\r' ∉ text) : unifyNewlines text = text := by
  induction text with
  | nil => rfl
  | cons c text ih =>
    obtain ⟨hc, htext⟩ := not_or.mp (List.mem_cons.not.mp h)
    rw [unifyNewlines_cons (Ne.symm hc), ih htext]

/-- No carriage return is left. -/
theorem return_not_mem_unifyNewlines (text : List Char) : '\r' ∉ unifyNewlines text := by
  fun_induction unifyNewlines text with
  | case1 => exact List.not_mem_nil
  | case2 rest ih => exact List.not_mem_cons_of_ne_of_not_mem (by decide) ih
  | case3 rest _ ih => exact List.not_mem_cons_of_ne_of_not_mem (by decide) ih
  | case4 c rest _ hreturn ih => exact List.not_mem_cons_of_ne_of_not_mem (Ne.symm hreturn) ih

/-- Only line feeds come in. -/
theorem mem_of_mem_unifyNewlines {c : Char} (hfeed : c ≠ '\n') (h : c ∈ unifyNewlines text) :
    c ∈ text := by
  fun_induction unifyNewlines text with
  | case1 => exact h
  | case2 rest ih =>
    exact List.mem_cons_of_mem _ (List.mem_cons_of_mem _ (ih ((List.mem_cons.mp h).resolve_left hfeed)))
  | case3 rest _ ih => exact List.mem_cons_of_mem _ (ih ((List.mem_cons.mp h).resolve_left hfeed))
  | case4 d rest _ _ ih =>
    exact List.mem_cons.mpr ((List.mem_cons.mp h).imp_right ih)

/-- Only an empty text is read as empty. -/
theorem unifyNewlines_eq_nil_iff : unifyNewlines text = [] ↔ text = [] := by
  fun_cases unifyNewlines text <;> simp

/-- The line ends before a character and those behind it are told apart, unless it is one itself. -/
theorem unifyNewlines_append_cons {c : Char} (hfeed : c ≠ '\n') (hreturn : c ≠ '\r')
    (text rest : List Char) :
    unifyNewlines (text ++ c :: rest) = unifyNewlines text ++ c :: unifyNewlines rest := by
  fun_induction unifyNewlines text with
  | case1 => exact unifyNewlines_cons hreturn rest
  | case2 text ih => exact congrArg ('\n' :: ·) ih
  | case3 text hpair ih =>
    -- What stands behind the carriage return is no line feed, even at the end of the text.
    have hnot : ∀ rest', text ++ c :: rest ≠ '\n' :: rest' := by
      cases text with
      | nil => exact fun _ heq => hfeed (List.cons.inj heq).1
      | cons d text => exact fun _ heq => hpair text (congrArg (· :: text) (List.cons.inj heq).1)
    rw [List.cons_append, unifyNewlines.eq_3 _ hnot, ih]
    rfl
  | case4 d text _ hd ih => rw [List.cons_append, unifyNewlines_cons hd, ih]; rfl

end Chars

end ShellAssist
