import ShellAssist.Line.Context
import Mathlib.Data.List.Basic

namespace ShellAssist.Line

/-!
# Where the last word of a line begins

Words are read from left to right. At the place where a word begins no quote is open and no
backslash waits, so the words before that place are the same whatever stands behind it, and what
stands behind it is read as a line of its own.

* `wordsFrom_split` — the place where the last word begins;
* `tokenize_replaceWord` — another word in its place leaves the words before it alone;
* `tokenize_eq_singleton_iff` — which texts are one word.
-/

variable {mode : Mode} {word : Option (List Char)} {text : List Char}

theorem not_slash_of_isQuote {c : Char} (h : isQuote c = true) : c ≠ '\\' := by
  rintro rfl
  exact absurd h (by decide)

/-! ### The words from a place on -/

theorem wordsFrom_nil (mode : Mode) (word : Option (List Char)) :
    wordsFrom mode word [] = [(word.getD []).reverse] := by
  rw [wordsFrom]

theorem wordsFrom_blank {c : Char} (hmode : mode = .free) (hc : Chars.isBlank c = true)
    (word : Option (List Char)) (rest : List Char) :
    wordsFrom mode word (c :: rest)
      = word.toList.map List.reverse ++ wordsFrom .free none rest := by
  rw [wordsFrom, if_pos (by simp [hmode, hc])]

theorem wordsFrom_of_not_blank {c : Char} (h : ¬ (mode = .free ∧ Chars.isBlank c = true))
    (word : Option (List Char)) (rest : List Char) :
    wordsFrom mode word (c :: rest)
      = wordsFrom (mode.next c) (some (c :: word.getD [])) rest := by
  rw [wordsFrom, if_neg (by simpa using h)]

/-- There is always a last word. -/
theorem wordsFrom_ne_nil (mode : Mode) (word : Option (List Char)) (text : List Char) :
    wordsFrom mode word text ≠ [] := by
  induction text generalizing mode word with
  | nil => simp [wordsFrom_nil]
  | cons c rest ih =>
    by_cases h : mode = .free ∧ Chars.isBlank c = true
    · rw [wordsFrom_blank h.1 h.2]
      exact List.append_ne_nil_of_right_ne_nil _ (ih _ _)
    · rw [wordsFrom_of_not_blank h]
      exact ih _ _

/-- The last word either goes on from the word that is being read, to the end of the text, or it
begins in the text. Where it begins reading starts afresh: words put in its place come behind the
same words. -/
theorem wordsFrom_split (mode : Mode) (word : Option (List Char)) (text : List Char)
    (hmode : word = none → mode = .free) :
    ∃ before last, wordsFrom mode word text = before ++ [last] ∧
      ((∃ w, word = some w ∧ before = [] ∧ last = w.reverse ++ text) ∨
        ∃ front, text = front ++ last ∧
          ∀ other, wordsFrom mode word (front ++ other) = before ++ wordsFrom .free none other) := by
  induction text generalizing mode word with
  | nil =>
    refine ⟨[], (word.getD []).reverse, wordsFrom_nil mode word, ?_⟩
    cases word with
    | some w => exact .inl ⟨w, rfl, rfl, by simp⟩
    | none => exact .inr ⟨[], rfl, fun other => by rw [hmode rfl]; rfl⟩
  | cons c rest ih =>
    by_cases h : mode = .free ∧ Chars.isBlank c = true
    · -- White space ends the word being read, so the last word begins behind it.
      obtain ⟨before, last, hwords, hlast⟩ := ih .free none fun _ => rfl
      refine ⟨word.toList.map List.reverse ++ before, last, ?_, ?_⟩
      · rw [wordsFrom_blank h.1 h.2, hwords, List.append_assoc]
      · rcases hlast with ⟨w, hnone, -⟩ | ⟨front, hrest, hother⟩
        · cases hnone
        · refine .inr ⟨c :: front, by rw [hrest, List.cons_append], fun other => ?_⟩
          rw [List.cons_append, wordsFrom_blank h.1 h.2, hother, List.append_assoc]
    · obtain ⟨before, last, hwords, hlast⟩ :=
        ih (mode.next c) (some (c :: word.getD [])) nofun
      refine ⟨before, last, by rw [wordsFrom_of_not_blank h, hwords], ?_⟩
      rcases hlast with ⟨w, hw, rfl, hlast⟩ | ⟨front, hrest, hother⟩
      · rw [← Option.some.inj hw, List.reverse_cons, List.append_assoc, List.singleton_append]
          at hlast
        cases word with
        | some w => exact .inl ⟨w, rfl, rfl, hlast⟩
        | none =>
          -- The last word begins with this character.
          refine .inr ⟨[], hlast.symm, fun other => ?_⟩
          rw [hmode rfl]
          rfl
      · refine .inr ⟨c :: front, by rw [hrest, List.cons_append], fun other => ?_⟩
        rw [List.cons_append, wordsFrom_of_not_blank h, hother]

/-! ### Replacing the last word -/

theorem tokenizeChars_of_ne_nil (h : text ≠ []) :
    tokenizeChars text = wordsFrom .free none text := by
  rw [tokenizeChars, if_neg (by simpa using h)]

/-- The words of a line up to the last, and the last: an empty line has the empty word as well. -/
theorem wordsFrom_eq_tokenize (line : String) :
    (wordsFrom .free none line.toList).map String.ofList
      = (tokenize line).dropLast ++ [(tokenize line).getLast?.getD ""] := by
  by_cases h : line.toList = []
  · simp [tokenize, tokenizeChars, h, wordsFrom_nil]
  · rw [tokenize, tokenizeChars_of_ne_nil h]
    have hne : (wordsFrom .free none line.toList).map String.ofList ≠ [] := by
      simpa using wordsFrom_ne_nil .free none line.toList
    rw [List.getLast?_eq_some_getLast hne, Option.getD_some, List.dropLast_append_getLast hne]

/-- The text of a request before the cursor. -/
def Context.before (c : Context) : String :=
  Text.take c.cursor c.line

/-- The text before the cursor with another word in place of the one that ends there. -/
def Context.replaceWord (c : Context) (w : String) : String :=
  Text.take (c.before.length - c.word.length) c.before ++ w

/-- The place where the word under the cursor begins. -/
theorem classify_split (line : String) (cursor : Option Int) (cwd : String)
    (env : Option Environment) :
    let c := classify line cursor cwd env
    ∃ front, c.before.toList = front ++ c.word.toList ∧
      ∀ other, (wordsFrom .free none (front ++ other)).map String.ofList
        = c.previous ++ (wordsFrom .free none other).map String.ofList := by
  intro c
  obtain ⟨before, last, hwords, hlast⟩ :=
    wordsFrom_split .free none c.before.toList fun _ => rfl
  rcases hlast with ⟨w, hnone, -⟩ | ⟨front, htext, hother⟩
  · cases hnone
  · have hline : before.map String.ofList ++ [String.ofList last] = c.previous ++ [c.word] := by
      rw [← List.map_singleton, ← List.map_append, ← hwords]
      exact wordsFrom_eq_tokenize c.before
    obtain ⟨hprevious, hword⟩ := List.append_inj' hline rfl
    have hword : last = c.word.toList := by
      rw [← List.head_eq_of_cons_eq hword, String.toList_ofList]
    refine ⟨front, by rw [htext, hword], fun other => ?_⟩
    rw [hother, List.map_append, hprevious]

/-- The replacement comes behind what stands before the word. -/
theorem toList_replaceWord {c : Context} {front : List Char}
    (h : c.before.toList = front ++ c.word.toList) (w : String) :
    (c.replaceWord w).toList = front ++ w.toList := by
  have hlength : c.before.length - c.word.length = front.length := by
    rw [← String.length_toList, ← String.length_toList, h, List.length_append]
    exact Nat.add_sub_cancel front.length c.word.toList.length
  rw [Context.replaceWord, String.toList_append, Text.take, String.toList_ofList, hlength, h,
    List.take_left]

/-- At the end of a text a request is for its last word. -/
theorem classify_of_tokenize {line w : String} {previous : List String}
    (h : tokenize line = previous ++ [w]) (cwd : String) (env : Option Environment) :
    (classify line none cwd env).word = w ∧ (classify line none cwd env).previous = previous := by
  have hall : Text.take (clampCursor line.toList none) line = line := by
    rw [Text.take, clampCursor, List.take_length, String.ofList_toList]
  simp only [classify, hall, h, List.getLast?_concat, Option.getD_some, List.dropLast_concat,
    and_self]

/-- **Replacing the word under the cursor leaves the rest of the line intact.** The text before the
cursor ends with that word. With any other word in its place the line has the same words before it,
and a request at the end of the new text is for the new word behind those words. -/
theorem tokenize_replaceWord (line : String) (cursor : Option Int) (cwd : String)
    (env : Option Environment) :
    let c := classify line cursor cwd env
    Text.endsWith c.before c.word = true ∧
      ∀ w, tokenize w = [w] →
        tokenize (c.replaceWord w) = c.previous ++ [w] ∧
          ∀ cwd' env', let edited := classify (c.replaceWord w) none cwd' env'
            edited.word = w ∧ edited.previous = c.previous ∧
              edited.commandName = c.commandName ∧ edited.position = c.position := by
  intro c
  obtain ⟨front, hbefore, hother⟩ := classify_split line cursor cwd env
  refine ⟨?_, fun w hw => ?_⟩
  · rw [Text.endsWith, List.isSuffixOf_iff_suffix, hbefore]
    exact List.suffix_append _ _
  -- A text that is one word is not empty, so the words in front end where it begins.
  have hne : w.toList ≠ [] := by
    intro hnil
    simp [tokenize, tokenizeChars, hnil] at hw
  have hwords : tokenize (c.replaceWord w) = c.previous ++ [w] := by
    rw [tokenize, toList_replaceWord hbefore,
      tokenizeChars_of_ne_nil (List.append_ne_nil_of_right_ne_nil _ hne),
      hother, ← tokenizeChars_of_ne_nil hne, ← tokenize, hw]
  refine ⟨hwords, fun cwd' env' => ?_⟩
  obtain ⟨hword, hprevious⟩ := classify_of_tokenize hwords cwd' env'
  refine ⟨hword, hprevious, ?_, ?_⟩
  · rw [Context.commandName, hprevious, Context.commandName]
  · rw [Context.position, hprevious, Context.position]

/-- A file name in an opened quote, behind a name with an escaped blank; the cursor stands behind the
end. -/
theorem tokenize_replaceWord_quoted :
    let c := classify "cp a\\ b 'my f" (some 40) "/" none
    tokenize "'my file.txt" = ["'my file.txt"] ∧ c.word = "'my f" ∧
      tokenize (c.replaceWord "'my file.txt") = ["cp", "a\\ b", "'my file.txt"] := by
  intro c
  have hw : tokenize "'my file.txt" = ["'my file.txt"] := by decide
  have hprevious : c.previous = ["cp", "a\\ b"] := by decide
  refine ⟨hw, by decide, ?_⟩
  have hwords := ((tokenize_replaceWord "cp a\\ b 'my f" (some 40) "/" none).2 "'my file.txt" hw).1
  rw [hprevious] at hwords
  exact hwords

/-! ### Texts that are one word -/

/-- Whether white space stands at a place that no quote and no backslash protects. -/
def hasFreeBlank : Mode → List Char → Bool
  | _, [] => false
  | mode, c :: rest => (mode = .free && Chars.isBlank c) || hasFreeBlank (mode.next c) rest

theorem hasFreeBlank_cons_iff {c : Char} {rest : List Char} :
    hasFreeBlank mode (c :: rest) = true
      ↔ (mode = .free ∧ Chars.isBlank c = true) ∨ hasFreeBlank (mode.next c) rest = true := by
  simp [hasFreeBlank]

/-- The words have no more characters than the text. -/
theorem length_flatten_wordsFrom_le (mode : Mode) (word : Option (List Char)) (text : List Char) :
    (wordsFrom mode word text).flatten.length ≤ (word.getD []).length + text.length := by
  induction text generalizing mode word with
  | nil => simp [wordsFrom_nil]
  | cons c rest ih =>
    by_cases h : mode = .free ∧ Chars.isBlank c = true
    · have hrest := ih .free none
      rw [wordsFrom_blank h.1 h.2, List.flatten_append, List.length_append]
      cases word <;> simp at hrest ⊢ <;> omega
    · have hrest := ih (mode.next c) (some (c :: word.getD []))
      rw [wordsFrom_of_not_blank h]
      simp at hrest ⊢
      omega

/-- The word being read goes on to the end of the text exactly if no white space on the way is
free. -/
theorem wordsFrom_eq_singleton_iff (mode : Mode) (word : Option (List Char)) (text : List Char) :
    wordsFrom mode word text = [(word.getD []).reverse ++ text] ↔ hasFreeBlank mode text = false := by
  induction text generalizing mode word with
  | nil => simp [wordsFrom_nil, hasFreeBlank]
  | cons c rest ih =>
    by_cases h : mode = .free ∧ Chars.isBlank c = true
    · -- The white space belongs to no word.
      have hfree : hasFreeBlank mode (c :: rest) = true := hasFreeBlank_cons_iff.mpr (.inl h)
      rw [hfree, iff_false_right (by decide), wordsFrom_blank h.1 h.2]
      intro hsingle
      have hlength := congrArg (fun words => words.flatten.length) hsingle
      have hrest := length_flatten_wordsFrom_le .free none rest
      simp only [List.flatten_append, List.length_append] at hlength
      cases word <;> simp at hlength hrest <;> omega
    · have hfree : hasFreeBlank mode (c :: rest) = hasFreeBlank (mode.next c) rest := by
        rw [Bool.eq_iff_iff, hasFreeBlank_cons_iff, or_iff_right h]
      rw [hfree, wordsFrom_of_not_blank h, ← ih (mode.next c) (some (c :: word.getD []))]
      simp

/-- **A text is one word exactly if it is not empty and all its white space is protected.** -/
theorem tokenize_eq_singleton_iff (w : String) :
    tokenize w = [w] ↔ w ≠ "" ∧ hasFreeBlank .free w.toList = false := by
  by_cases h : w = ""
  · subst h
    simp [tokenize, tokenizeChars]
  · have hne : w.toList ≠ [] := by simpa using h
    have hsingle := wordsFrom_eq_singleton_iff .free none w.toList
    rw [Option.getD_none, List.reverse_nil, List.nil_append] at hsingle
    rw [and_iff_right h, ← hsingle, tokenize, tokenizeChars_of_ne_nil hne]
    constructor
    · intro hmap
      have hback := congrArg (List.map String.toList) hmap
      simpa using hback
    · intro hwords
      rw [hwords, List.map_singleton, String.ofList_toList]

end ShellAssist.Line
