import ShellAssist.Proofs.Line.Words

namespace ShellAssist.Line

/-!
# Names behind backslashes

A name is inserted with its special characters behind backslashes. Taking the quoting away gives the
name back; as one word it is read where all its white space is special.

* `unquote_escapeName` — escaping and unquoting;
* `unquoteFrom_sublist` — unquoting only leaves characters out;
* `unquote_quoted_eq_iff` — which texts an opening quote keeps as they are;
* `tokenize_escapeName_iff` — which escaped names are one word.
-/

/-! ### Special characters -/

/-- A character that is not special opens no quote and protects nothing. -/
theorem next_of_not_special {c : Char} (h : c ∉ specialChars) :
    c ≠ '\\' ∧ isQuote c = false ∧ Mode.next .free c = .free := by
  have hslash : c ≠ '\\' := fun hc => h (by rw [hc]; decide)
  have hquote : isQuote c = false := by
    rw [isQuote, decide_eq_false fun hc => h (by rw [hc]; decide),
      decide_eq_false fun hc => h (by rw [hc]; decide), Bool.or_false]
  exact ⟨hslash, hquote, by rw [Mode.next, if_neg hslash, hquote]; rfl⟩

/-- White space that is special. -/
theorem special_blank_iff {c : Char} :
    c ∈ specialChars ∧ Chars.isBlank c = true ↔ c = ' ' ∨ c = '\t' ∨ c = '\n' := by
  have hblanks : specialChars.filter Chars.isBlank = [' ', '\t', '\n'] := by decide
  rw [← List.mem_filter, hblanks]
  simp

/-- A special character gets a backslash. -/
theorem escapeChars_cons_special {c : Char} (h : c ∈ specialChars) (rest : List Char) :
    escapeChars (c :: rest) = '\\' :: c :: escapeChars rest := by
  simp [escapeChars, h]

/-- All others are kept. -/
theorem escapeChars_cons_plain {c : Char} (h : c ∉ specialChars) (rest : List Char) :
    escapeChars (c :: rest) = c :: escapeChars rest := by
  simp [escapeChars, h]

/-- Names are escaped part by part. -/
theorem escapeName_append (a b : String) : escapeName (a ++ b) = escapeName a ++ escapeName b := by
  simp [escapeName, escapeChars]

/-- A name is escaped character by character. -/
@[simp]
theorem toList_escapeName (name : String) : (escapeName name).toList = escapeChars name.toList := by
  rw [escapeName, String.toList_ofList]

/-- A word is unquoted from the free mode on. -/
@[simp]
theorem toList_unquote (word : String) :
    (unquote word).toList = unquoteFrom .free word.toList := by
  rw [unquote, String.toList_ofList]

/-- Only an empty name is escaped as nothing. -/
theorem escapeName_eq_empty_iff {name : String} : escapeName name = "" ↔ name = "" := by
  rw [← String.toList_eq_nil_iff, toList_escapeName, ← String.toList_eq_nil_iff]
  cases hname : name.toList with
  | nil => simp [escapeChars]
  | cons c rest =>
    by_cases h : c ∈ specialChars
    · simp [escapeChars_cons_special h]
    · simp [escapeChars_cons_plain h]

/-! ### Unquoting -/

/-- An escaped name is unquoted to the name. -/
theorem unquoteFrom_escapeChars (name : List Char) :
    unquoteFrom .free (escapeChars name) = name := by
  induction name with
  | nil => rfl
  | cons c rest ih =>
    by_cases h : c ∈ specialChars
    · rw [escapeChars_cons_special h, unquoteFrom, if_pos rfl, unquoteFrom, ih]
    · obtain ⟨hslash, hquote, -⟩ := next_of_not_special h
      rw [escapeChars_cons_plain h, unquoteFrom, if_neg hslash, hquote, if_neg (by decide), ih]

/-- **Taking the quoting off an escaped name gives the name.** -/
theorem unquote_escapeName (name : String) : unquote (escapeName name) = name := by
  rw [← String.toList_inj, toList_unquote, toList_escapeName, unquoteFrom_escapeChars]

/-- Unquoting leaves characters out and does nothing else. A backslash that has been read may come
back at the end. -/
theorem unquoteFrom_sublist (text : List Char) :
    (∀ mode, mode ≠ .escaped → (unquoteFrom mode text).Sublist text) ∧
      (unquoteFrom .escaped text).Sublist ('\\' :: text) := by
  -- Escaped is a case of its own: the backslash read before stands in front again.
  induction text with
  | nil =>
    refine ⟨fun mode hmode => ?_, List.Sublist.refl _⟩
    cases mode with
    | escaped => exact absurd rfl hmode
    | free => exact List.Sublist.refl _
    | quoted quote => exact List.Sublist.refl _
  | cons c rest ih =>
    obtain ⟨ihkept, ihescaped⟩ := ih
    have ihfree := ihkept .free nofun
    refine ⟨fun mode hmode => ?_, ?_⟩
    · cases mode with
      | escaped => exact absurd rfl hmode
      | free =>
        rw [unquoteFrom]
        split
        · rename_i hc
          rw [hc]
          exact ihescaped
        · split
          · exact (ihkept (.quoted c) nofun).cons c
          · exact ihfree.cons_cons c
      | quoted quote =>
        rw [unquoteFrom]
        split
        · exact ihfree.cons c
        · exact (ihkept (.quoted quote) nofun).cons_cons c
    · rw [unquoteFrom]
      exact (ihfree.cons_cons c).cons '\\'

/-- Unquoting puts nothing in. -/
theorem unquote_sublist (word : String) : (unquote word).toList.Sublist word.toList := by
  rw [toList_unquote]
  exact (unquoteFrom_sublist word.toList).1 .free nofun

/-- Quoted text is left as it is exactly if it does not hold the quote. -/
theorem unquoteFrom_quoted_eq_self_iff {quote : Char} {text : List Char} :
    unquoteFrom (.quoted quote) text = text ↔ quote ∉ text := by
  induction text with
  | nil => simp [unquoteFrom]
  | cons c rest ih =>
    rw [unquoteFrom]
    by_cases hc : c = quote
    · -- The quote is lost here, and nothing that follows makes up for it.
      rw [if_pos hc]
      refine iff_of_false (fun hsame => ?_) (by simp [hc])
      have hlength := ((unquoteFrom_sublist rest).1 .free nofun).length_le
      rw [hsame, List.length_cons] at hlength
      omega
    · rw [if_neg hc, List.cons_inj_right, ih, List.mem_cons, or_iff_right (Ne.symm hc)]

/-- A text behind an opening quote comes back exactly if it does not hold that quote. -/
theorem unquote_quoted_eq_iff {quote : Char} (hquote : isQuote quote = true) (text : String) :
    unquote (String.ofList [quote] ++ text) = text ↔ quote ∉ text.toList := by
  rw [← String.toList_inj, toList_unquote, String.toList_append, String.toList_ofList,
    List.singleton_append, unquoteFrom, if_neg (not_slash_of_isQuote hquote), if_pos hquote,
    unquoteFrom_quoted_eq_self_iff]

/-! ### Escaped names as words -/

/-- An escaped name is one word just if all of its white space is special. -/
theorem hasFreeBlank_escapeChars (name : List Char) :
    hasFreeBlank .free (escapeChars name) = false
      ↔ ∀ c ∈ name, Chars.isBlank c = true → c ∈ specialChars := by
  induction name with
  | nil => simp [escapeChars, hasFreeBlank]
  | cons c rest ih =>
    rw [List.forall_mem_cons, ← ih]
    by_cases h : c ∈ specialChars
    · -- The backslash is no white space, and it protects the character.
      rw [escapeChars_cons_special h]
      have hslash : Chars.isBlank '\\' = false := by decide
      simp [hasFreeBlank, Mode.next, hslash, h]
    · rw [escapeChars_cons_plain h]
      simp [hasFreeBlank, (next_of_not_special h).2.2, h]

/-- **An escaped name is one word exactly if it is not empty and all its white space is special.** -/
theorem tokenize_escapeName_iff (name : String) :
    tokenize (escapeName name) = [escapeName name] ↔ name ≠ "" ∧
      ∀ c ∈ name.toList, Chars.isBlank c = true → c = ' ' ∨ c = '\t' ∨ c = '\n' := by
  rw [tokenize_eq_singleton_iff, toList_escapeName, hasFreeBlank_escapeChars, ne_eq,
    escapeName_eq_empty_iff]
  refine and_congr_right fun _ => forall₂_congr fun c _ => forall_congr' fun hblank => ?_
  rw [← special_blank_iff, and_iff_left hblank]

end ShellAssist.Line
