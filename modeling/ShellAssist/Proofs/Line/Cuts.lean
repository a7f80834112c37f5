import ShellAssist.Proofs.Line.Words
import Mathlib.Data.List.Induction

namespace ShellAssist.Line

/-!
# Where a line is cut

A line is cut at white space that no quote and no backslash protects. Characters that cut the line
and characters that do not come in runs: the words are the runs that do not, in order, and all runs
together are the line again.

* `IsRun`, `runs`, `mem_runs_iff` — the maximal runs of positions on which a property is the same;
* `FreeAt`, `Closed`, `freeAt_iff` — the places that nothing protects, and what stands before them;
* `tokenize_eq_runs` — the words of a line, its runs and the line.
-/

/-! ### Maximal runs -/

/-- A stretch of the positions below `size`, from one up to, not including, another, on which the
property is the same all the way, and not so next to it on either side. -/
structure IsRun (p : Nat → Bool) (size : Nat) (run : Nat × Nat) : Prop where
  start_lt : run.1 < run.2
  stop_le : run.2 ≤ size
  same : ∀ i, run.1 ≤ i → i < run.2 → p i = p run.1
  begins : ∀ i, i + 1 = run.1 → p i ≠ p run.1
  ends : run.2 < size → p run.2 ≠ p run.1

/-- The runs among the next positions; the one being read began at `start` and goes up to `i`. -/
def runsFrom (p : Nat → Bool) (start i : Nat) : Nat → List (Nat × Nat)
  | 0 => [(start, i)]
  | more + 1 =>
    if p i = p start then runsFrom p start (i + 1) more
    else (start, i) :: runsFrom p i (i + 1) more

/-- The runs of the positions below a size, in order. -/
def runs (p : Nat → Bool) : Nat → List (Nat × Nat)
  | 0 => []
  | more + 1 => runsFrom p 0 1 more

/-- The characters at the positions of a run. -/
def cutOut (text : List Char) (run : Nat × Nat) : List Char :=
  (text.take run.2).drop run.1

variable {p : Nat → Bool} {size start i : Nat} {run : Nat × Nat}

/-- A run that began at `start` has been read up to `i`. -/
structure Begun (p : Nat → Bool) (start i : Nat) : Prop where
  start_lt : start < i
  same : ∀ j, start ≤ j → j < i → p j = p start
  begins : ∀ j, j + 1 = start → p j ≠ p start

namespace Begun

/-- The first place begins a run. -/
theorem zero (p : Nat → Bool) : Begun p 0 1 where
  start_lt := by omega
  same j _ hj := by rw [show j = 0 by omega]
  begins j hj := by omega

/-- A run goes on over places of the same kind. -/
theorem goOn (h : Begun p start i) (hi : p i = p start) : Begun p start (i + 1) where
  start_lt := by have := h.start_lt; omega
  same j hstart hj := by
    rcases Nat.lt_succ_iff_lt_or_eq.mp hj with hj | rfl
    · exact h.same j hstart hj
    · exact hi
  begins := h.begins

/-- Where the property changes, another run begins. -/
theorem next (h : Begun p start i) (hi : p i ≠ p start) : Begun p i (i + 1) where
  start_lt := by omega
  same j _ hj := by rw [show j = i by omega]
  begins j hj := by
    have hlt := h.start_lt
    rw [h.same j (by omega) (by omega)]
    exact hi.symm

/-- A run that begins in what has been read is the one being read. -/
theorem eq_start (h : Begun p start i) (hrun : IsRun p size run) (hi : i ≤ size)
    (hstart : start ≤ run.1) (hlt : run.1 < i) : run.1 = start ∧ i ≤ run.2 := by
  have hhere := h.same run.1 hstart hlt
  refine ⟨?_, ?_⟩
  · by_contra hne
    -- The position before it is in the run being read as well.
    refine hrun.begins (run.1 - 1) (by omega) ?_
    rw [hhere]
    exact h.same _ (by omega) (by omega)
  · by_contra hstop
    have hafter := hrun.start_lt
    refine hrun.ends (by omega) ?_
    rw [hhere]
    exact h.same _ (by omega) (by omega)

end Begun

/-- Reading on gives the runs that begin where the one being read does, or later. -/
theorem mem_runsFrom_iff (more : Nat) (h : Begun p start i) :
    run ∈ runsFrom p start i more ↔ IsRun p (i + more) run ∧ start ≤ run.1 := by
  induction more generalizing start i with
  | zero =>
    rw [runsFrom, List.mem_singleton]
    constructor
    · rintro rfl
      exact ⟨⟨h.start_lt, by omega, h.same, h.begins, fun hlt => by omega⟩, by omega⟩
    · rintro ⟨hrun, hstart⟩
      have hstop := hrun.stop_le
      have hbefore := hrun.start_lt
      obtain ⟨hsame, hge⟩ := h.eq_start hrun (by omega) hstart (by omega)
      exact Prod.ext hsame (by omega)
  | succ more ih =>
    rw [runsFrom]
    have hsize : i + 1 + more = i + (more + 1) := by omega
    by_cases hi : p i = p start
    · rw [if_pos hi, ih (h.goOn hi), hsize]
    · rw [if_neg hi, List.mem_cons, ih (h.next hi), hsize]
      have hlt := h.start_lt
      constructor
      · rintro (rfl | ⟨hrun, hstart⟩)
        · exact ⟨⟨hlt, by omega, h.same, h.begins, fun _ => hi⟩, by omega⟩
        · exact ⟨hrun, by omega⟩
      · rintro ⟨hrun, hstart⟩
        by_cases hlater : i ≤ run.1
        · exact .inr ⟨hrun, hlater⟩
        · -- The run being read ends here, since the property changes.
          obtain ⟨hsame, hge⟩ := h.eq_start hrun (by omega) hstart (by omega)
          refine .inl (Prod.ext hsame ?_)
          by_contra hne
          exact hi ((hrun.same i (by omega) (by omega)).trans (by rw [hsame]))

/-- Runs end where others begin. -/
theorem ascending_runsFrom (more : Nat) (h : Begun p start i) :
    (runsFrom p start i more).Pairwise fun a b => a.2 ≤ b.1 := by
  induction more generalizing start i with
  | zero => simp [runsFrom]
  | succ more ih =>
    rw [runsFrom]
    by_cases hi : p i = p start
    · rw [if_pos hi]
      exact ih (h.goOn hi)
    · rw [if_neg hi, List.pairwise_cons]
      exact ⟨fun b hb => ((mem_runsFrom_iff more (h.next hi)).mp hb).2, ih (h.next hi)⟩

/-- The runs from here on hold all characters from here on. -/
theorem flatten_runsFrom (text : List Char) (more : Nat) (hsize : i + more = text.length)
    (hstart : start ≤ i) :
    ((runsFrom p start i more).map (cutOut text)).flatten = text.drop start := by
  induction more generalizing start i with
  | zero => simp [runsFrom, cutOut, show i = text.length by omega]
  | succ more ih =>
    rw [runsFrom]
    split
    · exact ih (by omega) (by omega)
    · rw [List.map_cons, List.flatten_cons, ih (by omega) (by omega), cutOut]
      rw [← List.drop_append_of_le_length (by rw [List.length_take]; omega), List.take_append_drop]

/-- **The runs are the maximal ones**, all of them. -/
theorem mem_runs_iff : run ∈ runs p size ↔ IsRun p size run := by
  cases size with
  | zero =>
    refine ⟨nofun, fun hrun => ?_⟩
    have hlt := hrun.start_lt
    have hstop := hrun.stop_le
    omega
  | succ more =>
    rw [runs, mem_runsFrom_iff more (Begun.zero p), Nat.add_comm 1 more]
    exact and_iff_left (Nat.zero_le _)

/-- Runs end where others begin. -/
theorem ascending_runs (p : Nat → Bool) (size : Nat) :
    (runs p size).Pairwise fun a b => a.2 ≤ b.1 := by
  cases size with
  | zero => exact List.Pairwise.nil
  | succ more => exact ascending_runsFrom more (Begun.zero p)

/-- Together they are the text. -/
theorem flatten_runs (p : Nat → Bool) (text : List Char) :
    ((runs p text.length).map (cutOut text)).flatten = text := by
  cases hsize : text.length with
  | zero => rw [List.length_eq_zero_iff.mp hsize]; rfl
  | succ more => exact flatten_runsFrom text more (by omega) (by omega)

/-- The characters of a run are one or more. -/
theorem cutOut_ne_nil {text : List Char} (h : IsRun p text.length run) : cutOut text run ≠ [] := by
  have hlt := h.start_lt
  have hstop := h.stop_le
  intro hnil
  have hlength := congrArg List.length hnil
  rw [cutOut, List.length_drop, List.length_take, List.length_nil] at hlength
  omega

/-! ### Free places -/

/-- What protects the character behind a text. -/
def modeAfter (text : List Char) : Mode :=
  text.foldl Mode.next .free

/-- Whether no quote and no backslash protects the character at a position. -/
def FreeAt (text : List Char) (i : Nat) : Prop :=
  modeAfter (text.take i) = .free

instance (text : List Char) (i : Nat) : Decidable (FreeAt text i) :=
  inferInstanceAs (Decidable (_ = _))

/-- A text that leaves nothing open: plain characters, characters behind a backslash, and quoted
parts up to the same quote again, in which a backslash is a character like any other. -/
inductive Closed : List Char → Prop
  | nil : Closed []
  | plain {front : List Char} {c : Char} (hfront : Closed front) (hslash : c ≠ '\\')
      (hquote : isQuote c = false) : Closed (front ++ [c])
  | escaped {front : List Char} (hfront : Closed front) (c : Char) : Closed (front ++ ['\\', c])
  | quoted {front body : List Char} {quote : Char} (hfront : Closed front)
      (hquote : isQuote quote = true) (hbody : quote ∉ body) :
      Closed (front ++ quote :: body ++ [quote])

/-- A mode is told by the texts in order. -/
theorem modeAfter_append (front rest : List Char) :
    modeAfter (front ++ rest) = rest.foldl Mode.next (modeAfter front) := by
  rw [modeAfter, List.foldl_append, modeAfter]

/-- So it is by one more character. -/
theorem modeAfter_concat (front : List Char) (c : Char) :
    modeAfter (front ++ [c]) = (modeAfter front).next c := by
  rw [modeAfter_append]
  rfl

/-- A quote protects everything up to the same quote. -/
theorem foldl_next_quoted {quote : Char} {body : List Char} (h : quote ∉ body) :
    body.foldl Mode.next (.quoted quote) = .quoted quote := by
  induction body with
  | nil => rfl
  | cons c body ih =>
    rw [List.mem_cons, not_or] at h
    rw [List.foldl_cons, Mode.next, if_neg (Ne.symm h.1), ih h.2]

/-- Behind closed text it is the free one. -/
theorem modeAfter_of_closed {text : List Char} (h : Closed text) : modeAfter text = .free := by
  induction h with
  | nil => rfl
  | plain hfront hslash hquote ih => simp [modeAfter_concat, ih, Mode.next, hslash, hquote]
  | escaped hfront c ih => simp [modeAfter_append, ih, Mode.next]
  | quoted hfront hquote hbody ih =>
    rw [modeAfter_concat, modeAfter_append, ih, List.foldl_cons, Mode.next,
      if_neg (not_slash_of_isQuote hquote), if_pos hquote, foldl_next_quoted hbody, Mode.next,
      if_pos rfl]

/-- What stands before a place: a text that leaves nothing open, and behind it the backslash or the
beginning of the quoted part that protects the place. -/
theorem front_of_modeAfter (text : List Char) :
    match modeAfter text with
    | .free => Closed text
    | .escaped => ∃ front, Closed front ∧ text = front ++ ['\\']
    | .quoted quote => ∃ front body, Closed front ∧ isQuote quote = true ∧ quote ∉ body ∧
        text = front ++ quote :: body := by
  -- From the right: the mode after a text says how its last character may be continued.
  induction text using List.reverseRecOn with
  | nil => exact Closed.nil
  | append_singleton text c ih =>
    rw [modeAfter_concat]
    cases hmode : modeAfter text with
    | free =>
      rw [hmode] at ih
      by_cases hslash : c = '\\'
      · subst hslash
        exact ⟨text, ih, rfl⟩
      · by_cases hquote : isQuote c = true
        · simp only [Mode.next, hslash, hquote, if_true, if_false]
          exact ⟨text, [], ih, trivial, List.not_mem_nil, rfl⟩
        · simp only [Mode.next, hslash, hquote, if_false]
          exact ih.plain hslash (by simpa using hquote)
    | escaped =>
      rw [hmode] at ih
      obtain ⟨front, hfront, rfl⟩ := ih
      rw [List.append_assoc]
      exact hfront.escaped c
    | quoted quote =>
      rw [hmode] at ih
      obtain ⟨front, body, hfront, hquote, hbody, rfl⟩ := ih
      by_cases hc : c = quote
      · subst hc
        simp only [Mode.next, if_true]
        exact hfront.quoted hquote hbody
      · simp only [Mode.next, hc, if_false]
        refine ⟨front, body ++ [c], hfront, hquote, ?_, by simp⟩
        simp [hbody, Ne.symm hc]

/-- **A place is free exactly if the text before it leaves nothing open.** -/
theorem freeAt_iff (text : List Char) (i : Nat) : FreeAt text i ↔ Closed (text.take i) := by
  refine ⟨fun hfree => ?_, modeAfter_of_closed⟩
  have hfront := front_of_modeAfter (text.take i)
  rw [show modeAfter (text.take i) = .free from hfree] at hfront
  exact hfront

/-! ### Words as runs -/

/-- Whether a text is cut at a position: white space stands there, and the place is free. -/
def cuts (text : List Char) (i : Nat) : Bool :=
  decide (FreeAt text i) && text[i]?.any Chars.isBlank

variable {text : List Char}

/-- White space that is free leaves the place behind it free. -/
theorem next_of_blank {c : Char} (h : Chars.isBlank c = true) : Mode.next .free c = .free := by
  have hslash : c ≠ '\\' := by rintro rfl; revert h; decide
  have hquote : isQuote c = false := by
    rw [Bool.eq_false_iff]
    intro hquote
    rw [isQuote, Bool.or_eq_true, decide_eq_true_eq, decide_eq_true_eq] at hquote
    rcases hquote with rfl | rfl
    · revert h; decide
    · revert h; decide
  simp [Mode.next, hslash, hquote]

/-- A run that is longer by one has one more character. -/
theorem cutOut_succ {c : Char} (hstart : start ≤ i) (hc : text[i]? = some c) :
    cutOut text (start, i + 1) = cutOut text (start, i) ++ [c] := by
  have hlt : i < text.length := (List.getElem?_eq_some_iff.mp hc).1
  rw [cutOut, cutOut, List.take_add_one, hc, Option.toList_some,
    List.drop_append_of_le_length (by rw [List.length_take]; omega)]

/-- Reading one character: it ends the word being read if it cuts the text, and else belongs to it. -/
theorem wordsFrom_drop (text : List Char) (hi : i < text.length) (word : Option (List Char)) :
    wordsFrom (modeAfter (text.take i)) word (text.drop i)
      = if cuts text i then
          word.toList.map List.reverse
            ++ wordsFrom (modeAfter (text.take (i + 1))) none (text.drop (i + 1))
        else
          wordsFrom (modeAfter (text.take (i + 1))) (some (text[i] :: word.getD []))
            (text.drop (i + 1)) := by
  have hc : text[i]? = some text[i] := List.getElem?_eq_getElem hi
  have hmode : modeAfter (text.take (i + 1)) = (modeAfter (text.take i)).next text[i] := by
    rw [List.take_add_one, hc, Option.toList_some, modeAfter_concat]
  have hcut : cuts text i = true ↔
      modeAfter (text.take i) = .free ∧ Chars.isBlank text[i] = true := by
    rw [cuts, hc, Bool.and_eq_true, decide_eq_true_iff, Option.any_some, FreeAt]
  rw [List.drop_eq_getElem_cons hi, hmode]
  by_cases h : cuts text i = true
  · obtain ⟨hfree, hblank⟩ := hcut.mp h
    rw [if_pos h, wordsFrom_blank hfree hblank, hfree, next_of_blank hblank]
  · rw [if_neg h, wordsFrom_of_not_blank fun hboth => h (hcut.mpr hboth)]

/-- The words from a place on are the runs from there on that do not cut the text. The run being read
is what there is of the word being read, unless it cuts the text. -/
theorem wordsFrom_eq_runsFrom (text : List Char) (more : Nat) (hsize : i + more = text.length)
    (h : Begun (cuts text) start i) :
    wordsFrom (modeAfter (text.take i))
        (if cuts text start then none else some (cutOut text (start, i)).reverse) (text.drop i)
      = ((runsFrom (cuts text) start i more).filter fun run => !cuts text run.1).map (cutOut text)
        ++ if cuts text (text.length - 1) then [[]] else [] := by
  induction more generalizing start i with
  | zero =>
    have hlast : cuts text (text.length - 1) = cuts text start := by
      have hlt := h.start_lt
      exact h.same _ (by omega) (by omega)
    rw [List.drop_eq_nil_of_le (by omega), wordsFrom_nil, runsFrom, hlast]
    cases hstart : cuts text start <;> simp [hstart]
  | succ more ih =>
    have hlt : i < text.length := by omega
    have hc : text[i]? = some text[i] := List.getElem?_eq_getElem hlt
    rw [wordsFrom_drop text hlt, runsFrom]
    -- The run goes on where both agree on cutting the text; else a word ends or begins here.
    cases hi : cuts text i <;> cases hstart : cuts text start
    · have hrest := ih (by omega) (h.goOn (by rw [hi, hstart]))
      rw [cutOut_succ (Nat.le_of_lt h.start_lt) hc] at hrest
      simpa [hstart] using hrest
    · have hrest := ih (by omega) (h.next (by rw [hi, hstart]; decide))
      rw [cutOut_succ (Nat.le_refl i) hc] at hrest
      simpa [hi, hstart, cutOut] using hrest
    · have hrest := ih (by omega) (h.next (by rw [hi, hstart]; decide))
      simpa [hi, hstart] using hrest
    · have hrest := ih (by omega) (h.goOn (by rw [hi, hstart]))
      simpa [hstart] using hrest

/-- The words are the runs between cuts, and an empty one behind a last cut. -/
theorem tokenizeChars_eq_runs (text : List Char) :
    tokenizeChars text
      = ((runs (cuts text) text.length).filter fun run => !cuts text run.1).map (cutOut text)
        ++ if cuts text (text.length - 1) then [[]] else [] := by
  cases hsize : text.length with
  | zero => rw [List.length_eq_zero_iff.mp hsize]; rfl
  | succ more =>
    have hne : text ≠ [] := List.ne_nil_of_length_eq_add_one hsize
    have hfirst := wordsFrom_drop text (show 0 < text.length by omega) none
    have hwords := wordsFrom_eq_runsFrom text more (by omega) (Begun.zero _)
    rw [hsize, cutOut_succ (Nat.le_refl 0) (List.getElem?_eq_getElem (by omega))] at hwords
    rw [tokenizeChars_of_ne_nil hne, runs, ← hwords]
    refine hfirst.trans ?_
    cases cuts text 0 <;> simp [cutOut]

/-- **The words of a line are its maximal runs of characters that do not cut it**, in order, and behind
them one empty word exactly if the line ends with a character that does. A place is free where
nothing before it is left open. All runs together are the line, so that its words and the white space
between them give it back, and no word but the last is empty. -/
theorem tokenize_eq_runs (line : String) :
    let text := line.toList
    let all := runs (cuts text) text.length
    (∀ i, cuts text i = true ↔
        Closed (text.take i) ∧ ∃ c, text[i]? = some c ∧ Chars.isBlank c = true) ∧
      (∀ run, run ∈ all ↔ IsRun (cuts text) text.length run) ∧
      all.Pairwise (fun a b => a.2 ≤ b.1) ∧
      tokenize line
        = ((all.filter fun run => !cuts text run.1).map fun run => String.ofList (cutOut text run))
          ++ (if cuts text (text.length - 1) then [""] else []) ∧
      (all.map (cutOut text)).flatten = text ∧
      ∀ word ∈ (tokenize line).dropLast, word ≠ "" := by
  intro text all
  have hwords : tokenize line
      = ((all.filter fun run => !cuts text run.1).map fun run => String.ofList (cutOut text run))
        ++ (if cuts text (text.length - 1) then [""] else []) := by
    rw [tokenize, tokenizeChars_eq_runs, List.map_append, List.map_map]
    congr 1
    split <;> rfl
  refine ⟨fun i => ?_, fun run => mem_runs_iff, ascending_runs _ _, hwords, flatten_runs _ _, ?_⟩
  · rw [cuts, Bool.and_eq_true, decide_eq_true_iff, freeAt_iff, Option.any_eq_true]
  · intro word hword
    -- The last word may be the empty one behind a blank; every word before it is a run.
    have hmem : word ∈ (all.filter fun run => !cuts text run.1).map
        fun run => String.ofList (cutOut text run) := by
      rw [hwords] at hword
      split at hword
      · rwa [List.dropLast_concat] at hword
      · rw [List.append_nil] at hword
        exact List.dropLast_subset _ hword
    obtain ⟨run, hrun, rfl⟩ := List.mem_map.mp hmem
    intro hempty
    refine cutOut_ne_nil (mem_runs_iff.mp (List.mem_filter.mp hrun).1) ?_
    simpa using hempty

example : tokenize "a\\ b 'c d'\t " = ["a\\ b", "'c d'", ""] := by decide

end ShellAssist.Line
