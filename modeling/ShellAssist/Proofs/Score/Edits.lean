import ShellAssist.Score.EditDistance
import Mathlib.Data.Nat.Basic
import Mathlib.Order.Bounds.Basic
import Mathlib.Order.MinMax

namespace ShellAssist

/-!
# Edits

The distance between two texts is the least number of edits that turn one into the other. Row by row
it is found for the beginnings of both, so the recursion that it follows goes from the ends of the texts
to their beginnings; read backwards, texts are as far apart as they were.

* `Edits` — how many edits turn a text into another;
* `EditDistance.between` — the distance as a recursion on both texts;
* `EditDistance.isLeast_between` — it is the least number of edits;
* `EditDistance.rows_cells` — the rows hold it for all beginnings;
* `editDistance_isLeast` — the distance, and what it has of a metric.
-/

/-! ### Edit scripts -/

/-- One edit: somewhere in a text a character is inserted, deleted or replaced by another. -/
inductive Edit : List Char → List Char → Prop
  | insert (before after : List Char) (c : Char) : Edit (before ++ after) (before ++ c :: after)
  | delete (before after : List Char) (c : Char) : Edit (before ++ c :: after) (before ++ after)
  | substitute (before after : List Char) (c d : Char) :
      Edit (before ++ c :: after) (before ++ d :: after)

/-- The texts that so many edits, one after the other, turn a text into. -/
inductive Edits : Nat → List Char → List Char → Prop
  | none (a : List Char) : Edits 0 a a
  | cons {n : Nat} {a b c : List Char} (edit : Edit a b) (edits : Edits n b c) : Edits (n + 1) a c

namespace Edit

variable {a b : List Char}

/-- An edit can be undone. -/
theorem symm (h : Edit a b) : Edit b a := by
  cases h with
  | insert before after c => exact .delete before after c
  | delete before after c => exact .insert before after c
  | substitute before after c d => exact .substitute before after d c

/-- An edit can be made behind a character. -/
theorem behind (h : Edit a b) (c : Char) : Edit (c :: a) (c :: b) := by
  cases h with
  | insert before after d => exact .insert (c :: before) after d
  | delete before after d => exact .delete (c :: before) after d
  | substitute before after d e => exact .substitute (c :: before) after d e

/-- An edit can be made from behind. -/
theorem reverse (h : Edit a b) : Edit a.reverse b.reverse := by
  cases h with
  | insert before after c => simpa using Edit.insert after.reverse before.reverse c
  | delete before after c => simpa using Edit.delete after.reverse before.reverse c
  | substitute before after c d => simpa using Edit.substitute after.reverse before.reverse c d

/-- An edit changes the length by no more than one. -/
theorem length_le (h : Edit a b) : a.length ≤ b.length + 1 := by
  cases h <;> simp only [List.length_append, List.length_cons] <;> omega

end Edit

namespace Edits

variable {n m : Nat} {a b c : List Char}

/-- Edits that follow others add up. -/
theorem trans (h : Edits n a b) (h' : Edits m b c) : Edits (n + m) a c := by
  induction h with
  | none a => rwa [Nat.zero_add]
  | @cons n a b _ edit edits ih => exact Nat.succ_add n m ▸ .cons edit (ih h')

/-- So can edits. -/
theorem symm (h : Edits n a b) : Edits n b a := by
  induction h with
  | none a => exact .none a
  | cons edit edits ih => exact ih.trans (.cons edit.symm (.none _))

/-- So can edits. -/
theorem behind (h : Edits n a b) (c : Char) : Edits n (c :: a) (c :: b) := by
  induction h with
  | none a => exact .none (c :: a)
  | cons edit edits ih => exact .cons (edit.behind c) ih

/-- So can edits. -/
theorem reverse (h : Edits n a b) : Edits n a.reverse b.reverse := by
  induction h with
  | none a => exact .none a.reverse
  | cons edit edits ih => exact .cons edit.reverse ih

/-- Each edit makes a text longer or shorter by one character at most. -/
theorem length_le (h : Edits n a b) : a.length ≤ b.length + n := by
  induction h with
  | none a => exact Nat.le_refl _
  | cons edit edits ih =>
    have hedit := edit.length_le
    omega

/-- Without edits a text stays as it is. -/
theorem eq_of_zero (h : Edits 0 a b) : a = b := by
  cases h
  rfl

/-- A script that first changes the first characters goes on behind them. -/
theorem cons_insert (h : Edits n a b) (c : Char) : Edits (n + 1) a (c :: b) :=
  .cons (.insert [] a c) (h.behind c)

/-- A first character can be deleted by one more edit. -/
theorem cons_delete (h : Edits n a b) (c : Char) : Edits (n + 1) (c :: a) b :=
  .cons (.delete [] a c) h

/-- It can be replaced by one more edit. -/
theorem cons_substitute (h : Edits n a b) (c d : Char) : Edits (n + 1) (c :: a) (d :: b) :=
  .cons (.substitute [] a c d) (h.behind d)

end Edits

namespace EditDistance

/-! ### The distance as a recursion -/

/-- The distance between two texts: where they begin alike that of what is behind, else one more than
the least that is left after a first edit. -/
def between : List Char → List Char → Nat
  | [], b => b.length
  | a :: as, [] => (a :: as).length
  | a :: as, b :: bs =>
    if a = b then between as bs
    else 1 + min (between as (b :: bs)) (min (between (a :: as) bs) (between as bs))

/-- From nothing to a text it takes an edit for each character. -/
theorem between_nil_left (b : List Char) : between [] b = b.length := by
  rw [between]

/-- So it does back. -/
theorem between_nil_right (a : List Char) : between a [] = a.length := by
  cases a <;> rw [between]

/-- The distance is the same in both directions. -/
theorem between_comm (a b : List Char) : between a b = between b a := by
  fun_induction between a b with
  | case1 b => exact (between_nil_right b).symm
  | case2 a as => exact (between_nil_left (a :: as)).symm
  | case3 a as bs ih => rw [between, if_pos rfl, ih]
  | case4 a as b bs hne ihdelete ihinsert ihsubstitute =>
    rw [between, if_neg (Ne.symm hne), ihdelete, ihinsert, ihsubstitute, Nat.min_left_comm]

/-- A text is no edit away from itself. -/
theorem between_self (a : List Char) : between a a = 0 := by
  induction a with
  | nil => exact between_nil_left []
  | cons c a ih => rw [between, if_pos rfl, ih]

/-- A first character more or less changes the distances of a text by no more than one. Each bound needs
the other one for shorter texts: where the recursion drops both first characters, the text without its
own is left to be compared with more. -/
theorem between_cons_le_and (c : Char) (a b : List Char) :
    between (c :: a) b ≤ between a b + 1 ∧ between a b ≤ between (c :: a) b + 1 := by
  -- By the sum of the lengths, since the words change sides.
  induction hlength : a.length + b.length using Nat.strongRecOn generalizing c a b with
  | _ total ih =>
    subst hlength
    cases b with
    | nil => simp only [between_nil_right, List.length_cons]; omega
    | cons d b =>
      have hother := ih (b.length + a.length) (by simp only [List.length_cons]; omega) d b a rfl
      rw [between_comm (d :: b), between_comm b] at hother
      by_cases hcd : c = d
      · rw [between, if_pos hcd]
        omega
      · have hshorter := ih (a.length + b.length) (by simp only [List.length_cons]; omega) c a b rfl
        rw [between, if_neg hcd]
        omega

/-- Another first character makes a text no more than one edit farther from others. -/
theorem between_cons_le_cons (c d : Char) (a b : List Char) :
    between (c :: a) b ≤ between (d :: a) b + 1 := by
  cases b with
  | nil => simp only [between_nil_right, List.length_cons]; omega
  | cons e b =>
    -- The distance between what is behind the first characters bounds both sides.
    have hother := (between_cons_le_and e b a).2
    have hwithout := (between_cons_le_and d a b).2
    rw [between_comm, between_comm (e :: b)] at hother
    rw [between, between]
    split <;> split <;> omega

/-- A character in front of two texts puts neither farther from others than before. -/
theorem between_cons_le_of_le (c : Char) {a a' : List Char}
    (h : ∀ b, between a b ≤ between a' b + 1) (b : List Char) :
    between (c :: a) b ≤ between (c :: a') b + 1 := by
  induction b with
  | nil =>
    have hnil := h []
    simp only [between_nil_right, List.length_cons] at hnil ⊢
    omega
  | cons d b ih =>
    have hbehind := h b
    have hfirst := h (d :: b)
    rw [between, between]
    split <;> omega

/-- An edit changes the distances of a text by no more than one. -/
theorem between_le_of_edit {a a' : List Char} (h : Edit a a') (b : List Char) :
    between a b ≤ between a' b + 1 := by
  cases h with
  | insert before after c =>
    induction before generalizing b with
    | nil => exact (between_cons_le_and c after b).2
    | cons d before ih => exact between_cons_le_of_le d ih b
  | delete before after c =>
    induction before generalizing b with
    | nil => exact (between_cons_le_and c after b).1
    | cons d before ih => exact between_cons_le_of_le d ih b
  | substitute before after c d =>
    induction before generalizing b with
    | nil => exact between_cons_le_cons c d after b
    | cons e before ih => exact between_cons_le_of_le e ih b

/-! ### The least number of edits -/

/-- The recursion writes an edit script. -/
theorem edits_between (a b : List Char) : Edits (between a b) a b := by
  -- The cases of the recursion are the edits: an insertion, a deletion, a substitution.
  fun_induction between a b with
  | case1 b =>
    induction b with
    | nil => exact .none []
    | cons c b ih => exact ih.cons_insert c
  | case2 a as =>
    induction as generalizing a with
    | nil => exact (Edits.none []).cons_delete a
    | cons c as ih => exact (ih c).cons_delete a
  | case3 as c bs ih => exact ih.behind c
  | case4 a as b bs hne ihdelete ihinsert ihsubstitute =>
    rw [Nat.add_comm]
    rcases min_choice (between as (b :: bs)) (min (between (a :: as) bs) (between as bs)) with h | h
    · rw [h]
      exact ihdelete.cons_delete a
    rw [h]
    rcases min_choice (between (a :: as) bs) (between as bs) with h | h
    · rw [h]
      exact ihinsert.cons_insert b
    · rw [h]
      exact ihsubstitute.cons_substitute a b

/-- No script is shorter. -/
theorem between_le_of_edits {n : Nat} {a b : List Char} (h : Edits n a b) : between a b ≤ n := by
  induction h with
  | none a => exact (between_self a).le
  | @cons n a b c edit edits ih =>
    have hedit := between_le_of_edit edit c
    omega

/-- **The recursion finds the least number of edits.** -/
theorem isLeast_between (a b : List Char) : IsLeast {n | Edits n a b} (between a b) :=
  ⟨edits_between a b, fun _ h => between_le_of_edits h⟩

/-- Texts read backwards are as far apart. -/
theorem between_reverse (a b : List Char) : between a.reverse b.reverse = between a b := by
  refine le_antisymm (between_le_of_edits (edits_between a b).reverse) (between_le_of_edits ?_)
  simpa using (edits_between a.reverse b.reverse).reverse

/-- It never takes more edits than the longer text has characters. -/
theorem between_le_length (a b : List Char) : between a b ≤ max a.length b.length := by
  fun_induction between a b with
  | case1 b => exact le_max_right _ _
  | case2 a as => exact le_max_left _ _
  | case3 as c bs ih => simp only [List.length_cons]; omega
  | case4 a as b bs hne ihdelete ihinsert ihsubstitute => simp only [List.length_cons]; omega

/-! ### The rows -/

/-- The distances of a text from the beginnings of another one, from the beginning `passed` on. Both
are held backwards, as they grow. -/
def cells (text passed : List Char) : List Char → List Nat
  | [] => [between text passed]
  | c :: rest => between text passed :: cells text (c :: passed) rest

/-- A row of the table is computed from the one above. -/
theorem rowFrom_cells (a : Char) (text passed rest : List Char) :
    between (a :: text) passed :: rowFrom a (between (a :: text) passed) rest (cells text passed rest)
      = cells (a :: text) passed rest := by
  induction rest generalizing passed with
  | nil => rfl
  | cons b rest ih =>
    -- The cell above is the first one of the row from the next beginning on.
    obtain ⟨more, hmore⟩ : ∃ more, cells text (b :: passed) rest = between text (b :: passed) :: more := by
      cases rest <;> exact ⟨_, rfl⟩
    have hcell : (if a = b then between text passed else 1 + min (between text (b :: passed))
        (min (between (a :: text) passed) (between text passed)))
          = between (a :: text) (b :: passed) := by rw [between]
    rw [cells, cells, ← ih (b :: passed), hmore, rowFrom, hcell]

/-- **The row behind a text holds its distances from all beginnings of the other one.** -/
theorem rows_cells (b text rest : List Char) :
    rows b text.length rest (cells text [] b) = cells (rest.reverse ++ text) [] b := by
  induction rest generalizing text with
  | nil => rfl
  | cons a rest ih =>
    have hrow := rowFrom_cells a text [] b
    rw [between_nil_right, List.length_cons] at hrow
    rw [rows, hrow, ← List.length_cons, ih, List.reverse_cons, List.append_assoc]
    rfl

/-- The first row counts up. -/
theorem cells_nil (passed rest : List Char) :
    cells [] passed rest = List.range' passed.length (rest.length + 1) := by
  induction rest generalizing passed with
  | nil => rw [cells, between_nil_left]; rfl
  | cons c rest ih => rw [cells, between_nil_left, ih]; rfl

/-- The last cell of a row is the distance of the whole text. -/
theorem getLast?_cells (text passed rest : List Char) :
    (cells text passed rest).getLast? = some (between text (rest.reverse ++ passed)) := by
  induction rest generalizing passed with
  | nil => rfl
  | cons c rest ih =>
    rw [cells, List.getLast?_cons, ih, List.reverse_cons, List.append_assoc]
    rfl

/-- The computed distance is that of the texts. -/
theorem ofLonger_eq (a b : List Char) : ofLonger a b = between a b := by
  have hfirst : List.range (b.length + 1) = cells [] [] b := by
    rw [cells_nil, List.range_eq_range']
    rfl
  have hrows := rows_cells b [] a
  rw [List.length_nil, ← hfirst] at hrows
  rw [ofLonger, hrows, getLast?_cells, List.append_nil, List.append_nil, Option.getD_some,
    between_reverse]

end EditDistance

/-! ### The distance -/

open EditDistance

/-- It is so whichever of them is longer. -/
theorem editDistance_eq_between (a b : List Char) : editDistance a b = between a b := by
  rw [editDistance, ofLonger_eq, ofLonger_eq, between_comm b, ite_self]

/-- **The distance is the least number of edits.** There is an edit script of that length and none is
shorter. So it is the same both ways, zero for equal texts only, no less than the lengths differ, no more
than the longer one, and no more than the way over a third text. -/
theorem editDistance_isLeast (a b : List Char) :
    IsLeast {n | Edits n a b} (editDistance a b) ∧
      editDistance b a = editDistance a b ∧
      (editDistance a b = 0 ↔ a = b) ∧
      a.length ≤ b.length + editDistance a b ∧ b.length ≤ a.length + editDistance a b ∧
      editDistance a b ≤ max a.length b.length ∧
      ∀ c, editDistance a c ≤ editDistance a b + editDistance b c := by
  simp only [editDistance_eq_between]
  have hscript := edits_between a b
  refine ⟨isLeast_between a b, between_comm b a, ⟨fun hzero => ?_, ?_⟩, hscript.length_le,
    hscript.symm.length_le, between_le_length a b, fun c => ?_⟩
  · exact (hzero ▸ hscript).eq_of_zero
  · rintro rfl
    exact between_self a
  · exact between_le_of_edits (hscript.trans (edits_between b c))

/-- Words that share letters out of order. -/
example : editDistance "kitten".toList "sitting".toList = 3 := by decide

end ShellAssist
