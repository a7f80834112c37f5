import ShellAssist.Proofs.History.ZshRecords
import Mathlib.Algebra.Order.BigOperators.Group.List

namespace ShellAssist.History.Zsh

open Chars (ofLines)
open Bash (joinLines continued?)

/-!
# What a zsh history can lose

Reading adds nothing: the commands of a file are no longer than its lines without their heads. So where
they are as long, nothing was lost at any line.

* `size_entriesFrom_le` — reading adds nothing;
* `timed_of_entriesFrom`, `untimed_of_entriesFrom` — which commands have times;
* `bare_of_size` — lines without heads of which nothing is lost are commands of their own.
-/

variable {e : Entry} {line : List Char} {ls : List (List Char)} {p : Pending}

/-! ### What reading loses -/

/-- The count of characters of lines in a file. -/
def size (ls : List (List Char)) : Nat :=
  (ofLines ls).length

@[simp] theorem size_nil : size [] = 0 := rfl

@[simp] theorem size_cons (line : List Char) (ls : List (List Char)) :
    size (line :: ls) = line.length + 1 + size ls := by
  simp [size]
  omega

@[simp] theorem size_append (ls ms : List (List Char)) : size (ls ++ ms) = size ls + size ms := by
  simp [size]

/-- Each line counts with the line feed behind it. -/
theorem size_eq_sum (ls : List (List Char)) : size ls = (ls.map fun l => l.length + 1).sum := by
  rw [size, ofLines, List.length_flatMap]
  simp only [List.length_append, List.length_singleton]

/-- Lines that are put one behind the other count one by one. -/
theorem size_flatMap {α : Type} (f : α → List (List Char)) (xs : List α) :
    size (xs.flatMap f) = (xs.map fun x => size (f x)).sum := by
  induction xs with
  | nil => rfl
  | cons x xs ih => rw [List.flatMap_cons, size_append, ih, List.map_cons, List.sum_cons]

/-- The commands of entries. -/
def commandsOf (es : List Entry) : List (List Char) :=
  es.map (·.command.toList)

/-- A line without its head. -/
def body (line : List Char) : List Char :=
  match head? line with
  | some (_, _, command) => command
  | none => line

/-- A text is its digits and what stands behind them. -/
theorem append_of_span {text digits more : List Char}
    (h : text.span Chars.isDecimalDigit = (digits, more)) : text = digits ++ more := by
  rw [List.span_eq_takeWhile_dropWhile, Prod.mk.injEq] at h
  rw [← h.1, ← h.2, List.takeWhile_append_dropWhile]

/-- The command behind a head is shorter than the line. -/
theorem length_of_head? {seconds duration command : List Char}
    (h : head? line = some (seconds, duration, command)) : command.length < line.length := by
  unfold head? at h
  split at h
  · split at h
    · rename_i hseconds
      split at h
      · rename_i hduration
        split at h
        · cases h
        · cases h
          -- The head is cut off in front of the command, so at least its marks are gone.
          rw [append_of_span hseconds, append_of_span hduration]
          simp
          omega
      · cases h
    · cases h
  · cases h

/-- Behind a head stands the command. -/
theorem body_of_head? {seconds duration command : List Char}
    (h : head? line = some (seconds, duration, command)) : body line = command := by
  rw [body, h]

/-- A line that is no head is all there is. -/
theorem body_of_unheaded (h : head? line = none) : body line = line := by
  rw [body, h]

/-- So are all lines if none is a head. -/
theorem map_body (h : ∀ l ∈ ls, head? l = none) : ls.map body = ls := by
  rw [List.map_congr_left fun l hl => body_of_unheaded (h l hl), List.map_id']

/-- Without its head, a line is shorter. -/
theorem length_body_le (line : List Char) :
    (body line).length ≤ line.length ∧ (line.length ≤ (body line).length → head? line = none) := by
  cases hhead : head? line with
  | some found =>
    obtain ⟨seconds, duration, command⟩ := found
    have hlength := length_of_head? hhead
    rw [body_of_head? hhead]
    exact ⟨hlength.le, fun h => absurd hlength (not_lt.mpr h)⟩
  | none =>
    rw [body_of_unheaded hhead]
    exact ⟨le_refl _, fun _ => rfl⟩

/-- What is done with one line: it is a head, goes on with the command before it, is passed over, or
begins a command without a time. -/
inductive LineRead (p : Pending) (line : List Char) (rest : List (List Char)) (out : List Entry) :
    Prop
  | head {seconds duration command : List Char} {times : Int × Int} {more : List Entry}
      (hhead : head? line = some (seconds, duration, command))
      (hrest : entriesFrom { lines := [command], times := some times } rest = .ok more)
      (hout : out = p.finish ++ more)
  | joined {longer : Pending} (hhead : head? line = none) (hlonger : p.continue? line = some longer)
      (hrest : entriesFrom longer rest = .ok out)
  | skipped (hhead : head? line = none) (hblank : line.all Chars.isBlank = true)
      (hlonger : p.continue? line = none) (hrest : entriesFrom p rest = .ok out)
  | bare {more : List Entry} (hhead : head? line = none)
      (hfilled : line.all Chars.isBlank = false) (hlonger : p.continue? line = none)
      (hrest : entriesFrom { lines := [line] } rest = .ok more) (hout : out = p.finish ++ more)

/-- A line that is read without failing is read in one of these ways. -/
theorem entriesFrom_cons_ok {out : List Entry} (h : entriesFrom p (line :: ls) = .ok out) :
    LineRead p line ls out := by
  rw [entriesFrom] at h
  -- The branches of the reader in turn: a head, a continued line, a blank one, a command.
  cases hhead : head? line with
  | some found =>
    obtain ⟨seconds, duration, command⟩ := found
    rw [hhead] at h
    obtain ⟨m, -, h⟩ := bind_ok_iff.mp h
    obtain ⟨n, -, h⟩ := bind_ok_iff.mp h
    obtain ⟨more, hrest, h⟩ := bind_ok_iff.mp h
    exact .head hhead hrest (Except.ok.inj h).symm
  | none =>
    rw [hhead] at h
    dsimp only at h
    split at h
    · rename_i hlonger
      exact .joined hhead hlonger h
    · rename_i hlonger
      split at h
      · rename_i hblank
        exact .skipped hhead hblank hlonger h
      · rename_i hfilled
        obtain ⟨more, hrest, hout⟩ := map_ok_iff.mp h
        exact .bare hhead (by simpa using hfilled) hlonger hrest hout.symm

/-- A line that another follows ends in a backslash. -/
theorem eq_of_continued? {text : List Char} (h : continued? line = some text) :
    line = text ++ ['\\'] := by
  rw [continued?] at h
  split at h
  · rename_i hlast
    cases h
    exact (List.dropLast_append_getLast? _ hlast).symm
  · cases h

/-- A line that goes on with a command is put behind its lines; a backslash there is lost. -/
theorem continue?_eq_some {longer : Pending} (h : p.continue? line = some longer) :
    longer.times = p.times ∧ longer.lines ≠ [] ∧ size longer.lines ≤ size p.lines + size [line] ∧
      (p.times = none → size longer.lines < size p.lines + size [line]) := by
  rw [Pending.continue?] at h
  split at h
  · cases h
  · rename_i last hlast
    obtain ⟨before, hlines⟩ := List.getLast?_eq_some_iff.mp hlast
    split at h
    -- A backslash at the end is dropped; a record with a time takes any other line whole.
    · rename_i text htext
      cases h
      rw [hlines, eq_of_continued? htext, List.dropLast_concat]
      refine ⟨rfl, by simp, ?_, fun _ => ?_⟩ <;>
        · simp
          omega
    · split at h
      · rename_i hsome
        cases h
        exact ⟨rfl, by simp, by simp, fun hnone => by simp [hnone] at hsome⟩
      · cases h

/-- A finished command is no longer than its lines. -/
theorem size_finish_le (p : Pending) : size (commandsOf p.finish) ≤ size p.lines := by
  rw [Pending.finish]
  by_cases hlines : p.lines = []
  · rw [hlines]
    exact le_refl _
  · have hfeeds : (dropFeeds (joinLines p.lines)).length ≤ (joinLines p.lines).length := by
      rw [dropFeeds, Chars.dropEndWhile, List.length_reverse]
      exact (List.dropWhile_sublist _).length_le.trans (List.length_reverse).le
    have hsize := Chars.length_joinLines hlines
    split
    · exact Nat.zero_le _
    · simp only [commandsOf, List.map_cons, List.map_nil, size_cons, size_nil, String.toList_ofList]
      rw [size, ← hsize]
      omega

/-- Reading adds nothing: the commands are no longer than the lines without their heads. -/
theorem size_entriesFrom_le {out : List Entry} (h : entriesFrom p ls = .ok out) :
    size (commandsOf out) ≤ size p.lines + size (ls.map body) := by
  -- For any command that is pending, since each line may add to it.
  induction ls generalizing p out with
  | nil =>
    cases h
    exact size_finish_le p
  | cons line ls ih =>
    rw [List.map_cons, size_cons]
    cases entriesFrom_cons_ok h with
    | head hhead hrest hout =>
      have hmore := ih hrest
      have hfinish := size_finish_le p
      rw [hout, commandsOf, List.map_append, size_append, body_of_head? hhead]
      simp only [commandsOf, size_cons, size_nil] at hmore hfinish ⊢
      omega
    | joined hhead hlonger hrest =>
      have hlines := (continue?_eq_some hlonger).2.2.1
      have hmore := ih hrest
      rw [body_of_unheaded hhead]
      simp only [size_cons, size_nil] at hlines
      omega
    | skipped hhead hblank hlonger hrest =>
      have hmore := ih hrest
      omega
    | bare hhead hfilled hlonger hrest hout =>
      have hmore := ih hrest
      have hfinish := size_finish_le p
      rw [hout, commandsOf, List.map_append, size_append, body_of_unheaded hhead]
      simp only [commandsOf, size_cons, size_nil] at hmore hfinish ⊢
      omega

/-- A finished command has the time that it began with. -/
theorem timestamp_of_mem_finish (h : e ∈ p.finish) : e.timestamp = p.times.map (·.1) := by
  rw [Pending.finish] at h
  split at h
  · cases h
  · rw [List.mem_singleton.mp h]

/-- Behind a head all commands have times. -/
theorem timed_of_entriesFrom {out : List Entry} (hlines : p.lines ≠ [])
    (htimes : p.times.isSome = true) (h : entriesFrom p ls = .ok out) :
    ∀ e ∈ out, e.timestamp.isSome = true := by
  induction ls generalizing p out with
  | nil =>
    cases h
    intro e he
    rwa [timestamp_of_mem_finish he, Option.isSome_map]
  | cons line ls ih =>
    -- Whatever is no head goes on with the command.
    have hjoins : p.continue? line ≠ none := by
      rw [Pending.continue?]
      cases hlast : p.lines.getLast? with
      | none => exact absurd (List.getLast?_eq_none_iff.mp hlast) hlines
      | some last =>
        dsimp only
        cases continued? last <;> simp [htimes]
    cases entriesFrom_cons_ok h with
    | head hhead hrest hout =>
      intro e he
      rw [hout] at he
      rcases List.mem_append.mp he with he | he
      · rwa [timestamp_of_mem_finish he, Option.isSome_map]
      · exact ih (List.cons_ne_nil _ _) rfl hrest e he
    | joined hhead hlonger hrest =>
      obtain ⟨hsame, hne, -⟩ := continue?_eq_some hlonger
      exact ih hne (hsame ▸ htimes) hrest
    | skipped hhead hblank hlonger hrest => exact absurd hlonger hjoins
    | bare hhead hfilled hlonger hrest hout => exact absurd hlonger hjoins

/-- Without a head no command has a time. -/
theorem untimed_of_entriesFrom {out : List Entry} (hheads : ∀ l ∈ ls, head? l = none)
    (htimes : p.times = none) (h : entriesFrom p ls = .ok out) : ∀ e ∈ out, e.timestamp = none := by
  -- The record being read has no time either, which the induction has to carry.
  induction ls generalizing p out with
  | nil =>
    cases h
    intro e he
    rw [timestamp_of_mem_finish he, htimes, Option.map_none]
  | cons line ls ih =>
    have hrest := fun l hl => hheads l (List.mem_cons_of_mem line hl)
    cases entriesFrom_cons_ok h with
    | head hhead =>
      rw [hheads line List.mem_cons_self] at hhead
      cases hhead
    | joined hhead hlonger hread => exact ih hrest ((continue?_eq_some hlonger).1.trans htimes) hread
    | skipped hhead hblank hlonger hread => exact ih hrest htimes hread
    | bare hhead hfilled hlonger hread hout =>
      intro e he
      rw [hout] at he
      rcases List.mem_append.mp he with he | he
      · rw [timestamp_of_mem_finish he, htimes, Option.map_none]
      · exact ih hrest rfl hread e he

/-! ### Nothing is lost -/

/-- Of numbers none of which is larger than another, none is smaller if their sum is not. -/
theorem ge_of_sum_ge {α : Type} {f g : α → Nat} {xs : List α} (hle : ∀ x ∈ xs, f x ≤ g x)
    (hsum : (xs.map g).sum ≤ (xs.map f).sum) : ∀ x ∈ xs, g x ≤ f x := by
  intro x hx
  by_contra hlt
  exact absurd hsum (not_le.mpr (List.sum_lt_sum f g hle ⟨x, hx, not_le.mp hlt⟩))

/-- Lines without heads are no longer, and as long only if none had a head. -/
theorem size_map_body (ls : List (List Char)) : size (ls.map body) ≤ size ls ∧
    (size ls ≤ size (ls.map body) → ∀ l ∈ ls, head? l = none) := by
  have hbody : ∀ l ∈ ls, (body l).length + 1 ≤ l.length + 1 := fun l _ =>
    Nat.succ_le_succ (length_body_le l).1
  rw [size_eq_sum, size_eq_sum, List.map_map]
  refine ⟨List.sum_le_sum hbody, fun hsum l hl => (length_body_le l).2 ?_⟩
  exact Nat.le_of_succ_le_succ (ge_of_sum_ge hbody hsum l hl)

/-- Lines without backslashes are no longer, and as long only if none had a backslash. -/
theorem size_unescapeLines (ls : List (List Char)) : size (unescapeLines ls) ≤ size ls ∧
    (size ls ≤ size (unescapeLines ls) → ∀ l ∈ ls.dropLast, continued? l = none) := by
  induction ls with
  | nil => exact ⟨le_refl _, nofun⟩
  | cons line ls ih =>
    -- The last line has nothing behind it, so its backslash is not an escape.
    cases ls with
    | nil => exact ⟨le_refl _, nofun⟩
    | cons next rest =>
      rw [unescapeLines, size_cons, size_cons line, List.dropLast_cons_of_ne_nil (List.cons_ne_nil _ _),
        List.forall_mem_cons]
      cases htext : continued? line with
      | some text =>
        rw [eq_of_continued? htext, Option.getD_some, List.length_append, List.length_singleton]
        exact ⟨by omega, fun h => by omega⟩
      | none =>
        rw [Option.getD_none]
        exact ⟨by omega, fun h => ⟨rfl, ih.2 (by omega)⟩⟩

/-- A line that is lost nothing of is not blank. -/
theorem filled_of_size (h : size [line] ≤ size (commandsOf ({ lines := [line] } : Pending).finish)) :
    line.all Chars.isBlank = false := by
  by_contra hblank
  have hfinish : ({ lines := [line] } : Pending).finish = [] := by
    have hsub : (dropFeeds line).Sublist line := by
      rw [dropFeeds, Chars.dropEndWhile, ← List.reverse_sublist, List.reverse_reverse]
      exact List.dropWhile_sublist _
    have hall : (dropFeeds line).all Chars.isBlank = true := by
      rw [Bool.not_eq_false, List.all_eq_true] at hblank
      exact List.all_eq_true.mpr fun c hc => hblank c (hsub.mem hc)
    rw [Pending.finish, joinLines, List.intercalate_singleton]
    exact if_pos hall
  rw [hfinish, size_cons] at h
  exact absurd h (by simp [commandsOf])

/-- If nothing is lost of lines without heads, each of them is a command. -/
theorem bare_cons_of_size {out : List Entry} (hheads : ∀ l ∈ ls, head? l = none)
    (h : entriesFrom { lines := [line] } ls = .ok out)
    (hsize : size (line :: ls) ≤ size (commandsOf out)) :
    (∀ l ∈ line :: ls, l.all Chars.isBlank = false) ∧
      ∀ l ∈ (line :: ls).dropLast, continued? l = none := by
  induction ls generalizing line out with
  | nil =>
    cases h
    exact ⟨List.forall_mem_singleton.mpr (filled_of_size hsize), nofun⟩
  | cons next ls ih =>
    have hrest := fun l hl => hheads l (List.mem_cons_of_mem next hl)
    simp only [size_cons] at hsize
    cases entriesFrom_cons_ok h with
    | head hhead =>
      rw [hheads next List.mem_cons_self] at hhead
      cases hhead
    | joined hhead hlonger hread =>
      -- Two lines are joined at the cost of a backslash.
      have hlines := (continue?_eq_some hlonger).2.2.2 rfl
      have hout := size_entriesFrom_le hread
      rw [map_body hrest] at hout
      simp only [size_cons, size_nil] at hlines
      omega
    | skipped hhead hblank hlonger hread =>
      have hout := size_entriesFrom_le hread
      rw [map_body hrest] at hout
      simp only [size_cons, size_nil] at hout
      omega
    | @bare more hhead hfilled hlonger hread hout =>
      -- Neither the first line nor those behind it can make up for what the others lose.
      have hmore := size_entriesFrom_le hread
      have hfinish := size_finish_le { lines := [line] }
      rw [map_body hrest] at hmore
      rw [hout, commandsOf, List.map_append, size_append] at hsize
      simp only [commandsOf, size_cons, size_nil] at hmore hfinish hsize
      obtain ⟨hfilled, hends⟩ := ih hrest hread (by simp only [size_cons, commandsOf]; omega)
      have hend : continued? line = none := by
        cases htext : continued? line with
        | none => rfl
        | some text => simp [Pending.continue?, htext] at hlonger
      refine ⟨List.forall_mem_cons.mpr ⟨filled_of_size ?_, hfilled⟩, ?_⟩
      · simp only [size_cons, size_nil, commandsOf]
        omega
      · rw [List.dropLast_cons_of_ne_nil (List.cons_ne_nil _ _)]
        exact List.forall_mem_cons.mpr ⟨hend, hends⟩

/-- The same of all the lines of a file. -/
theorem bare_of_size {out : List Entry} (hheads : ∀ l ∈ ls, head? l = none)
    (h : entriesFrom {} ls = .ok out) (hsize : size ls ≤ size (commandsOf out)) :
    (∀ l ∈ ls, l.all Chars.isBlank = false) ∧ ∀ l ∈ ls.dropLast, continued? l = none := by
  cases ls with
  | nil => exact ⟨nofun, nofun⟩
  | cons line ls =>
    have hrest := fun l hl => hheads l (List.mem_cons_of_mem line hl)
    cases entriesFrom_cons_ok h with
    | head hhead =>
      rw [hheads line List.mem_cons_self] at hhead
      cases hhead
    | joined hhead hlonger => cases hlonger
    -- A blank line is lost, and nothing behind it can make up for its size.
    | skipped hhead hblank hlonger hread =>
      have hout := size_entriesFrom_le hread
      rw [map_body hrest] at hout
      simp only [size_cons, size_nil] at hsize hout
      omega
    | bare hhead hfilled hlonger hread hout =>
      rw [hout, finish_empty, List.nil_append] at hsize
      exact bare_cons_of_size hrest hread hsize

end ShellAssist.History.Zsh
