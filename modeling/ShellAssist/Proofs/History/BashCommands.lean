import ShellAssist.Proofs.Text.Lines
import ShellAssist.Text.Letter

namespace ShellAssist

/-!
# Commands of several lines in a bash history

A command stands on one or more lines, all but the last with a backslash behind them. Time marks may
stand in front of any of its lines, also within it, and blank lines between commands. A file may end
within a command.

* `Bash.Content` — what a file holds, and `Bash.Content.text`, how it is written;
* `Bash.parse_text` — the commands of a file are read back.
-/

/-! ### Decimal digits -/

namespace Chars

/-- The rows of decimal digits hold no line boundary. -/
theorem isLineBreak_of_isDecimalDigit {c : Char} (h : isDecimalDigit c = true) :
    isLineBreak c = false := by
  -- No row of ten digits meets one of the ranges of line breaks.
  have hrows : ∀ z ∈ Text.digitZeros, 0x85 < z ∧ (z + 10 ≤ 0x2028 ∨ 0x2029 < z) := by decide
  have hrange : (0x30 ≤ c.toNat ∧ c.toNat ≤ 0x39) ∨
      (0x85 < c.toNat ∧ (c.toNat < 0x2028 ∨ 0x2029 < c.toNat)) := by
    unfold isDecimalDigit digitValue? at h
    split at h
    · rename_i hdigit
      rw [Char.isDigit, Bool.and_eq_true, decide_eq_true_eq, decide_eq_true_eq] at hdigit
      exact .inl hdigit
    · rw [Option.isSome_map, List.find?_isSome] at h
      obtain ⟨z, hz, hin⟩ := h
      rw [Bool.and_eq_true, decide_eq_true_eq, decide_eq_true_eq] at hin
      have hrow := hrows z hz
      exact .inr (by omega)
  simp only [isLineBreak, inRanges, List.any_cons, List.any_nil, Bool.or_false,
    Bool.or_eq_false_iff, Bool.and_eq_false_iff, decide_eq_false_iff_not]
  omega

end Chars

namespace History.Bash

open Chars (Unbroken ofLines)

variable {line : List Char} {pending rest : List (List Char)}

/-! ### Time marks -/

/-- A mark is a hash and digits. -/
theorem exists_of_isMark (h : isMark line = true) :
    ∃ digits, line = '#' :: digits ∧ ∀ c ∈ digits, Chars.isDecimalDigit c = true := by
  unfold isMark at h
  split at h
  · rename_i digits
    rw [Bool.and_eq_true, List.all_eq_true] at h
    exact ⟨digits, rfl, h.2⟩
  · cases h

/-- So it is a line. -/
theorem unbroken_of_isMark (h : isMark line = true) : Unbroken line := by
  obtain ⟨digits, rfl, hdigits⟩ := exists_of_isMark h
  intro c hc
  rcases List.mem_cons.mp hc with rfl | hc
  · decide
  · exact Chars.isLineBreak_of_isDecimalDigit (hdigits c hc)

/-- And it is not blank. -/
theorem not_blank_of_isMark (h : isMark line = true) : line.all Chars.isBlank = false := by
  obtain ⟨digits, rfl, -⟩ := exists_of_isMark h
  rw [List.all_cons, show Chars.isBlank '#' = false by decide, Bool.false_and]

/-- A line with a backslash behind it is no mark. -/
theorem isMark_append_backslash (text : List Char) : isMark (text ++ ['\\']) = false := by
  by_contra h
  obtain ⟨digits, hline, hdigits⟩ := exists_of_isMark (by simpa using h)
  have hmem : '\\' ∈ '#' :: digits := hline ▸ List.mem_append_right text (List.mem_singleton.mpr rfl)
  rcases List.mem_cons.mp hmem with hhash | hdigit
  · exact absurd hhash (by decide)
  · exact absurd (hdigits _ hdigit) (by decide)

/-- A line with a backslash behind it goes on. -/
theorem continued?_append_backslash (text : List Char) :
    continued? (text ++ ['\\']) = some text := by
  rw [continued?, List.getLast?_concat, if_pos rfl, List.dropLast_concat]

/-! ### What a file holds -/

/-- A line of a command, with the time marks in front of it. -/
structure MarkedLine where
  marks : List (List Char) := []
  text : List Char

/-- The lines of a file that hold lines of a command of which more lines are to come. -/
def continuedLines (ls : List MarkedLine) : List (List Char) :=
  ls.flatMap fun l => l.marks ++ [l.text ++ ['\\']]

/-- A command in a file. -/
structure Command where
  /-- What stands between it and the command before it: blank lines and time marks. -/
  gap : List (List Char) := []
  /-- All of its lines but the last. -/
  continued : List MarkedLine := []
  last : MarkedLine

/-- The lines of a command. -/
def Command.lines (c : Command) : List (List Char) :=
  c.continued.map MarkedLine.text ++ [c.last.text]

/-- The lines of a file that hold a command. -/
def Command.fileLines (c : Command) : List (List Char) :=
  c.gap ++ (continuedLines c.continued ++ (c.last.marks ++ [c.last.text]))

/-- What a file holds. -/
structure Content where
  commands : List Command := []
  /-- What stands behind the last command. -/
  gap : List (List Char) := []
  /-- The lines of a command of which the last line is missing. -/
  unfinished : List MarkedLine := []
  /-- Whether there is a line feed behind the last line. -/
  terminated : Bool := true

namespace Content

/-- The lines of a file. -/
def fileLines (f : Content) : List (List Char) :=
  f.commands.flatMap Command.fileLines ++ (f.gap ++ continuedLines f.unfinished)

/-- The text of a file. -/
def text (f : Content) : String :=
  String.ofList (if f.terminated then ofLines f.fileLines else joinLines f.fileLines)

end Content

/-- The entry of a command of these lines. -/
def entryOf (ls : List (List Char)) : Entry :=
  { command := String.ofList (joinLines ls), source := "bash" }

/-- The entries of a file: one for each command, and one for the command that is not finished unless
it is blank. -/
def Content.entries (f : Content) : List Entry :=
  let last := f.unfinished.map MarkedLine.text
  f.commands.map (fun c => entryOf c.lines) ++
    if last.all fun line => line.all Chars.isBlank then [] else [entryOf last]

/-- A line between commands: blank, or a time mark. -/
def IsGap (line : List Char) : Prop :=
  (Unbroken line ∧ line.all Chars.isBlank = true) ∨ isMark line = true

/-- What stands in front of a line are time marks, and the line itself is one line. -/
structure MarkedLine.WellFormed (l : MarkedLine) : Prop where
  marks : ∀ m ∈ l.marks, isMark m = true
  text : Unbroken l.text

/-- The command is not blank, and its last line is read neither as going on nor as a mark. -/
structure Command.WellFormed (c : Command) : Prop where
  gap : ∀ line ∈ c.gap, IsGap line
  continued : ∀ l ∈ c.continued, l.WellFormed
  last : c.last.WellFormed
  filled : ∃ line ∈ c.lines, line.all Chars.isBlank = false
  ends : c.last.text.getLast? ≠ some '\\'
  unmarked : isMark c.last.text = false

/-- All commands are such; a last line without a line feed behind it is not empty. -/
structure Content.WellFormed (f : Content) : Prop where
  commands : ∀ c ∈ f.commands, c.WellFormed
  gap : ∀ line ∈ f.gap, IsGap line
  unfinished : ∀ l ∈ f.unfinished, l.WellFormed
  terminated : f.terminated = false → ∀ line ∈ f.fileLines.getLast?, line ≠ []

/-! ### Reading lines -/

/-- A mark is passed over, within a command as well. -/
theorem commandsFrom_cons_mark (h : isMark line = true) :
    commandsFrom pending (line :: rest) = commandsFrom pending rest := by
  rw [commandsFrom, not_blank_of_isMark h, Bool.and_false, if_neg Bool.false_ne_true, if_pos h]

/-- Marks are passed over, within a command as well. -/
theorem commandsFrom_marks {marks : List (List Char)} (h : ∀ m ∈ marks, isMark m = true) :
    commandsFrom pending (marks ++ rest) = commandsFrom pending rest := by
  induction marks with
  | nil => rfl
  | cons m marks ih =>
    rw [List.cons_append, commandsFrom_cons_mark (h m List.mem_cons_self),
      ih fun n hn => h n (List.mem_cons_of_mem _ hn)]

/-- What stands between commands is passed over. -/
theorem commandsFrom_gap {gap : List (List Char)} (h : ∀ line ∈ gap, IsGap line) :
    commandsFrom [] (gap ++ rest) = commandsFrom [] rest := by
  induction gap with
  | nil => rfl
  | cons line gap ih =>
    rw [List.cons_append, ← ih fun l hl => h l (List.mem_cons_of_mem _ hl)]
    rcases h line List.mem_cons_self with ⟨-, hblank⟩ | hmark
    · rw [commandsFrom, hblank, List.isEmpty_nil, Bool.and_true, if_pos rfl]
    · exact commandsFrom_cons_mark hmark

/-- A line with a backslash behind it waits for the next one. -/
theorem commandsFrom_cons_continued (text : List Char) :
    commandsFrom pending ((text ++ ['\\']) :: rest) = commandsFrom (pending ++ [text]) rest := by
  have hblank : (text ++ ['\\']).all Chars.isBlank = false := by
    rw [List.all_append, List.all_cons, show Chars.isBlank '\\' = false by decide, Bool.false_and,
      Bool.and_false]
  rw [commandsFrom, hblank, Bool.and_false, if_neg Bool.false_ne_true, isMark_append_backslash,
    if_neg Bool.false_ne_true, continued?_append_backslash]

/-- Lines that go on are held until the last one. -/
theorem commandsFrom_continuedLines {ls : List MarkedLine} (h : ∀ l ∈ ls, l.WellFormed) :
    commandsFrom pending (continuedLines ls ++ rest)
      = commandsFrom (pending ++ ls.map MarkedLine.text) rest := by
  induction ls generalizing pending with
  | nil => rw [List.map_nil, List.append_nil, continuedLines, List.flatMap_nil, List.nil_append]
  | cons l ls ih =>
    have hlines : continuedLines (l :: ls) ++ rest
        = l.marks ++ (l.text ++ ['\\']) :: (continuedLines ls ++ rest) := by
      simp [continuedLines]
    rw [hlines, commandsFrom_marks (h l List.mem_cons_self).marks, commandsFrom_cons_continued,
      ih fun m hm => h m (List.mem_cons_of_mem _ hm), List.map_cons, List.append_assoc]
    rfl

/-- What is held is a command, unless it is blank. -/
theorem finish_eq (ls : List (List Char)) : finish ls
    = if ls.all fun line => line.all Chars.isBlank then [] else [joinLines ls] := by
  rw [finish, Chars.all_joinLines (by decide)]

/-- A command is read to its last line. -/
theorem commandsFrom_command {c : Command} (h : c.WellFormed) :
    commandsFrom [] (c.fileLines ++ rest) = joinLines c.lines :: commandsFrom [] rest := by
  have hfilled : (c.lines.all fun line => line.all Chars.isBlank) = false := by
    obtain ⟨line, hline, hblank⟩ := h.filled
    exact List.all_eq_false.mpr ⟨line, hline, by simp [hblank]⟩
  -- If nothing is pending, the last line is all of the command and so not blank.
  have hlast : ((c.continued.map MarkedLine.text).isEmpty && c.last.text.all Chars.isBlank)
      = false := by
    rw [Bool.and_eq_false_iff]
    by_cases hempty : c.continued.map MarkedLine.text = []
    · rw [Command.lines, hempty] at hfilled
      exact .inr (by simpa using hfilled)
    · exact .inl (List.isEmpty_eq_false_iff.mpr hempty)
  have hends : continued? c.last.text = none := by rw [continued?, if_neg h.ends]
  rw [Command.fileLines, List.append_assoc, List.append_assoc, commandsFrom_gap h.gap,
    commandsFrom_continuedLines h.continued, List.append_assoc, commandsFrom_marks h.last.marks,
    List.nil_append, List.singleton_append, commandsFrom, hlast, if_neg Bool.false_ne_true,
    h.unmarked, if_neg Bool.false_ne_true, hends]
  show finish c.lines ++ _ = _
  rw [finish_eq, hfilled, if_neg Bool.false_ne_true]
  rfl

/-- Commands are read one by one. -/
theorem commandsFrom_commands {cs : List Command} (h : ∀ c ∈ cs, c.WellFormed) :
    commandsFrom [] (cs.flatMap Command.fileLines ++ rest)
      = cs.map (fun c => joinLines c.lines) ++ commandsFrom [] rest := by
  induction cs with
  | nil => rfl
  | cons c cs ih =>
    rw [List.flatMap_cons, List.append_assoc, commandsFrom_command (h c List.mem_cons_self),
      ih fun d hd => h d (List.mem_cons_of_mem _ hd)]
    rfl

/-! ### Reading files -/

/-- What stands between commands is lines. -/
theorem IsGap.unbroken (h : IsGap line) : Unbroken line :=
  h.elim And.left unbroken_of_isMark

/-- Lines that go on are lines. -/
theorem unbroken_continuedLines {ls : List MarkedLine} (h : ∀ l ∈ ls, l.WellFormed) :
    ∀ line ∈ continuedLines ls, Unbroken line := by
  intro line hline
  obtain ⟨l, hl, hline⟩ := List.mem_flatMap.mp hline
  rcases List.mem_append.mp hline with hmark | htext
  · exact unbroken_of_isMark ((h l hl).marks line hmark)
  · obtain rfl := List.mem_singleton.mp htext
    exact (h l hl).text.append (by decide)

/-- A command is written on lines. -/
theorem Command.WellFormed.unbroken {c : Command} (h : c.WellFormed) :
    ∀ line ∈ c.fileLines, Unbroken line := by
  intro line hline
  rcases List.mem_append.mp hline with hgap | hline
  · exact (h.gap line hgap).unbroken
  · rcases List.mem_append.mp hline with hcontinued | hline
    · exact unbroken_continuedLines h.continued line hcontinued
    · rcases List.mem_append.mp hline with hmark | hlast
      · exact unbroken_of_isMark (h.last.marks line hmark)
      · exact List.mem_singleton.mp hlast ▸ h.last.text

/-- A file is written on lines. -/
theorem Content.WellFormed.unbroken {f : Content} (h : f.WellFormed) :
    ∀ line ∈ f.fileLines, Unbroken line := by
  intro line hline
  rcases List.mem_append.mp hline with hcommand | hline
  · obtain ⟨c, hc, hline⟩ := List.mem_flatMap.mp hcommand
    exact (h.commands c hc).unbroken line hline
  · rcases List.mem_append.mp hline with hgap | hunfinished
    · exact (h.gap line hgap).unbroken
    · exact unbroken_continuedLines h.unfinished line hunfinished

/-- Its text has these lines. -/
theorem Content.WellFormed.lines_text {f : Content} (h : f.WellFormed) :
    Chars.lines f.text.toList = f.fileLines := by
  rw [Content.text, String.toList_ofList]
  split
  · exact Chars.lines_ofLines h.unbroken
  · rename_i hterminated
    exact Chars.lines_joinLines h.unbroken (h.terminated (by simpa using hterminated))

/-- **The commands of a bash history are read back.** Whatever time marks stand in front of their
lines and whatever blank lines stand between them, a file is read as its commands in order, without
times. The lines of a command that the file breaks off are a last command unless they are blank. -/
theorem parse_text {f : Content} (h : f.WellFormed) : parse f.text = f.entries := by
  have hcommands : commands f.text.toList = f.commands.map (fun c => joinLines c.lines)
      ++ finish (f.unfinished.map MarkedLine.text) := by
    have hunfinished : commandsFrom [] (continuedLines f.unfinished)
        = finish (f.unfinished.map MarkedLine.text) := by
      have hall : commandsFrom [] (continuedLines f.unfinished ++ [])
          = commandsFrom ([] ++ f.unfinished.map MarkedLine.text) [] :=
        commandsFrom_continuedLines h.unfinished
      rwa [List.append_nil, List.nil_append, commandsFrom] at hall
    rw [commands, h.lines_text, Content.fileLines, commandsFrom_commands h.commands,
      commandsFrom_gap h.gap, hunfinished]
  rw [parse, hcommands, List.map_append, List.map_map, finish_eq, Content.entries]
  congr 1
  split <;> rfl

/-- A file with a command of four lines, and a command of which the last line is missing. -/
def Content.interrupted : Content where
  commands := [{
    continued := [⟨["#17".toList], "echo a\\".toList⟩, ⟨["#18".toList], []⟩, ⟨[], []⟩]
    last := ⟨[], ['b']⟩ }]
  gap := [[' ']]
  unfinished := [⟨["#19".toList], "cd".toList⟩]
  terminated := false

/-- Marks are passed over within a command, where an empty line is a line of the command. -/
theorem parse_text_interrupted : Content.interrupted.WellFormed ∧
    parse "#17\necho a\\\\\n#18\n\\\n\\\nb\n \n#19\ncd\\"
      = [{ command := "echo a\\\n\n\nb", source := "bash" },
         { command := "cd", source := "bash" }] := by
  -- The commands are continued over several lines, and the last one is cut off by the end.
  have hlines : ∀ l ∈ Content.interrupted.commands.flatMap Command.continued, l.WellFormed := by
    simp only [Content.interrupted, List.flatMap_cons, List.flatMap_nil, List.append_nil,
      List.forall_mem_cons]
    exact ⟨⟨by decide, by decide⟩, ⟨by decide, by decide⟩, ⟨by decide, by decide⟩, nofun⟩
  have hfile : Content.interrupted.WellFormed := by
    refine ⟨fun c hc => ?_, fun line hline => ?_, fun l hl => ?_, by decide⟩
    · have hcontinued := fun l hl => hlines l (List.mem_flatMap.mpr ⟨c, hc, hl⟩)
      obtain rfl := List.mem_singleton.mp hc
      exact ⟨nofun, hcontinued, ⟨nofun, by decide⟩, ⟨['b'], by decide, by decide⟩, by decide,
        by decide⟩
    · obtain rfl := List.mem_singleton.mp hline
      exact .inl ⟨by decide, by decide⟩
    · obtain rfl := List.mem_singleton.mp hl
      exact ⟨by decide, by decide⟩
  have htext : Content.interrupted.text
      = "#17\necho a\\\\\n#18\n\\\n\\\nb\n \n#19\ncd\\" := by decide
  have hread := parse_text hfile
  rw [htext] at hread
  exact ⟨hfile, hread.trans rfl⟩

end History.Bash

end ShellAssist
