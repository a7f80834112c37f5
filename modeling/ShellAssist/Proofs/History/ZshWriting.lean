import ShellAssist.Proofs.History.ZshRecords
import ShellAssist.History.Store

namespace ShellAssist.History.Zsh

open Number (Decimal.ofNat Decimal.writableLimit)
open Chars (Unbroken)
open Bash (joinLines continued?)

/-!
# What an export for zsh writes

Each entry is written on the lines of its command, behind a head if it has a time. Nothing marks a line
as one of a command's own: a line that ends in a backslash or begins like a head, or that has no head
behind one that has, is read as it would be in any zsh history.

* `linesOf`, `exportOwned_of_writable` — the lines of an entry, and the text of an export;
* `asZsh` — an entry as a zsh history tells of it;
* `ReadsBack`, `ReadsBack.entriesFrom_linesOf` — entries whose lines are read as what they were written
  for.
-/

variable {e : Entry} {es : List Entry} {line : List Char} {ls : List (List Char)} {p : Pending}

/-! ### Entries in a file -/

/-- Milliseconds as whole seconds. -/
def wholeSeconds (millis : Int) : Nat :=
  (millis / 1000).toNat

/-- The lines of a command. -/
def commandLines (e : Entry) : List (List Char) :=
  Chars.lines e.command.toList

/-- The block of an entry with a time; it takes no time if none is known. -/
def blockOf (e : Entry) : Block where
  seconds := wholeSeconds (e.timestamp.getD 0)
  duration := wholeSeconds (e.duration.getD 0)
  first := (commandLines e).headD []
  more := (commandLines e).tail

/-- The lines that an entry is written on. -/
def linesOf (e : Entry) : List (List Char) :=
  if e.timestamp.isSome then (blockOf e).fileLines else commandLines e

/-- An entry as far as a zsh history tells of it: what was run, and if it has a time, when and for
how many whole seconds. -/
def asZsh (e : Entry) : Entry where
  command := e.command
  timestamp := e.timestamp.map fun t => (wholeSeconds t : Int) * 1000
  duration := e.timestamp.map fun _ => (wholeSeconds (e.duration.getD 0) : Int) * 1000
  source := "zsh"

/-- The command is not blank, holds no line boundaries but line feeds and does not end in one, and
no time is negative. -/
structure Exportable (e : Entry) : Prop where
  filled : Text.isBlank e.command = false
  feeds : Chars.FeedsOnly e.command.toList
  ends : e.command.toList.getLast? ≠ some '\n'
  timestamp : ∀ t ∈ e.timestamp, 0 ≤ t
  duration : ∀ d ∈ e.duration, 0 ≤ d

/-- The entries in front of all that have a time. -/
def leading (es : List Entry) : List Entry :=
  es.takeWhile (·.timestamp.isNone)

/-- The entries from the first one on that has a time. -/
def following (es : List Entry) : List Entry :=
  es.dropWhile (·.timestamp.isNone)

/-- The command has a time, none of its lines but the first is read as a head, and none but the last
ends in a backslash. -/
structure KeepsLines (e : Entry) : Prop where
  timed : e.timestamp.isSome = true
  block : (blockOf e).WellFormed
  ends : ∀ l ∈ (commandLines e).dropLast, continued? l = none

/-- Commands without times come first. They are of one line, which is not read as a head, and the
next one does not stand behind a backslash; commands with times keep their lines. -/
structure ReadsBack (es : List Entry) : Prop where
  bare : ∀ e ∈ leading es, IsBare e.command.toList
  ends : ∀ e ∈ (leading es).dropLast, continued? e.command.toList = none
  timed : ∀ e ∈ following es, KeepsLines e

namespace Exportable

/-- The command is its lines, joined. -/
theorem joinLines_commandLines (h : Exportable e) :
    joinLines (commandLines e) = e.command.toList :=
  Chars.joinLines_lines h.feeds h.ends

/-- The command has a line. -/
theorem commandLines_ne_nil (h : Exportable e) : commandLines e ≠ [] := by
  intro hnil
  have hfilled := h.filled
  rw [Text.isBlank, Chars.lines_eq_nil_iff.mp hnil] at hfilled
  cases hfilled

/-- The lines of its block are those of the command. -/
theorem blockOf_lines (h : Exportable e) :
    (blockOf e).first :: (blockOf e).more = commandLines e := by
  obtain ⟨first, more, hlines⟩ := List.exists_cons_of_ne_nil h.commandLines_ne_nil
  rw [blockOf, hlines]
  rfl

/-- An entry is written on some line. -/
theorem linesOf_ne_nil (h : Exportable e) : linesOf e ≠ [] := by
  rw [linesOf]
  split
  · exact List.cons_ne_nil _ _
  · exact h.commandLines_ne_nil

/-- What it is written on are lines. -/
theorem unbroken_linesOf (h : Exportable e) : ∀ l ∈ linesOf e, Unbroken l := by
  have hlines : ∀ l ∈ commandLines e, Unbroken l := fun l hl => Chars.unbroken_of_mem_lines hl
  rw [linesOf]
  split
  · exact Block.unbroken_fileLines (h.blockOf_lines ▸ hlines)
  · exact hlines

/-- The last of them is not empty. -/
theorem getLast?_linesOf (h : Exportable e) : (linesOf e).getLast? ≠ some [] := by
  have hlast : (commandLines e).getLast? ≠ some [] := Chars.getLast?_lines_ne_nil h.feeds h.ends
  rw [linesOf]
  split
  · rw [← h.blockOf_lines] at hlast
    rw [Block.fileLines]
    by_cases hmore : (blockOf e).more = []
    · rw [hmore]
      simp [headText]
    · rw [List.getLast?_cons_of_ne_nil hmore] at hlast ⊢
      exact hlast
  · exact hlast

end Exportable

/-- Lines that end in a full line are read again from the text that they are joined to. -/
theorem lines_joinLines_linesOf (h : ∀ e ∈ es, Exportable e) :
    Chars.lines (joinLines (es.flatMap linesOf)) = es.flatMap linesOf := by
  refine Chars.lines_joinLines (fun l hl => ?_) fun l hl => ?_
  · obtain ⟨e, he, hl⟩ := List.mem_flatMap.mp hl
    exact (h e he).unbroken_linesOf l hl
  · rintro rfl
    rw [List.getLast?_flatMap] at hl
    obtain ⟨e, he, hl⟩ := List.exists_of_findSome?_eq_some hl
    exact (h e (List.mem_reverse.mp he)).getLast?_linesOf hl

/-! ### The text of an export -/

/-- Both numbers of a head have no more digits than are written. -/
def Writable (e : Entry) : Prop :=
  e.timestamp.isSome = true → wholeSeconds (e.timestamp.getD 0) < Decimal.writableLimit ∧
    wholeSeconds (e.duration.getD 0) < Decimal.writableLimit

/-- A time that is not negative is written in whole seconds, if they are not too long. -/
theorem zshSeconds_eq {millis : Int} (h : 0 ≤ millis) : Store.zshSeconds millis =
    if wholeSeconds millis < Decimal.writableLimit
      then .ok (String.ofList (Decimal.ofNat (wholeSeconds millis)))
      else .error .wholeTooLong := by
  have hnonneg : 0 ≤ millis / 1000 := by omega
  have hseconds : (millis / 1000).natAbs = wholeSeconds millis := by
    rw [wholeSeconds]
    omega
  have hdigits : Number.Decimal.ofInt (millis / 1000) = Decimal.ofNat (wholeSeconds millis) := by
    rw [Number.Decimal.ofInt, if_neg (not_lt.mpr hnonneg), hseconds]
  have hwritable : Number.Decimal.isWritable (millis / 1000)
      = decide (wholeSeconds millis < Decimal.writableLimit) := by
    rw [Number.Decimal.isWritable, hseconds]
  simp only [Store.zshSeconds, hdigits, hwritable, decide_eq_true_eq]

/-- A duration that is not known counts as zero. -/
theorem Exportable.duration_nonneg (h : Exportable e) : 0 ≤ e.duration.getD 0 := by
  cases hduration : e.duration with
  | none => exact le_refl _
  | some d => exact h.duration d hduration

/-- An entry with short times is written on its lines. -/
theorem zshLine_of_writable (h : Exportable e) (hw : Writable e) :
    Store.zshLine e = .ok (String.ofList (joinLines (linesOf e))) := by
  rw [linesOf]
  cases htime : e.timestamp with
  | none =>
    simp only [Store.zshLine, htime, Option.isSome_none, Bool.false_eq_true, if_false,
      h.joinLines_commandLines, String.ofList_toList]
  | some t =>
    obtain ⟨hseconds, hduration⟩ := hw (by rw [htime]; rfl)
    rw [htime, Option.getD_some] at hseconds
    -- With a time the head stands in front of the first line of the command.
    have hline : joinLines (blockOf e).fileLines
        = headText (wholeSeconds t) (wholeSeconds (e.duration.getD 0)) ++ e.command.toList := by
      rw [Block.fileLines, Chars.joinLines_append_cons, h.blockOf_lines, h.joinLines_commandLines,
        blockOf, htime, Option.getD_some]
    simp only [Store.zshLine, htime, zshSeconds_eq (h.timestamp t htime),
      zshSeconds_eq h.duration_nonneg, hseconds, hduration, if_true, Option.isSome_some, hline]
    refine congrArg Except.ok (String.toList_inj.mp ?_)
    simp [headText]

/-- One with a long time is not written at all. -/
theorem fails_zshLine (h : Exportable e) (hw : ¬ Writable e) : Fails (Store.zshLine e) := by
  rw [Writable, Classical.not_imp, not_and_or] at hw
  obtain ⟨hsome, hlong⟩ := hw
  obtain ⟨t, htime⟩ := Option.isSome_iff_exists.mp hsome
  rw [htime, Option.getD_some] at hlong
  simp only [Store.zshLine, htime, zshSeconds_eq (h.timestamp t htime),
    zshSeconds_eq h.duration_nonneg]
  rcases hlong with hlong | hlong
  · rw [if_neg hlong]
    exact fails_error _
  · rw [if_neg hlong]
    split <;> exact fails_error _

/-- The export of entries that can be written is the text of their lines. -/
theorem exportOwned_of_writable (nesting : Nat) (h : ∀ e ∈ es, Exportable e) (hw : ∀ e ∈ es, Writable e) :
    exportOwned nesting es "zsh" = .ok (String.ofList (joinLines (es.flatMap linesOf))) := by
  have hlines : es.mapM Store.zshLine
      = .ok (es.map fun e => String.ofList (joinLines (linesOf e))) := by
    rw [mapM_ok_iff, List.forall₂_map_right_iff, List.forall₂_same]
    exact fun e he => zshLine_of_writable (h e he) (hw e he)
  have hjoin : Store.joinLines (es.map fun e => String.ofList (joinLines (linesOf e)))
      = String.ofList (joinLines (es.flatMap linesOf)) := by
    rw [← String.toList_inj, Store.joinLines, String.toList_intercalate, String.toList_ofList,
      ← Chars.joinLines_flatMap fun e he => (h e he).linesOf_ne_nil, List.map_map]
    simp only [Function.comp_def, String.toList_ofList]
    rfl
  show Store.joinLines <$> es.mapM Store.zshLine = _
  rw [hlines, ← hjoin]
  rfl

/-- An entry that cannot be written makes the export fail. -/
theorem fails_exportOwned (nesting : Nat) (h : ∀ e ∈ es, Exportable e)
    (hw : ¬ ∀ e ∈ es, Writable e) : Fails (exportOwned nesting es "zsh") := by
  push Not at hw
  obtain ⟨e, he, hw⟩ := hw
  show Fails ((es.mapM Store.zshLine).map Store.joinLines)
  exact fails_map_iff.mpr (fails_mapM_iff.mpr ⟨e, he, fails_zshLine (h e he) hw⟩)

/-! ### Entries that are read back -/

/-- Lines of which none but the last ends in a backslash are kept. -/
theorem unescapeLines_eq_self (h : ∀ l ∈ ls.dropLast, continued? l = none) :
    unescapeLines ls = ls := by
  induction ls with
  | nil => rfl
  | cons line ls ih =>
    cases ls with
    | nil => rfl
    | cons next rest =>
      rw [List.dropLast_cons_of_ne_nil (List.cons_ne_nil _ _)] at h
      rw [unescapeLines, h line List.mem_cons_self,
        ih fun l hl => h l (List.mem_cons_of_mem _ hl), Option.getD_none]

/-- No entry is left out. -/
theorem leading_append_following (es : List Entry) : leading es ++ following es = es :=
  List.takeWhile_append_dropWhile

/-- A leading entry is one of the entries. -/
theorem mem_of_mem_leading (h : e ∈ leading es) : e ∈ es :=
  (List.takeWhile_sublist _).mem h

/-- So is a following one. -/
theorem mem_of_mem_following (h : e ∈ following es) : e ∈ es :=
  (List.dropWhile_sublist _).mem h

/-- The leading entries have no times. -/
theorem timestamp_of_mem_leading (h : e ∈ leading es) : e.timestamp = none := by
  simpa using List.mem_takeWhile_imp h

/-- An entry without a time is written on the lines of its command. -/
theorem linesOf_of_untimed (h : e.timestamp = none) : linesOf e = commandLines e := by
  rw [linesOf, h]
  rfl

/-- A bare command is written on a line of its own. -/
theorem linesOf_of_isBare (htime : e.timestamp = none) (h : IsBare e.command.toList) :
    linesOf e = [e.command.toList] := by
  have hne : e.command.toList ≠ [] := by
    intro hnil
    have hfilled := h.filled
    rw [hnil] at hfilled
    cases hfilled
  rw [linesOf_of_untimed htime, commandLines, Chars.lines_of_unbroken h.unbroken hne]

/-- An entry without a time is read as a bare command. -/
theorem asZsh_of_untimed (h : e.timestamp = none) : asZsh e = bareEntry e.command.toList := by
  rw [asZsh, h, bareEntry, String.ofList_toList]
  rfl

/-- Before its block is finished, a command has its lines without the backslashes. -/
theorem Exportable.lines_pending (h : Exportable e) :
    (blockOf e).pending.lines = unescapeLines (commandLines e) := by
  rw [Block.pending, h.blockOf_lines]

/-- A command that keeps its lines is read back from its block. -/
theorem finish_blockOf (h : Exportable e) (hk : KeepsLines e) :
    (blockOf e).pending.finish = [asZsh e] := by
  obtain ⟨t, htime⟩ := Option.isSome_iff_exists.mp hk.timed
  have hlines : (blockOf e).pending.lines = commandLines e := by
    rw [h.lines_pending, unescapeLines_eq_self hk.ends]
  have hcommand : joinLines (blockOf e).pending.lines = e.command.toList := by
    rw [hlines, h.joinLines_commandLines]
  rw [finish_of_filled (hcommand ▸ h.filled) (hcommand ▸ h.ends), hcommand, asZsh, htime,
    String.ofList_toList]
  simp [Block.pending, blockOf, htime]

/-- The first of the following entries has a time. -/
theorem following_head (es : List Entry) : ∀ e ∈ (following es).head?, e.timestamp.isSome = true := by
  intro e he
  have hhead := List.head?_dropWhile_not (fun e : Entry => e.timestamp.isNone) es
  rw [following] at he
  rw [Option.mem_def.mp he] at hhead
  simpa using hhead

/-- So they are written from a head on. -/
theorem startsRecord_following (es : List Entry) :
    StartsRecord ((following es).flatMap linesOf) := by
  have hhead := following_head es
  intro l hl
  cases hfollowing : following es with
  | nil =>
    rw [hfollowing] at hl
    cases hl
  | cons e rest =>
    rw [hfollowing] at hl hhead
    rw [List.flatMap_cons, linesOf, if_pos (hhead e rfl)] at hl
    cases hl
    rw [head?_headText]
    rfl

/-- Entries with times are read one by one. -/
theorem entriesFrom_linesOf_timed (htimed : ∀ e ∈ es, e.timestamp.isSome = true)
    (hblocks : ∀ e ∈ es, (blockOf e).WellFormed) :
    entriesFrom {} (es.flatMap linesOf) = .ok (es.flatMap fun e => (blockOf e).pending.finish) := by
  have hlines : es.flatMap linesOf = (es.map blockOf).flatMap Block.fileLines := by
    rw [List.flatMap_map]
    exact List.flatMap_congr fun e he => by rw [linesOf, if_pos (htimed e he)]
  rw [hlines, entriesFrom_blocks (List.forall_mem_map.mpr hblocks), List.flatMap_map]

namespace ReadsBack

/-- Entries that are read back have short times. -/
theorem writable (h : ReadsBack es) : ∀ e ∈ es, Writable e := by
  intro e he htimed
  rw [← leading_append_following es] at he
  rcases List.mem_append.mp he with he | he
  · rw [timestamp_of_mem_leading he] at htimed
    cases htimed
  · exact ⟨(h.timed e he).block.seconds, (h.timed e he).block.duration⟩

/-- They are read back from their lines. -/
theorem entriesFrom_linesOf (h : ReadsBack es) (hes : ∀ e ∈ es, Exportable e) :
    entriesFrom {} (es.flatMap linesOf) = .ok (es.map asZsh) := by
  -- The entries before the first time are read as bare commands, the others as records.
  have hbare : (leading es).flatMap linesOf = (leading es).map (·.command.toList) := by
    rw [List.map_eq_flatMap]
    exact List.flatMap_congr fun e he =>
      linesOf_of_isBare (timestamp_of_mem_leading he) (h.bare e he)
  have hleading : entriesFrom {} ((leading es).flatMap linesOf) = .ok ((leading es).map asZsh) := by
    rw [hbare, entriesFrom_bare (List.forall_mem_map.mpr h.bare), List.map_map]
    · exact congrArg Except.ok (List.map_congr_left fun e he =>
        (asZsh_of_untimed (timestamp_of_mem_leading he)).symm)
    · rw [← List.map_dropLast]
      exact List.forall_mem_map.mpr h.ends
  have hfollowing : entriesFrom {} ((following es).flatMap linesOf)
      = .ok ((following es).map asZsh) := by
    rw [entriesFrom_linesOf_timed (fun e he => (h.timed e he).timed)
      fun e he => (h.timed e he).block, List.map_eq_flatMap]
    exact congrArg Except.ok (List.flatMap_congr fun e he =>
      finish_blockOf (hes e (mem_of_mem_following he)) (h.timed e he))
  rw [← leading_append_following es, List.flatMap_append, List.map_append,
    entriesFrom_append (startsRecord_following es), hleading, hfollowing]
  rfl

end ReadsBack

end ShellAssist.History.Zsh
