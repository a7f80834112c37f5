import ShellAssist.Proofs.History.Refusals
import ShellAssist.Proofs.History.BashCommands
import ShellAssist.Proofs.Number.Digits
import ShellAssist.History.Dialect.Zsh

namespace ShellAssist.History.Zsh

open Number (Decimal.ofNat Decimal.writableLimit)
open Chars (Unbroken ofLines)
open Bash (joinLines continued? continued?_append_backslash)

/-!
# Records of a zsh history

A zsh history is read in blocks: the lines up to the first head, and then each head with the lines
up to the next one. What is read of one block does not depend on the others. Within a block a
backslash at the end of a line is dropped if another line follows.

* `entriesFrom_append`, `entriesFrom_blocks` — the blocks are read one by one;
* `entriesFrom_bare` — lines in front of all heads are commands of their own;
* `parse_eq_entries_iff` — records that are written with a backslash behind each line that another follows
  are read back, just if their times are not too long.
-/

variable {line : List Char} {ls rest : List (List Char)} {p : Pending}

/-! ### Heads -/

/-- A head with these times. -/
def headText (seconds duration : Nat) : List Char :=
  ':' :: ' ' :: (Decimal.ofNat seconds ++ ':' :: (Decimal.ofNat duration ++ [';']))

/-- The digits of a number end where another character follows. -/
theorem span_ofNat (n : Nat) {c : Char} (hc : Chars.isDecimalDigit c = false) (rest : List Char) :
    (Decimal.ofNat n ++ c :: rest).span Chars.isDecimalDigit = (Decimal.ofNat n, c :: rest) := by
  have hdigits : ∀ d ∈ Decimal.ofNat n, Chars.isDecimalDigit d = true := by
    intro d hd
    rw [Chars.isDecimalDigit, Chars.digitValue?, if_pos (Number.Decimal.allDigits_ofNat n d hd)]
    rfl
  rw [List.span_eq_takeWhile_dropWhile, List.takeWhile_append_of_pos hdigits,
    List.dropWhile_append_of_pos hdigits, List.takeWhile_cons_of_neg (by simp [hc]),
    List.dropWhile_cons_of_neg (by simp [hc]), List.append_nil]

/-- A head is read with the times it was written for. -/
theorem head?_headText (seconds duration : Nat) (command : List Char) :
    head? (headText seconds duration ++ command)
      = some (Decimal.ofNat seconds, Decimal.ofNat duration, command) := by
  have hfilled (n : Nat) : (Decimal.ofNat n).isEmpty = false :=
    List.isEmpty_eq_false_iff.mpr (Number.Decimal.ofNat_ne_nil n)
  simp only [headText, List.cons_append, List.append_assoc, List.nil_append, head?,
    span_ofNat seconds (show Chars.isDecimalDigit ':' = false by decide),
    span_ofNat duration (show Chars.isDecimalDigit ';' = false by decide), hfilled, Bool.or_false,
    Bool.false_eq_true, if_false]

/-- A head is printable. -/
theorem printable_headText (seconds duration : Nat) :
    Chars.Printable (headText seconds duration) := by
  have hdigits (n : Nat) : Chars.Printable (Decimal.ofNat n) :=
    Json.printable_of_allDigits (Number.Decimal.allDigits_ofNat n)
  exact .cons (by decide) (.cons (by decide) ((hdigits seconds).append
    (.cons (by decide) ((hdigits duration).append (.cons (by decide) .nil)))))

/-- So it holds no line end. -/
theorem unbroken_headText (seconds duration : Nat) : Unbroken (headText seconds duration) :=
  (printable_headText seconds duration).unbroken

/-- Seconds that are not too many digits long are read as milliseconds. -/
theorem millis_ofNat {n : Nat} (h : n < Decimal.writableLimit) :
    millis (Decimal.ofNat n) = .ok (n * 1000) := by
  rw [millis, if_neg (not_lt.mpr (Number.Decimal.length_ofNat_le_iff.mpr h)),
    Chars.digitsValue_ofNat]

/-! ### Blocks -/

/-- The lines begin with a head, or there are none. -/
def StartsRecord (ls : List (List Char)) : Prop :=
  ∀ line ∈ ls.head?, (head? line).isSome = true

@[simp] theorem entriesFrom_nil (p : Pending) : entriesFrom p [] = .ok p.finish := rfl

@[simp] theorem finish_empty : ({} : Pending).finish = [] := rfl

/-- What stands behind the lines of a block is read for itself. -/
theorem entriesFrom_append (h : StartsRecord rest) : entriesFrom p (ls ++ rest) = do
    let found ← entriesFrom p ls
    let more ← entriesFrom {} rest
    return found ++ more := by
  induction ls generalizing p with
  | nil =>
    rw [List.nil_append, entriesFrom_nil]
    show _ = (p.finish ++ ·) <$> entriesFrom {} rest
    cases rest with
    | nil =>
      show Except.ok p.finish = Except.ok (p.finish ++ [])
      rw [List.append_nil]
    | cons line rest =>
      -- A head ends the command before it, whatever that is.
      obtain ⟨⟨seconds, duration, command⟩, hhead⟩ := Option.isSome_iff_exists.mp (h line rfl)
      simp only [entriesFrom, hhead, finish_empty, List.nil_append, map_bind, map_pure]
  | cons line ls ih =>
    rw [List.cons_append, entriesFrom, entriesFrom]
    cases head? line with
    | some found => simp only [ih, bind_assoc, pure_bind, List.append_assoc]
    | none =>
      cases p.continue? line with
      | some longer => exact ih
      | none =>
        dsimp only
        split
        · exact ih
        · simp only [ih, map_eq_pure_bind, bind_assoc, pure_bind, List.append_assoc]

/-- Lines without the backslash at the end of each that another follows. -/
def unescapeLines : List (List Char) → List (List Char)
  | [] => []
  | [line] => [line]
  | line :: next :: rest => (continued? line).getD line :: unescapeLines (next :: rest)

/-- Behind a head all lines belong to its command. -/
theorem entriesFrom_timed {times : Int × Int} (before : List (List Char))
    (h : ∀ l ∈ ls, head? l = none) :
    entriesFrom { lines := before ++ [line], times := some times } ls
      = .ok ({ lines := before ++ unescapeLines (line :: ls), times := some times } :
          Pending).finish := by
  induction ls generalizing before line with
  | nil => rfl
  | cons next ls ih =>
    have hcontinue : ({ lines := before ++ [line], times := some times } : Pending).continue? next
        = some { lines := before ++ [(continued? line).getD line] ++ [next],
                 times := some times } := by
      simp only [Pending.continue?, List.getLast?_concat, List.dropLast_concat]
      cases continued? line <;> simp
    rw [entriesFrom, h next List.mem_cons_self]
    simp only [hcontinue]
    rw [ih _ fun l hl => h l (List.mem_cons_of_mem _ hl), unescapeLines, List.append_assoc]
    rfl

/-- A head with the lines up to the next one. -/
structure Block where
  seconds : Nat
  duration : Nat
  /-- What stands behind the head on its line. -/
  first : List Char
  more : List (List Char)

namespace Block

/-- The lines of a file that hold a block. -/
def fileLines (b : Block) : List (List Char) :=
  (headText b.seconds b.duration ++ b.first) :: b.more

/-- The command of a block, as it is read to its end. -/
def pending (b : Block) : Pending :=
  { lines := unescapeLines (b.first :: b.more)
    times := some ((b.seconds : Int) * 1000, (b.duration : Int) * 1000) }

/-- The times can be read, and no other line is a head. -/
structure WellFormed (b : Block) : Prop where
  seconds : b.seconds < Decimal.writableLimit
  duration : b.duration < Decimal.writableLimit
  more : ∀ l ∈ b.more, head? l = none

/-- What a block is written on are lines if those of its command are. -/
theorem unbroken_fileLines {b : Block} (h : ∀ l ∈ b.first :: b.more, Unbroken l) :
    ∀ l ∈ b.fileLines, Unbroken l := by
  obtain ⟨hfirst, hmore⟩ := List.forall_mem_cons.mp h
  exact List.forall_mem_cons.mpr ⟨(unbroken_headText _ _).append hfirst, hmore⟩

end Block

/-- A block is read as the one command that its head begins. -/
theorem entriesFrom_block {b : Block} (h : b.WellFormed) :
    entriesFrom {} b.fileLines = .ok b.pending.finish := by
  rw [Block.fileLines, entriesFrom, head?_headText]
  simp only [millis_ofNat h.seconds, millis_ofNat h.duration, finish_empty, bind, Except.bind, pure,
    Except.pure, List.nil_append]
  have hread : entriesFrom
      { lines := [b.first], times := some ((b.seconds : Int) * 1000, (b.duration : Int) * 1000) }
      b.more = .ok b.pending.finish := entriesFrom_timed [] h.more
  rw [hread]

/-- Blocks are written from a head on. -/
theorem startsRecord_blocks (bs : List Block) : StartsRecord (bs.flatMap Block.fileLines) := by
  intro line hline
  cases bs with
  | nil => cases hline
  | cons b bs =>
    cases hline
    rw [head?_headText]
    rfl

/-- Blocks are read one by one. -/
theorem entriesFrom_blocks {bs : List Block} (h : ∀ b ∈ bs, b.WellFormed) :
    entriesFrom {} (bs.flatMap Block.fileLines) = .ok (bs.flatMap fun b => b.pending.finish) := by
  induction bs with
  | nil => rfl
  | cons b bs ih =>
    rw [List.flatMap_cons, entriesFrom_append (startsRecord_blocks bs),
      entriesFrom_block (h b List.mem_cons_self), ih fun c hc => h c (List.mem_cons_of_mem _ hc)]
    rfl

/-! ### Commands -/

/-- Nothing is dropped of a text that does not end in a line feed. -/
theorem dropFeeds_eq_self {text : List Char} (h : text.getLast? ≠ some '\n') :
    dropFeeds text = text := by
  rw [dropFeeds, Chars.dropEndWhile]
  cases hreverse : text.reverse with
  | nil => rw [List.dropWhile_nil, ← hreverse, List.reverse_reverse]
  | cons c reversed =>
    have hc : c ≠ '\n' := by
      rintro rfl
      rw [List.getLast?_eq_head?_reverse, hreverse] at h
      exact h rfl
    rw [List.dropWhile_cons_of_neg (by simp [hc]), ← hreverse, List.reverse_reverse]

/-- A command that is neither blank nor ends in a line feed is read as it stands. -/
theorem finish_of_filled (hfilled : (joinLines p.lines).all Chars.isBlank = false)
    (hfeed : (joinLines p.lines).getLast? ≠ some '\n') :
    p.finish = [{ command := String.ofList (joinLines p.lines), timestamp := p.times.map (·.1),
                  duration := p.times.map (·.2), source := "zsh" }] := by
  rw [Pending.finish]
  simp only [dropFeeds_eq_self hfeed, hfilled, Bool.false_eq_true, if_false]

/-- A line does not end in a line feed. -/
theorem getLast?_ne_feed (h : Unbroken line) : line.getLast? ≠ some '\n' :=
  fun hlast => absurd (h '\n' (List.mem_of_getLast? hlast)) (by decide)

/-- The entry of a line in front of all heads. -/
def bareEntry (line : List Char) : Entry :=
  { command := String.ofList line, source := "zsh" }

/-- A line that is a command of its own in front of all heads. -/
structure IsBare (line : List Char) : Prop where
  unbroken : Unbroken line
  filled : line.all Chars.isBlank = false
  unheaded : head? line = none

/-- A bare line is finished as the command that it is. -/
theorem finish_bare (h : IsBare line) :
    ({ lines := [line] } : Pending).finish = [bareEntry line] := by
  rw [finish_of_filled (by simpa [joinLines] using h.filled)
    (by simpa [joinLines] using getLast?_ne_feed h.unbroken)]
  simp [bareEntry, joinLines]

/-- Lines in front of all heads are commands of their own where no backslash joins two. -/
theorem entriesFrom_bare_cons (h : ∀ l ∈ line :: ls, IsBare l)
    (hends : ∀ l ∈ (line :: ls).dropLast, continued? l = none) :
    entriesFrom { lines := [line] } ls = .ok ((line :: ls).map bareEntry) := by
  induction ls generalizing line with
  | nil =>
    rw [entriesFrom_nil, finish_bare (h line List.mem_cons_self), List.map_cons, List.map_nil]
  | cons next ls ih =>
    have hnext := h next (List.mem_cons_of_mem _ List.mem_cons_self)
    have hcontinue : ({ lines := [line] } : Pending).continue? next = none := by
      simp [Pending.continue?, hends line (by simp)]
    rw [List.dropLast_cons_of_ne_nil (List.cons_ne_nil _ _)] at hends
    rw [entriesFrom, hnext.unheaded]
    simp only [hcontinue, hnext.filled, Bool.false_eq_true, if_false]
    rw [ih (fun l hl => h l (List.mem_cons_of_mem _ hl))
      (fun l hl => hends l (List.mem_cons_of_mem _ hl)), finish_bare (h line List.mem_cons_self)]
    rfl

/-- Bare lines none of which goes on are read as commands of their own. -/
theorem entriesFrom_bare (h : ∀ l ∈ ls, IsBare l) (hends : ∀ l ∈ ls.dropLast, continued? l = none) :
    entriesFrom {} ls = .ok (ls.map bareEntry) := by
  cases ls with
  | nil => rfl
  | cons line ls =>
    have hline := h line List.mem_cons_self
    have hcontinue : ({} : Pending).continue? line = none := rfl
    rw [entriesFrom, hline.unheaded]
    simp only [hcontinue, hline.filled, Bool.false_eq_true, if_false]
    rw [entriesFrom_bare_cons h hends]
    rfl

/-! ### Records -/

/-- Lines with a backslash behind each that another follows. -/
def escapeLines : List (List Char) → List (List Char)
  | [] => []
  | [line] => [line]
  | line :: next :: rest => (line ++ ['\\']) :: escapeLines (next :: rest)

/-- Escaping leaves no line out. -/
theorem escapeLines_ne_nil (h : ls ≠ []) : escapeLines ls ≠ [] := by
  obtain ⟨line, ls, rfl⟩ := List.exists_cons_of_ne_nil h
  cases ls <;> exact List.cons_ne_nil _ _

/-- Escaped lines are read back. -/
theorem unescapeLines_escapeLines (ls : List (List Char)) : unescapeLines (escapeLines ls) = ls := by
  induction ls with
  | nil => rfl
  | cons line ls ih =>
    cases ls with
    | nil => rfl
    | cons next rest =>
      obtain ⟨l, more, hmore⟩ :=
        List.exists_cons_of_ne_nil (escapeLines_ne_nil (List.cons_ne_nil next rest))
      rw [hmore] at ih
      rw [escapeLines, hmore, unescapeLines, ih, continued?_append_backslash]
      rfl

/-- Escaped lines are joined with a backslash in front of each line feed. -/
theorem joinLines_escapeLines (ls : List (List Char)) :
    joinLines (escapeLines ls) = List.intercalate ['\\', '\n'] ls := by
  induction ls with
  | nil => rfl
  | cons line ls ih =>
    cases ls with
    | nil => rfl
    | cons next rest =>
      rw [escapeLines, Chars.joinLines_cons _ (escapeLines_ne_nil (List.cons_ne_nil next rest)), ih,
        List.intercalate_cons_cons, List.append_assoc, List.append_assoc]
      rfl

/-- A backslash breaks no line. -/
theorem unbroken_escapeLines (h : ∀ l ∈ ls, Unbroken l) : ∀ l ∈ escapeLines ls, Unbroken l := by
  induction ls with
  | nil => exact h
  | cons line ls ih =>
    cases ls with
    | nil => exact h
    | cons next rest =>
      intro l hl
      rcases List.mem_cons.mp hl with rfl | hl
      · exact (h line List.mem_cons_self).append (by decide)
      · exact ih (fun m hm => h m (List.mem_cons_of_mem _ hm)) l hl

/-- A command that was run at a time and took a while, both in seconds. -/
structure Record where
  seconds : Nat
  duration : Nat
  lines : List (List Char)

namespace Record

/-- A record in a file: behind its head the lines of the command, with a backslash and a line feed
between them. -/
def text (r : Record) : List Char :=
  headText r.seconds r.duration ++ (List.intercalate ['\\', '\n'] r.lines ++ ['\n'])

/-- The entry of a record, with its times in milliseconds. -/
def entry (r : Record) : Entry where
  command := String.ofList (joinLines r.lines)
  timestamp := some ((r.seconds : Int) * 1000)
  duration := some ((r.duration : Int) * 1000)
  source := "zsh"

/-- The command is not blank and its last line not empty, and none of the lines behind its first is
written as a head. -/
structure WellFormed (r : Record) : Prop where
  unbroken : ∀ l ∈ r.lines, Unbroken l
  filled : ∃ l ∈ r.lines, l.all Chars.isBlank = false
  ends : ∀ l ∈ r.lines.getLast?, l ≠ []
  unheaded : ∀ l ∈ (escapeLines r.lines).tail, head? l = none

/-- Both times of a record are of no more digits than are read. -/
def Readable (r : Record) : Prop :=
  r.seconds < Decimal.writableLimit ∧ r.duration < Decimal.writableLimit

/-- The block that a record is written as. -/
def block (r : Record) : Block where
  seconds := r.seconds
  duration := r.duration
  first := (escapeLines r.lines).headD []
  more := (escapeLines r.lines).tail

variable {r : Record}

/-- A record that is well-formed has a line. -/
theorem WellFormed.lines_ne_nil (h : r.WellFormed) : r.lines ≠ [] := by
  obtain ⟨l, hl, -⟩ := h.filled
  exact List.ne_nil_of_mem hl

/-- Its block has its lines, escaped. -/
theorem WellFormed.block_eq (h : r.WellFormed) :
    r.block.first :: r.block.more = escapeLines r.lines := by
  obtain ⟨line, more, hmore⟩ := List.exists_cons_of_ne_nil (escapeLines_ne_nil h.lines_ne_nil)
  rw [block, hmore]
  rfl

/-- Its text is that of its block. -/
theorem WellFormed.text_eq (h : r.WellFormed) : r.text = ofLines r.block.fileLines := by
  have hlines := Chars.joinLines_append_feed (escapeLines_ne_nil h.lines_ne_nil)
  rw [← h.block_eq, Chars.ofLines_cons] at hlines
  rw [Block.fileLines, Chars.ofLines_cons, List.append_assoc, ← hlines, h.block_eq,
    joinLines_escapeLines]
  rfl

/-- Its block is written on lines. -/
theorem WellFormed.unbroken_block (h : r.WellFormed) : ∀ l ∈ r.block.fileLines, Unbroken l := by
  refine Block.unbroken_fileLines ?_
  rw [h.block_eq]
  exact unbroken_escapeLines h.unbroken

/-- Its block is finished as its entry. -/
theorem WellFormed.finish_block (h : r.WellFormed) : r.block.pending.finish = [r.entry] := by
  have hlines : r.block.pending.lines = r.lines := by
    rw [Block.pending, h.block_eq, unescapeLines_escapeLines]
  have hfilled : (joinLines r.lines).all Chars.isBlank = false := by
    obtain ⟨l, hl, hblank⟩ := h.filled
    rw [Chars.all_joinLines (by decide)]
    exact List.all_eq_false.mpr ⟨l, hl, by simp [hblank]⟩
  -- No line of the record holds a newline, so the joined text does not end in one.
  have hfeed : (joinLines r.lines).getLast? ≠ some '\n' := by
    obtain ⟨l, hl⟩ := Option.ne_none_iff_exists'.mp
      (mt List.getLast?_eq_none_iff.mp h.lines_ne_nil)
    rw [Chars.getLast?_joinLines hl (h.ends l hl)]
    exact getLast?_ne_feed (h.unbroken l (List.mem_of_getLast? hl))
  rw [← hlines] at hfilled hfeed
  rw [finish_of_filled hfilled hfeed, hlines]
  rfl

/-- A line of it makes reading fail just if one of its times is too long. -/
theorem WellFormed.breaks_iff (h : r.WellFormed) :
    (∃ l ∈ r.block.fileLines, Breaks l) ↔ ¬ r.Readable := by
  have hhead : Breaks (headText r.seconds r.duration ++ r.block.first) ↔ ¬ r.Readable := by
    rw [Readable, ← Number.Decimal.length_ofNat_le_iff, ← Number.Decimal.length_ofNat_le_iff,
      not_and_or, not_le, not_le, Breaks, head?_headText]
    simp
  have hmore : ¬ ∃ l ∈ r.block.more, Breaks l := by
    rintro ⟨l, hl, _, _, _, hhead, -⟩
    rw [h.unheaded l hl] at hhead
    cases hhead
  rw [Block.fileLines, List.exists_mem_cons_iff, or_iff_left hmore]
  exact hhead

end Record

/-- What a file holds: commands without times, and then records. -/
structure Content where
  bare : List (List Char) := []
  records : List Record := []

namespace Content

/-- The text of a file. -/
def text (f : Content) : String :=
  String.ofList (ofLines f.bare ++ f.records.flatMap Record.text)

/-- The entries of a file. -/
def entries (f : Content) : List Entry :=
  f.bare.map bareEntry ++ f.records.map Record.entry

/-- No command in front of the records goes on behind its line. -/
structure WellFormed (f : Content) : Prop where
  bare : ∀ l ∈ f.bare, IsBare l
  ends : ∀ l ∈ f.bare, l.getLast? ≠ some '\\'
  records : ∀ r ∈ f.records, r.WellFormed

variable {f : Content}

/-- The lines of a file are its bare ones, and then those of its blocks. -/
theorem WellFormed.lines_text (h : f.WellFormed) :
    Chars.lines f.text.toList = f.bare ++ (f.records.map Record.block).flatMap Block.fileLines := by
  have htext : f.text.toList
      = ofLines (f.bare ++ (f.records.map Record.block).flatMap Block.fileLines) := by
    rw [text, String.toList_ofList, Chars.ofLines_append, List.flatMap_map, ofLines, ofLines,
      List.flatMap_assoc, List.flatMap_congr fun r hr => (h.records r hr).text_eq]
    rfl
  rw [htext]
  refine Chars.lines_ofLines fun l hl => ?_
  rcases List.mem_append.mp hl with hbare | hrecord
  · exact (h.bare l hbare).unbroken
  · rw [List.flatMap_map] at hrecord
    obtain ⟨r, hr, hl⟩ := List.mem_flatMap.mp hrecord
    exact (h.records r hr).unbroken_block l hl

/-- A file whose times can be read is read as its entries. -/
theorem WellFormed.parse_of_readable (h : f.WellFormed) (hread : ∀ r ∈ f.records, r.Readable) :
    parse f.text = .ok f.entries := by
  have hblocks : ∀ b ∈ f.records.map Record.block, b.WellFormed := by
    intro b hb
    obtain ⟨r, hr, rfl⟩ := List.mem_map.mp hb
    exact ⟨(hread r hr).1, (hread r hr).2, (h.records r hr).unheaded⟩
  -- The lines in front of the first record are commands without a time.
  have hbare : entriesFrom {} f.bare = .ok (f.bare.map bareEntry) :=
    entriesFrom_bare h.bare fun l hl => by
      rw [continued?, if_neg (h.ends l (List.mem_of_mem_dropLast hl))]
  have hrecords : (f.records.map Record.block).flatMap (fun b => b.pending.finish)
      = f.records.map Record.entry := by
    rw [List.flatMap_map, List.flatMap_congr fun r hr => (h.records r hr).finish_block,
      ← List.map_eq_flatMap]
  rw [parse, h.lines_text, entriesFrom_append (startsRecord_blocks _), hbare,
    entriesFrom_blocks hblocks, hrecords]
  rfl

/-- Reading fails just if a time is too long to be read. -/
theorem WellFormed.fails_parse_iff (h : f.WellFormed) :
    Fails (parse f.text) ↔ ∃ r ∈ f.records, ¬ r.Readable := by
  rw [parse, h.lines_text, fails_entriesFrom_iff]
  constructor
  · rintro ⟨l, hl, hbreaks⟩
    -- The bare lines in front have no head, so no number of theirs is read.
    rcases List.mem_append.mp hl with hbare | hrecord
    · obtain ⟨_, _, _, hhead, -⟩ := hbreaks
      rw [(h.bare l hbare).unheaded] at hhead
      cases hhead
    · rw [List.flatMap_map] at hrecord
      obtain ⟨r, hr, hl⟩ := List.mem_flatMap.mp hrecord
      exact ⟨r, hr, (h.records r hr).breaks_iff.mp ⟨l, hl, hbreaks⟩⟩
  · rintro ⟨r, hr, hlong⟩
    obtain ⟨l, hl, hbreaks⟩ := (h.records r hr).breaks_iff.mpr hlong
    refine ⟨l, List.mem_append_right _ ?_, hbreaks⟩
    rw [List.flatMap_map]
    exact List.mem_flatMap.mpr ⟨r, hr, hl⟩

end Content

/-- **The records of a zsh history are read back.** A file of commands without times and of records
behind them is read as these in order, with the times in milliseconds and the lines of each command
as they are, just if no time has more digits than are read. -/
theorem parse_eq_entries_iff {f : Content} (h : f.WellFormed) :
    parse f.text = .ok f.entries ↔ ∀ r ∈ f.records, r.Readable := by
  constructor
  · intro hread
    by_contra hlong
    have hfails := h.fails_parse_iff.mpr (by simpa using hlong)
    exact not_fails_ok _ (hread ▸ hfails)
  · exact h.parse_of_readable

/-- A file with a command without times, and a record of four lines behind it. -/
def Content.mixed : Content where
  bare := ["ls -a".toList]
  records := [⟨12, 3, ["echo \\".toList, [], "\\".toList, ": x1:2;\\".toList]⟩]

/-- Lines may be empty or end in backslashes of their own, of which none is lost. -/
theorem parse_eq_entries_mixed : Content.mixed.WellFormed ∧
    parse "ls -a\n: 12:3;echo \\\\\n\\\n\\\\\n: x1:2;\\\n"
      = .ok [{ command := "ls -a", source := "zsh" },
             { command := "echo \\\n\n\\\n: x1:2;\\", timestamp := some 12000,
               duration := some 3000, source := "zsh" }] := by
  have hfile : Content.mixed.WellFormed := by
    refine ⟨fun l hl => ?_, by decide, fun r hr => ?_⟩
    · obtain rfl := List.mem_singleton.mp hl
      exact ⟨by decide, by decide, by decide⟩
    · obtain rfl := List.mem_singleton.mp hr
      exact ⟨by decide, ⟨"echo \\".toList, by decide, by decide⟩, by decide, by decide⟩
  have htext : Content.mixed.text
      = "ls -a\n: 12:3;echo \\\\\n\\\n\\\\\n: x1:2;\\\n" := by decide
  have hread := (parse_eq_entries_iff hfile).mpr
    (by simpa [Content.mixed, Record.Readable] using ⟨by decide +kernel, by decide +kernel⟩)
  rw [htext] at hread
  exact ⟨hfile, hread.trans rfl⟩

/-- A file with one record, of a time with too many digits. -/
def Content.overlong : Content where
  records := [⟨Decimal.writableLimit, 0, ["ls".toList]⟩]

/-- A number with too many digits is a number all the same, but a file with it is not read. -/
theorem parse_overlong : Content.overlong.WellFormed ∧
    parse Content.overlong.text ≠ .ok Content.overlong.entries := by
  have hfile : Content.overlong.WellFormed := by
    refine ⟨nofun, nofun, fun r hr => ?_⟩
    obtain rfl := List.mem_singleton.mp hr
    exact ⟨by decide, ⟨"ls".toList, by decide, by decide⟩, by decide, nofun⟩
  have hfails : Fails (parse Content.overlong.text) := by
    refine hfile.fails_parse_iff.mpr ⟨_, List.mem_singleton_self _, ?_⟩
    simp [Record.Readable]
  exact ⟨hfile, fun hread => not_fails_ok _ (hread ▸ hfails)⟩

end ShellAssist.History.Zsh
