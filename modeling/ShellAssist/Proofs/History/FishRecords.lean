import ShellAssist.History.Dialect.Fish
import ShellAssist.Proofs.History.Journal
import ShellAssist.Proofs.Sorting
import Mathlib.Data.Int.ConditionallyCompleteOrder
import Mathlib.Order.WithBot

namespace ShellAssist.History

/-!
# Records of a fish history

A fish history is read record by record: a line with the command begins one, and the lines behind it
add its time and its paths. The entries are then sorted by time, those without one first.

* `Fish.unescape_escape` — line feeds and backslashes are written with backslashes, and read back;
* `Fish.recordsFrom_records` — the records are read one by one;
* `Fish.isStableSort_parse` — what a file is read as, whatever the times in it;
* `Fish.parse_sorts_iff` — that is the records, sorted, just if their times are not too long.
-/

/-- The time of an entry; an entry without one is before all others. -/
def Entry.time (e : Entry) : WithBot Int :=
  e.timestamp.elim ⊥ fun t => (t : WithBot Int)

/-- The first entry is no newer than the second. -/
def Entry.NoNewer (a b : Entry) : Prop :=
  a.time ≤ b.time

/-- Entries are ordered by their times. -/
theorem Entry.ordersList_noNewer (entries : List Entry) : OrdersList Entry.NoNewer entries :=
  .of_key Entry.time fun _ _ _ _ => Iff.rfl

namespace Fish

open Number (Decimal.ofInt Decimal.writableLimit Numeral.int Numeral.int_ofInt)
open Chars (Unbroken FeedsOnly ofLines)
open Bash (joinLines)

variable {rest : List (List Char)}

/-- The computed order is that of the times. -/
theorem noNewer_iff (a b : Entry) : noNewer a b = true ↔ a.NoNewer b := by
  unfold noNewer Entry.NoNewer Entry.time
  cases a.timestamp with
  | none => simp
  | some s => cases b.timestamp <;> simp

/-! ### Escapes -/

/-- A character as it is written: a backslash twice, and a line feed as a backslash with an `n`. -/
def escapeChar (c : Char) : List Char :=
  if c = '\\' then ['\\', '\\'] else if c = '\n' then ['\\', 'n'] else [c]

/-- A text with its line feeds and backslashes escaped. -/
def escapeChars (text : List Char) : List Char :=
  text.flatMap escapeChar

/-- A text with its line feeds and backslashes escaped. -/
def escape (text : String) : String :=
  String.ofList (escapeChars text.toList)

/-- What is no backslash is kept. -/
theorem unescapeChars_cons {c : Char} (h : c ≠ '\\') (rest : List Char) :
    unescapeChars (c :: rest) = c :: unescapeChars rest :=
  unescapeChars.eq_3 c rest (fun _ hc => absurd hc h) fun _ hc => absurd hc h

/-- However many backslashes stand before an `n`, each is read with the one it was written with. -/
theorem unescapeChars_escapeChars (text : List Char) :
    unescapeChars (escapeChars text) = text := by
  induction text with
  | nil => rfl
  | cons c text ih =>
    rw [escapeChars, List.flatMap_cons, ← escapeChars, escapeChar]
    -- A backslash and a newline become two characters, every other one stays as it is.
    split
    · rename_i hc
      subst hc
      rw [List.cons_append, List.cons_append, List.nil_append, unescapeChars, ih]
    · split
      · rename_i hc
        subst hc
        rw [List.cons_append, List.cons_append, List.nil_append, unescapeChars, ih]
      · rename_i hc _
        rw [List.singleton_append, unescapeChars_cons hc, ih]

/-- An escaped text is read back. -/
theorem unescape_escape (text : String) : unescape (escape text) = text := by
  rw [unescape, escape, String.toList_ofList, unescapeChars_escapeChars, String.ofList_toList]

/-- An escaped text stands on one line. -/
theorem unbroken_escapeChars {text : List Char} (h : FeedsOnly text) :
    Unbroken (escapeChars text) := by
  intro d hd
  obtain ⟨c, hc, hd⟩ := List.mem_flatMap.mp hd
  rw [escapeChar] at hd
  split at hd
  · rw [List.mem_pair.mp hd |>.elim id id]
    decide
  · split at hd
    · rcases List.mem_pair.mp hd with rfl | rfl <;> decide
    · rename_i hfeed
      rw [List.mem_singleton.mp hd]
      exact (h c hc).resolve_left hfeed

/-! ### Lines -/

/-- What stands behind a mark is found. -/
theorem behind?_append (mark : String) (text : List Char) :
    behind? mark (mark.toList ++ text) = some text := by
  rw [behind?, if_pos (by simp), List.drop_left]

/-- Without the mark nothing is. -/
theorem behind?_eq_none {mark : String} {line : List Char} (h : ¬ mark.toList <+: line) :
    behind? mark line = none :=
  if_neg fun hp => h (List.isPrefixOf_iff_prefix.mp hp)

/-- The line of a command. -/
theorem ofChars_command (text : List Char) :
    Line.ofChars ("- cmd: ".toList ++ text) = .command text := by
  rw [Line.ofChars, behind?_append]

/-- The line of a time. -/
theorem ofChars_seconds (text : List Char) :
    Line.ofChars ("  when: ".toList ++ text) = .seconds text := by
  have hcommand : ¬ "- cmd: ".toList <+: "  when: ".toList ++ text := by simp
  rw [Line.ofChars, behind?_eq_none hcommand, behind?_append]

/-- The line in front of the paths. -/
theorem ofChars_paths : Line.ofChars "  paths:".toList = .paths := by
  decide

/-- The line of a path. -/
theorem ofChars_path (text : List Char) :
    Line.ofChars ("    - ".toList ++ text) = .path text := by
  have hcommand : ¬ "- cmd: ".toList <+: "    - ".toList ++ text := by simp
  have hseconds : ¬ "  when: ".toList <+: "    - ".toList ++ text := by simp
  -- Whatever blanks stand at its end, the line begins with four of them.
  have hpaths : Chars.dropEndWhile Chars.isBlank ("    - ".toList ++ text) ≠ "  paths:".toList := by
    intro h
    have hprefix := Chars.dropEndWhile_prefix Chars.isBlank ("    - ".toList ++ text)
    rw [h] at hprefix
    simp at hprefix
  rw [Line.ofChars, behind?_eq_none hcommand, behind?_eq_none hseconds]
  simp only [if_neg hpaths, behind?_append]

/-- A line that begins no record adds to the one that is being read. -/
theorem recordsFrom_cons_of_said {line : List Char} {said : Line} (h : Line.ofChars line = said)
    (hsaid : ∀ text, said ≠ .command text) (current : Option Record) :
    recordsFrom current (line :: rest) = recordsFrom (current.map (·.add said)) rest := by
  rw [recordsFrom, h]
  cases said with
  | command text => exact absurd rfl (hsaid text)
  | seconds text => rfl
  | paths => rfl
  | path text => rfl
  | more text => rfl
  | other => rfl

/-! ### What a file holds -/

/-- A command that was run, at a time in seconds if that is known, and on some paths. -/
structure Stored where
  command : List Char
  seconds : Option Int := none
  paths : List (List Char) := []

namespace Stored

/-- The lines that hold the time of a record. -/
def secondsLines (seconds : Option Int) : List (List Char) :=
  (seconds.map fun n => "  when: ".toList ++ Decimal.ofInt n).toList

/-- The lines that hold the paths of a record. -/
def pathsLines (paths : List (List Char)) : List (List Char) :=
  if paths.isEmpty then []
  else "  paths:".toList :: paths.map fun path => "    - ".toList ++ escapeChars path

/-- The lines of a file that hold a record. -/
def fileLines (r : Stored) : List (List Char) :=
  ("- cmd: ".toList ++ escapeChars r.command) :: (secondsLines r.seconds ++ pathsLines r.paths)

/-- The entry of a record: its time in milliseconds, its first path as the directory, and all of
them in the metadata. -/
def entry (r : Stored) : Entry where
  command := String.ofList r.command
  timestamp := r.seconds.map (· * 1000)
  cwd := r.paths.head?.map String.ofList
  source := "fish"
  metadata := [("paths", .list (r.paths.map fun path => .str (String.ofList path)))]

/-- The command is not blank, and line feeds are the only line boundaries in it and in the paths. -/
structure WellFormed (r : Stored) : Prop where
  command : FeedsOnly r.command
  filled : r.command.all Chars.isBlank = false
  paths : ∀ path ∈ r.paths, FeedsOnly path

/-- The time of a record has no more digits than are read. -/
def Readable (r : Stored) : Prop :=
  ∀ n ∈ r.seconds, n.natAbs < Decimal.writableLimit

/-- A record without its time, if that has too many digits. -/
def asRead (r : Stored) : Stored :=
  { r with seconds := r.seconds.filter fun n => n.natAbs < Decimal.writableLimit }

/-- What is known of a record behind its last line. -/
def read (r : Stored) : Record where
  command := r.command
  seconds := r.asRead.seconds
  paths := r.paths
  inCommand := r.seconds.isNone && r.paths.isEmpty

variable {r : Stored}

/-- A record whose time can be read is read as it is. -/
theorem asRead_of_readable (h : r.Readable) : r.asRead = r := by
  rw [asRead]
  cases hseconds : r.seconds with
  | none => rw [Option.filter_none, ← hseconds]
  | some n => rw [Option.filter_some, if_pos (decide_eq_true (h n hseconds)), ← hseconds]

/-- What was read of a record is its entry. -/
theorem entry?_read (h : r.WellFormed) : r.read.entry? = some r.asRead.entry := by
  rw [Record.entry?, if_neg (by rw [read, h.filled]; decide)]
  simp [entry, read, asRead]

/-- A record is written on lines. -/
theorem WellFormed.unbroken (h : r.WellFormed) : ∀ line ∈ r.fileLines, Unbroken line := by
  intro line hline
  rcases List.mem_cons.mp hline with rfl | hline
  · exact Unbroken.append (by decide) (unbroken_escapeChars h.command)
  · rcases List.mem_append.mp hline with hseconds | hpaths
    · obtain ⟨n, -, rfl⟩ := Option.map_eq_some_iff.mp (Option.mem_toList.mp hseconds)
      exact Unbroken.append (by decide) (Json.printable_ofInt n).unbroken
    · rw [pathsLines] at hpaths
      split at hpaths
      · cases hpaths
      · rcases List.mem_cons.mp hpaths with rfl | hpath
        · decide
        · obtain ⟨path, hmem, rfl⟩ := List.mem_map.mp hpath
          exact Unbroken.append (by decide) (unbroken_escapeChars (h.paths path hmem))

/-- No line is empty. -/
theorem ne_nil_of_mem_fileLines (r : Stored) {line : List Char} (hline : line ∈ r.fileLines) :
    line ≠ [] := by
  rcases List.mem_cons.mp hline with rfl | hline
  · simp
  · rcases List.mem_append.mp hline with hseconds | hpaths
    · obtain ⟨n, -, rfl⟩ := Option.map_eq_some_iff.mp (Option.mem_toList.mp hseconds)
      simp
    · rw [pathsLines] at hpaths
      split at hpaths
      · cases hpaths
      · rcases List.mem_cons.mp hpaths with rfl | hpath
        · decide
        · obtain ⟨path, -, rfl⟩ := List.mem_map.mp hpath
          simp

end Stored

/-! ### Reading records -/

/-- The line with the time, if there is one, sets the time and ends the command. -/
theorem recordsFrom_secondsLines (current : Record) (hcurrent : current.seconds = none)
    (seconds : Option Int) :
    recordsFrom (some current) (Stored.secondsLines seconds ++ rest)
      = recordsFrom (some { current with
          seconds := seconds.filter fun n => n.natAbs < Decimal.writableLimit
          inCommand := current.inCommand && seconds.isNone }) rest := by
  cases seconds with
  | none =>
    rw [Stored.secondsLines, Option.map_none, Option.filter_none, Option.isNone_none,
      Bool.and_true, ← hcurrent]
    rfl
  | some n =>
    have hstrip : Chars.strip (Decimal.ofInt n) = Decimal.ofInt n :=
      Chars.trim_eq_self fun c hc => Number.Decimal.isBlank_of_mem_ofInt hc
    -- A number too long to be read counts as none, as it does when it is read.
    have hadd : current.add (.seconds (Decimal.ofInt n)) = { current with
        seconds := (some n).filter fun n => n.natAbs < Decimal.writableLimit
        inCommand := false } := by
      rw [Record.add, hstrip, Numeral.int_ofInt, Option.filter_some]
      by_cases hread : n.natAbs < Decimal.writableLimit
      · simp [hread]
      · simp [hread, hcurrent]
    show recordsFrom (some current) (("  when: ".toList ++ Decimal.ofInt n) :: rest) = _
    rw [recordsFrom_cons_of_said (ofChars_seconds _) nofun, Option.map_some, hadd]
    simp

/-- Every line of a path adds it to the others. -/
theorem recordsFrom_pathLines (current : Record) (paths : List (List Char)) :
    recordsFrom (some current) ((paths.map fun path => "    - ".toList ++ escapeChars path) ++ rest)
      = recordsFrom (some { current with paths := current.paths ++ paths }) rest := by
  induction paths generalizing current with
  | nil => simp
  | cons path paths ih =>
    rw [List.map_cons, List.cons_append, recordsFrom_cons_of_said (ofChars_path _) nofun,
      Option.map_some, ih, Record.add, unescapeChars_escapeChars, List.append_assoc]
    rfl

/-- The paths are read into the record before them. -/
theorem recordsFrom_pathsLines (current : Record) (paths : List (List Char)) :
    recordsFrom (some current) (Stored.pathsLines paths ++ rest)
      = recordsFrom (some { current with
          paths := current.paths ++ paths
          inCommand := current.inCommand && paths.isEmpty }) rest := by
  rw [Stored.pathsLines]
  split
  · rename_i hempty
    simp [List.isEmpty_iff.mp hempty]
  · rename_i hempty
    rw [List.cons_append, recordsFrom_cons_of_said ofChars_paths nofun, Option.map_some,
      recordsFrom_pathLines]
    simp [Record.add, hempty]

/-- The lines of a record are read as that record, and end the one before it. -/
theorem recordsFrom_fileLines (current : Option Record) (r : Stored) :
    recordsFrom current (r.fileLines ++ rest)
      = current.toList ++ recordsFrom (some r.read) rest := by
  rw [Stored.fileLines, List.cons_append, List.append_assoc, recordsFrom, ofChars_command]
  simp only [unescapeChars_escapeChars]
  rw [recordsFrom_secondsLines _ rfl, recordsFrom_pathsLines]
  simp [Stored.read, Stored.asRead]

/-- The records of a file are read one by one. -/
theorem recordsFrom_records (current : Option Record) (rs : List Stored) :
    recordsFrom current (rs.flatMap Stored.fileLines) = current.toList ++ rs.map Stored.read := by
  induction rs generalizing current with
  | nil => simp [recordsFrom]
  | cons r rs ih =>
    rw [List.flatMap_cons, recordsFrom_fileLines, ih, List.map_cons, Option.toList_some]
    rfl

/-! ### Reading files -/

/-- What a file holds. -/
structure Content where
  records : List Stored := []
  /-- Whether there is a line feed behind the last line. -/
  terminated : Bool := true

namespace Content

/-- The lines of a file. -/
def fileLines (f : Content) : List (List Char) :=
  f.records.flatMap Stored.fileLines

/-- The text of a file. -/
def text (f : Content) : String :=
  String.ofList (if f.terminated then ofLines f.fileLines else joinLines f.fileLines)

/-- All records are such. -/
def WellFormed (f : Content) : Prop :=
  ∀ r ∈ f.records, r.WellFormed

variable {f : Content}

/-- The lines of a file are those of its records. -/
theorem WellFormed.lines_text (h : f.WellFormed) : Chars.lines f.text.toList = f.fileLines := by
  have hunbroken : ∀ line ∈ f.fileLines, Unbroken line := by
    intro line hline
    obtain ⟨r, hr, hline⟩ := List.mem_flatMap.mp hline
    exact (h r hr).unbroken line hline
  rw [text, String.toList_ofList]
  split
  · exact Chars.lines_ofLines hunbroken
  · refine Chars.lines_joinLines hunbroken fun line hline => ?_
    obtain ⟨r, -, hline⟩ := List.mem_flatMap.mp (List.mem_of_getLast? hline)
    exact r.ne_nil_of_mem_fileLines hline

/-- A file is read as its records, of which those with too long a time have none, sorted by time. -/
theorem WellFormed.isStableSort_parse (h : f.WellFormed) :
    IsStableSort Entry.NoNewer (f.records.map fun r => r.asRead.entry) (parse f.text) := by
  have hentries : (recordsFrom none (Chars.lines f.text.toList)).filterMap Record.entry?
      = f.records.map fun r => r.asRead.entry := by
    rw [h.lines_text, fileLines, recordsFrom_records, Option.toList_none, List.nil_append,
      List.filterMap_map, ← List.filterMap_eq_map]
    exact List.filterMap_congr fun r hr => Stored.entry?_read (h r hr)
  rw [parse, hentries]
  exact isStableSort_mergeSort (Entry.ordersList_noNewer _) fun a _ b _ => noNewer_iff a b

end Content

/-- Records are entries of the same times as the records that are read for them only if no time is
too long: reading forgets times, and adds none. -/
theorem readable_of_perm {rs : List Stored}
    (h : (rs.map fun r => r.asRead.entry).Perm (rs.map Stored.entry)) : ∀ r ∈ rs, r.Readable := by
  -- Reading can only lose a time; as many are left, so none was lost.
  have hmono (r : Stored) (hr : r.asRead.entry.timestamp.isSome = true) :
      r.entry.timestamp.isSome = true := by
    cases hseconds : r.seconds with
    | none => simp [Stored.entry, Stored.asRead, hseconds] at hr
    | some n => simp [Stored.entry, hseconds]
  have hcount := h.countP_eq fun e => e.timestamp.isSome
  rw [List.countP_map, List.countP_map, List.countP_eq_length_filter,
    List.countP_eq_length_filter] at hcount
  have hsame := (List.monotone_filter_right rs hmono).eq_of_length hcount
  intro r hr n hn
  have hread : r ∈ rs.filter fun r => r.entry.timestamp.isSome :=
    List.mem_filter.mpr ⟨hr, by simp [Stored.entry, Option.mem_def.mp hn]⟩
  replace hread := (List.mem_filter.mp (hsame.symm ▸ hread)).2
  simpa [Stored.entry, Stored.asRead, Option.mem_def.mp hn, Option.filter_some] using hread

/-- **The records of a fish history are read back**, sorted by time with those without one first,
and otherwise as they stand in the file, just if no time has more digits than are read. Whatever is
escaped is read back as it was. -/
theorem parse_sorts_iff {f : Content} (h : f.WellFormed) :
    (∀ text, unescape (escape text) = text) ∧
      (IsStableSort Entry.NoNewer (f.records.map Stored.entry) (parse f.text)
        ↔ ∀ r ∈ f.records, r.Readable) := by
  refine ⟨unescape_escape, fun hsort => ?_, fun hread => ?_⟩
  · exact readable_of_perm (h.isStableSort_parse.perm.symm.trans hsort.perm)
  · have hasRead : (f.records.map fun r => r.asRead.entry) = f.records.map Stored.entry :=
      List.map_congr_left fun r hr => by rw [Stored.asRead_of_readable (hread r hr)]
    exact hasRead ▸ h.isStableSort_parse

/-- A file with a command of two lines, one without a time, and one of the same time as the first.
-/
def Content.mixed : Content where
  records := [
    { command := "echo \\\n\\n".toList, seconds := some (-7),
      paths := ["a b".toList, "\\n".toList] },
    { command := "ls".toList },
    { command := "pwd".toList, seconds := some (-7) }]
  terminated := false

/-- A backslash in front of a line feed and one in front of an `n` are kept apart. -/
theorem parse_sorts_mixed : Content.mixed.WellFormed ∧
    Content.mixed.fileLines.map String.ofList
      = ["- cmd: echo \\\\\\n\\\\n", "  when: -7", "  paths:", "    - a b", "    - \\\\n",
         "- cmd: ls", "- cmd: pwd", "  when: -7"] ∧
    IsStableSort Entry.NoNewer
      [{ command := "echo \\\n\\n", timestamp := some (-7000), cwd := some "a b", source := "fish",
         metadata := [("paths", .list [.str "a b", .str "\\n"])] },
       { command := "ls", source := "fish", metadata := [("paths", .list [])] },
       { command := "pwd", timestamp := some (-7000), source := "fish",
         metadata := [("paths", .list [])] }]
      (parse Content.mixed.text) := by
  have hfile : Content.mixed.WellFormed := by
    simp only [Content.WellFormed, Content.mixed, List.forall_mem_cons]
    exact ⟨⟨by decide, by decide, by decide⟩, ⟨by decide, by decide, nofun⟩,
      ⟨by decide, by decide, nofun⟩, nofun⟩
  have hread : ∀ r ∈ Content.mixed.records, r.Readable := by
    have htime : (-7 : Int).natAbs < Decimal.writableLimit := by decide +kernel
    simpa [Content.mixed, Stored.Readable] using htime
  exact ⟨hfile, by decide, (parse_sorts_iff hfile).2.mpr hread⟩

/-- A file with a command of a time with too many digits, and one without a time behind it. -/
def Content.overlong : Content where
  records := [{ command := "late".toList, seconds := some Decimal.writableLimit },
    { command := "early".toList }]

/-- The time is taken for unknown, so that the first command stays in front of the second. -/
theorem parse_sorts_overlong : Content.overlong.WellFormed ∧
    ¬ IsStableSort Entry.NoNewer (Content.overlong.records.map Stored.entry)
      (parse Content.overlong.text) := by
  have hfile : Content.overlong.WellFormed := by
    simp only [Content.WellFormed, Content.overlong, List.forall_mem_cons]
    exact ⟨⟨by decide, by decide, nofun⟩, ⟨by decide, by decide, nofun⟩, nofun⟩
  refine ⟨hfile, fun hsort => ?_⟩
  have hread := readable_of_perm (hfile.isStableSort_parse.perm.symm.trans hsort.perm)
    _ List.mem_cons_self _ rfl
  rw [Int.natAbs_natCast] at hread
  exact hread.false

end Fish

end ShellAssist.History
