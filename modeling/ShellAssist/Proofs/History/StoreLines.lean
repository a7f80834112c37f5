import ShellAssist.Proofs.History.Refusals
import ShellAssist.Proofs.Text.Strip

namespace ShellAssist

/-!
# The lines of the program's own history

Every filled line of the file is an entry: that of its record, or else the line as a command. Reading
differs from that in two ways. A line on which reading fails takes the whole file with it, and a line
ends at any boundary, not only at a line feed.

* `Journal.entryOf` — the entry that a line stands for;
* `Journal.lineEntries` — one entry for each line, where only line feeds end lines;
* `Journal.parse_of_not_fails` — what is read if reading does not fail;
* `Store.parse_eq_lineEntries_iff` — the files that are read as one entry for each such line.
-/

/-! ### JSON texts of objects -/

namespace Json

variable {members : Members}

/-- Neither a constant nor a number is an object. -/
theorem readScalar_ne_obj {text rest : List Char} :
    readScalar text ≠ .ok ⟨.obj members, rest⟩ := by
  have hnumber (text : List Char) (negative : Bool) (body : List Char) :
      readNumber text negative body ≠ .ok ⟨.obj members, rest⟩ := by
    unfold readNumber
    dsimp only
    split
    · nofun
    · split
      · split <;> nofun
      · nofun
  unfold readScalar
  -- A constant or a number: neither is an object.
  cases hconstant : readConstant? text with
  | none => dsimp only; split <;> exact hnumber _ _ _
  | some found =>
    obtain ⟨⟨word, value⟩, hword, rfl⟩ := Option.map_eq_some_iff.mp hconstant
    have hmem := List.mem_of_find?_eq_some hword
    intro h
    obtain rfl : value = .obj members := congrArg Taken.value (Except.ok.inj h)
    simp [constants] at hmem

/-- The space between tokens is white space. -/
theorem isBlank_of_isSpace {c : Char} (h : isSpace c = true) : Chars.isBlank c = true := by
  simp only [isSpace, Bool.or_eq_true, decide_eq_true_eq] at h
  rcases h with ((rfl | rfl) | rfl) | rfl <;> rfl

/-- An object begins with a brace. -/
theorem brace_of_readValue {fuel room : Nat} {text : List Char} {taken : Taken Json}
    (h : readValue (fuel + 1) room text = .ok taken) (hobj : taken.value = .obj members) :
    ∃ rest, text = '\x7b' :: rest := by
  -- Strings and lists have a mark and a value of their own.
  cases valueRead_of_readValue h with
  | string | emptyArray | array => cases hobj
  | emptyObject | object => exact ⟨_, rfl⟩
  | scalar _ hscalar =>
    obtain ⟨value, behind⟩ := taken
    obtain rfl : value = .obj members := hobj
    exact absurd hscalar readScalar_ne_obj

/-- Behind the space in front of it, so does the text of an object. -/
theorem skipSpace_of_read_obj {text : List Char} {nesting : Nat}
    (h : read nesting text = .ok (.obj members)) :
    ∃ rest, skipSpace text = '\x7b' :: rest := by
  obtain ⟨taken, htaken, hobj⟩ := readValue_of_read h
  exact brace_of_readValue htaken hobj

end Json

namespace History

namespace Journal

/-! ### What a line stands for -/

/-- A value as a whole number; one that has none counts as nothing. -/
def wholeOrNone (v : Option Json) : Option Int :=
  match Entry.wholeOf v with
  | .ok n => n
  | .error _ => none

/-- The entry of a record with a usable command, a text that is not blank. Of each field the first name
with a value counts. -/
def entryOfRecord? (record : Members) : Option Entry :=
  match Entry.firstOf record ["command", "cmd"] with
  | some (.str command) =>
    if Text.isBlank command then none
    else some {
      command
      timestamp := wholeOrNone (Entry.firstOf record ["timestamp", "ts"])
      exitCode := wholeOrNone (Entry.firstOf record ["exit_code", "exitCode", "exit"])
      cwd := Entry.textOf (Entry.firstOf record ["cwd", "dir"])
      duration := wholeOrNone (Entry.firstOf record ["duration", "dur"])
      source := sourceName
      metadata := match Members.get? record "metadata" with
        | some (.obj members) => Value.ofMembers members
        | _ => [] }
  | _ => none

/-- The entry of the record that a line writes, if it is a JSON object with a usable command. -/
def record? (nesting : Nat) (line : List Char) : Option Entry :=
  match Json.read nesting (Chars.strip line) with
  | .ok (.obj record) => entryOfRecord? record
  | _ => none

/-- The entry that a line stands for: that of its record, else the line as a command. -/
def entryOf (nesting : Nat) (line : List Char) : Entry :=
  (record? nesting line).getD { command := String.ofList line, source := sourceName }

/-- One entry for each line that is not blank, where only line feeds end lines. -/
def lineEntries (nesting : Nat) (content : String) : List Entry :=
  ((Chars.splitOn '\n' content.toList).filter fun line => !line.all Chars.isBlank).map
    (entryOf nesting)

variable {nesting : Nat} {line : List Char} {record : Members} {content : String}

/-! ### Reading a line -/

theorem wholeOf_eq (h : ¬ Fails (Entry.wholeOf v)) : Entry.wholeOf v = .ok (wholeOrNone v) := by
  obtain ⟨n, hn⟩ := not_fails_iff.mp h
  rw [wholeOrNone, hn]

/-- A record is read as the entry that it stands for, unless one of its whole numbers is infinite. -/
theorem ofRecord_eq (h : ¬ ((∃ command, Entry.firstOf record ["command", "cmd"]
      = some (.str command)) ∧ ∃ names ∈ wholeNames,
        Fails (Entry.wholeOf (Entry.firstOf record names)))) :
    (entryOfRecord? record = none ∧ ∃ failure, Entry.ofRecord record sourceName = .error failure ∧
        failure.kind = .value) ∨
      ∃ e, entryOfRecord? record = some e ∧ Entry.ofRecord record sourceName = .ok e := by
  unfold entryOfRecord? Entry.ofRecord
  cases hcommand : Entry.textOf (Entry.firstOf record ["command", "cmd"]) with
  | none =>
    refine .inl ⟨?_, _, rfl, rfl⟩
    split
    · rename_i command hfirst
      exact absurd (hcommand.symm.trans (Entry.textOf_eq_some_iff.mpr hfirst)) nofun
    · rfl
  | some command =>
    have hfirst := Entry.textOf_eq_some_iff.mp hcommand
    -- None of the three numbers fails, so only a blank command is refused.
    have hwhole (names : List String) (hnames : names ∈ wholeNames) :
        Entry.wholeOf (Entry.firstOf record names)
          = .ok (wholeOrNone (Entry.firstOf record names)) :=
      wholeOf_eq fun hfails => h ⟨⟨command, hfirst⟩, names, hnames, hfails⟩
    simp only [hfirst, hwhole _ (show ["timestamp", "ts"] ∈ wholeNames by simp [wholeNames]),
      hwhole _ (show ["exit_code", "exitCode", "exit"] ∈ wholeNames by simp [wholeNames]),
      hwhole _ (show ["duration", "dur"] ∈ wholeNames by simp [wholeNames]), bind, Except.bind,
      Entry.checked]
    by_cases hblank : Text.isBlank command = true
    · rw [if_pos hblank, if_pos hblank]
      exact .inl ⟨rfl, _, rfl, rfl⟩
    · rw [if_neg hblank, if_neg hblank]
      exact .inr ⟨_, rfl, rfl⟩

/-- The white space of JSON is white space. -/
theorem skipSpace_strip (line : List Char) :
    Json.skipSpace (Chars.strip line) = Chars.strip line := by
  cases hstrip : Chars.strip line with
  | nil => rfl
  | cons c rest =>
    have hblank : Chars.isBlank c = false :=
      Chars.not_blank_of_head?_strip (by rw [hstrip, List.head?_cons])
    refine Json.skipSpace_of_head ?_ rest
    refine Bool.eq_false_iff.mpr fun hspace => ?_
    exact absurd (hblank.symm.trans (Json.isBlank_of_isSpace hspace)) nofun

/-- The record of a line is found, unless reading fails on it. -/
theorem recordOf_eq (h : ¬ Breaks nesting (Chars.strip line)) :
    recordOf nesting (Chars.strip line) = .ok (record? nesting line) := by
  unfold recordOf record?
  split
  · rename_i rest hstrip
    rw [hstrip] at h ⊢
    -- What the reader refuses is a bare entry, unless the nesting was too deep.
    cases hread : Json.read nesting ('\x7b' :: rest) with
    | error failure =>
      rw [breaks_iff_of_error hread] at h
      have hkind := (Json.kind_of_read hread).resolve_right h
      simp only [bind, Except.bind, hkind, if_true]
    | ok v =>
      obtain ⟨record, rfl⟩ := Json.exists_obj_of_read hread
      rw [breaks_iff_of_ok hread] at h
      simp only [bind, Except.bind, Entry.ofValue]
      rcases ofRecord_eq h with ⟨hnone, failure, hfailure, hkind⟩ | ⟨e, hsome, he⟩
      · simp only [hfailure, hkind, if_true, hnone]
      · simp only [he, hsome]
  · rename_i hother
    split
    · rename_i record hread
      obtain ⟨rest, hrest⟩ := Json.skipSpace_of_read_obj hread
      exact absurd (skipSpace_strip line ▸ hrest) (hother rest)
    · rfl

/-- A line gives its entry unless it is blank. -/
theorem entriesOfLine_eq (h : ¬ Breaks nesting (Chars.strip line)) :
    entriesOfLine nesting line
      = .ok (if line.all Chars.isBlank then [] else [entryOf nesting line]) := by
  unfold entriesOfLine
  dsimp only
  by_cases hblank : line.all Chars.isBlank = true
  · rw [if_pos (by rw [Chars.strip_eq_nil hblank]; rfl), if_pos hblank]
  · rw [if_neg fun hempty => hblank (Chars.all_isBlank_of_strip (List.isEmpty_iff.mp hempty)),
      if_neg hblank, recordOf_eq h]
    rfl

/-! ### Reading a file -/

/-- Lines on which reading does not fail give their entries, blank ones none. -/
theorem mapM_entriesOfLine_eq {lines : List (List Char)}
    (h : ∀ line ∈ lines, ¬ Breaks nesting (Chars.strip line)) :
    List.flatten <$> lines.mapM (entriesOfLine nesting)
      = .ok ((lines.filter fun line => !line.all Chars.isBlank).map (entryOf nesting)) := by
  induction lines with
  | nil => rfl
  | cons line rest ih =>
    obtain ⟨hline, hrest⟩ := List.forall_mem_cons.mp h
    obtain ⟨found, hfound, hflat⟩ := map_ok_iff.mp (ih hrest)
    rw [List.mapM_cons, entriesOfLine_eq hline, hfound]
    show Except.ok ((if line.all Chars.isBlank then [] else [entryOf nesting line])
      ++ found.flatten) = _
    rw [hflat]
    by_cases hblank : line.all Chars.isBlank = true
    · rw [if_pos hblank, List.filter_cons_of_neg (by simp [hblank]), List.nil_append]
    · rw [if_neg hblank, List.filter_cons_of_pos (by simpa using hblank)]
      rfl

/-- What is read if reading does not fail: the entries of the filled lines. -/
theorem parse_of_not_fails (h : ¬ Fails (parse nesting content)) :
    parse nesting content = .ok ((Chars.filledLines content.toList).map (entryOf nesting)) :=
  mapM_entriesOfLine_eq fun line hline hbreaks =>
    h (fails_parse_iff.mpr ⟨line, hline, hbreaks⟩)

/-- A line is read as its entry just if what is left of it without white space around it is on one
line, and all of it is if it stands for itself as a command. -/
theorem map_filledLines_eq_iff (hfilled : ¬ line.all Chars.isBlank = true) :
    (Chars.filledLines line).map (entryOf nesting) = [entryOf nesting line] ↔
      Chars.Unbroken (Chars.strip line) ∧
        (Chars.Unbroken line ∨ (record? nesting line).isSome = true) := by
  rw [← Chars.exists_filledLine_iff hfilled]
  constructor
  · intro h
    obtain ⟨part, hpart, hentry⟩ := List.map_eq_singleton_iff.mp h
    refine ⟨⟨part, hpart⟩, ?_⟩
    have hrecord : record? nesting part = record? nesting line := by
      rw [record?, record?, Chars.strip_of_filledLines hpart]
    cases hline : record? nesting line with
    | some e => exact .inr rfl
    | none =>
      -- Both stand for themselves, so the line is the part of it that is on one line.
      rw [entryOf, entryOf, hrecord, hline] at hentry
      have hcommand : String.ofList part = String.ofList line := congrArg Entry.command hentry
      rw [← String.ofList_inj.mp hcommand]
      have hmem : part ∈ Chars.lines line :=
        List.mem_of_mem_filter (hpart ▸ List.mem_singleton_self part)
      exact .inl (Chars.unbroken_of_mem_lines hmem)
  · rintro ⟨⟨part, hpart⟩, hunbroken | hrecord⟩
    · rw [Chars.filledLines_of_unbroken hunbroken hfilled, List.map_singleton]
    · obtain ⟨e, he⟩ := Option.isSome_iff_exists.mp hrecord
      have hpart' : record? nesting part = some e := by
        rw [← he, record?, record?, Chars.strip_of_filledLines hpart]
      rw [hpart, List.map_singleton, entryOf, entryOf, he, hpart']
      rfl

end Journal

section Pieces

variable {α β : Type} {f : α → List β} {g : α → β} {xs : List α}

theorem length_le_flatMap (hfilled : ∀ x ∈ xs, f x ≠ []) : xs.length ≤ (xs.flatMap f).length := by
  induction xs with
  | nil => exact Nat.le_refl _
  | cons x xs ih =>
    obtain ⟨hx, hxs⟩ := List.forall_mem_cons.mp hfilled
    have hpos := List.length_pos_iff.mpr hx
    have hrest := ih hxs
    rw [List.flatMap_cons, List.length_append, List.length_cons]
    omega

/-- Pieces that are not empty hold one element each if they hold no more elements than they are. -/
theorem flatMap_eq_map_iff (hfilled : ∀ x ∈ xs, f x ≠ []) :
    xs.flatMap f = xs.map g ↔ ∀ x ∈ xs, f x = [g x] := by
  induction xs with
  | nil => simp
  | cons x xs ih =>
    obtain ⟨hx, hxs⟩ := List.forall_mem_cons.mp hfilled
    rw [List.forall_mem_cons, ← ih hxs, List.flatMap_cons, List.map_cons]
    refine ⟨fun h => ?_, fun ⟨hfirst, hrest⟩ => by rw [hfirst, hrest, List.singleton_append]⟩
    obtain ⟨y, more, hy⟩ := List.exists_cons_of_ne_nil hx
    rw [hy, List.cons_append, List.cons.injEq] at h
    have hlength := congrArg List.length h.2
    rw [List.length_append, List.length_map] at hlength
    have hrest := length_le_flatMap hxs
    obtain rfl : more = [] := List.length_eq_zero_iff.mp (by omega)
    exact ⟨by rw [hy, h.1], h.2⟩

end Pieces

/-! ### The store -/

namespace Journal

/-- The filled lines of a file are those of its pieces between line feeds that are not blank. -/
theorem map_filledLines_eq (text : List Char) : (Chars.filledLines text).map (entryOf nesting) =
    ((Chars.splitOn '\n' text).filter fun line => !line.all Chars.isBlank).flatMap fun line =>
      (Chars.filledLines line).map (entryOf nesting) := by
  rw [Chars.filledLines_eq_flatMap, List.map_flatMap]
  induction Chars.splitOn '\n' text with
  | nil => rfl
  | cons line rest ih =>
    rw [List.flatMap_cons, ih]
    by_cases hblank : line.all Chars.isBlank = true
    · rw [List.filter_cons_of_neg (by simp [hblank]), Chars.filledLines_eq_nil_iff.mpr hblank]
      rfl
    · rw [List.filter_cons_of_pos (by simpa using hblank), List.flatMap_cons]

theorem not_breaks_blank (hblank : line.all Chars.isBlank = true) :
    ¬ Breaks nesting (Chars.strip line) := by
  rw [Chars.strip_eq_nil hblank]
  nofun

theorem parse_eq_lineEntries_iff_of_pieces :
    parse nesting content = .ok (lineEntries nesting content) ↔
    ∀ line ∈ Chars.splitOn '\n' content.toList, ¬ line.all Chars.isBlank = true →
      ¬ Breaks nesting (Chars.strip line) ∧ Chars.Unbroken (Chars.strip line) ∧
        (Chars.Unbroken line ∨ (record? nesting line).isSome = true) := by
  have hmem {line : List Char} : line ∈ (Chars.splitOn '\n' content.toList).filter
      (fun line => !line.all Chars.isBlank) ↔
        line ∈ Chars.splitOn '\n' content.toList ∧ ¬ line.all Chars.isBlank = true := by
    rw [List.mem_filter, Bool.not_eq_true', Bool.not_eq_true]
  -- Every piece that is not blank has a filled line, so each of them has to have just its own.
  have hentries :
      (Chars.filledLines content.toList).map (entryOf nesting) = lineEntries nesting content ↔
      ∀ line ∈ Chars.splitOn '\n' content.toList, ¬ line.all Chars.isBlank = true →
        (Chars.filledLines line).map (entryOf nesting) = [entryOf nesting line] := by
    rw [map_filledLines_eq, lineEntries, flatMap_eq_map_iff]
    · exact ⟨fun h line hline hfilled => h line (hmem.mpr ⟨hline, hfilled⟩),
        fun h line hline => h line (hmem.mp hline).1 (hmem.mp hline).2⟩
    · intro line hline hnil
      exact (hmem.mp hline).2 (Chars.filledLines_eq_nil_iff.mp (List.map_eq_nil_iff.mp hnil))
  have hparts {line part : List Char} (hline : line ∈ Chars.splitOn '\n' content.toList)
      (hpart : Chars.filledLines line = [part]) : part ∈ Chars.filledLines content.toList := by
    rw [Chars.filledLines_eq_flatMap]
    exact List.mem_flatMap.mpr ⟨line, hline, hpart ▸ List.mem_singleton_self part⟩
  constructor
  · intro h line hline hfilled
    have hwhole : ¬ Fails (parse nesting content) := not_fails_iff.mpr ⟨_, h⟩
    have hsame := Except.ok.inj ((parse_of_not_fails hwhole).symm.trans h)
    have hone := (map_filledLines_eq_iff hfilled).mp (hentries.mp hsame line hline hfilled)
    refine ⟨fun hbreaks => hwhole ?_, hone⟩
    -- What is left of the piece is what is left of its one filled line, which is a line of the file.
    obtain ⟨part, hpart⟩ := (Chars.exists_filledLine_iff hfilled).mpr hone.1
    rw [Chars.strip_of_filledLines hpart] at hbreaks
    exact fails_parse_iff.mpr ⟨part, List.mem_of_mem_filter (hparts hline hpart), hbreaks⟩
  · intro h
    have hwhole : ¬ Fails (parse nesting content) := by
      rw [fails_parse_iff]
      rintro ⟨part, hpart, hbreaks⟩
      have hfilled : part ∈ Chars.filledLines content.toList :=
        List.mem_filter.mpr ⟨hpart, by simpa using mt not_breaks_blank (not_not_intro hbreaks)⟩
      rw [Chars.filledLines_eq_flatMap] at hfilled
      obtain ⟨line, hline, hin⟩ := List.mem_flatMap.mp hfilled
      have hnonblank : ¬ line.all Chars.isBlank = true := fun hblank => by
        rw [Chars.filledLines_eq_nil_iff.mpr hblank] at hin
        cases hin
      obtain ⟨hkept, hbound, -⟩ := h line hline hnonblank
      obtain ⟨only, honly⟩ := (Chars.exists_filledLine_iff hnonblank).mpr hbound
      rw [honly, List.mem_singleton] at hin
      rw [Chars.strip_of_filledLines honly, ← hin] at hkept
      exact hkept hbreaks
    rw [parse_of_not_fails hwhole]
    refine congrArg Except.ok (hentries.mpr fun line hline hfilled => ?_)
    exact (map_filledLines_eq_iff hfilled).mpr (h line hline hfilled).2

end Journal

open Journal in
/-- **When a file is read as one entry for each of its lines.** Reading fails just if it does on a
line, however lines end. If it does not, every filled line gives its entry. These are the entries of
the lines that line feeds end just if no such line makes reading fail, none has a boundary of another
kind within it, and only one that writes a record has any around it. -/
theorem Store.parse_eq_lineEntries_iff (s : Store) (hmax : s.maxEntries = 0) (content : String) :
    (Fails (s.parse content) ↔
      ∃ line ∈ Chars.lines content.toList, Breaks s.nesting (Chars.strip line)) ∧
    (¬ Fails (s.parse content) →
      s.parse content = .ok ((Chars.filledLines content.toList).map (entryOf s.nesting))) ∧
    (s.parse content = .ok (lineEntries s.nesting content) ↔
      ∀ line ∈ Chars.splitOn '\n' content.toList, ¬ line.all Chars.isBlank = true →
        ¬ Breaks s.nesting (Chars.strip line) ∧ Chars.Unbroken (Chars.strip line) ∧
          (Chars.Unbroken line ∨ (record? s.nesting line).isSome = true)) := by
  have hparse : s.parse content = Journal.parse s.nesting content := by
    rw [Store.parse]
    cases Journal.parse s.nesting content with
    | error failure => rfl
    | ok entries => exact congrArg Except.ok (Store.trim_of_zero hmax entries)
  rw [hparse]
  exact ⟨fails_parse_iff, parse_of_not_fails, parse_eq_lineEntries_iff_of_pieces⟩

/-- A store that keeps all entries. -/
def Store.unlimited : Store where
  path := ⟨"/", ["hist"]⟩
  maxEntries := 0

/-- A file with a record under older names, a blank line, and a line that only looks like a record. -/
def Journal.mixedFile : String :=
  "\x7b\"cmd\": \"make\", \"ts\": 20.5\x7d\n\n\x7bbroken\n  ls -a"

theorem Store.parse_eq_lineEntries_mixed :
    Store.unlimited.maxEntries = 0 ∧
      Store.unlimited.parse Journal.mixedFile
        = .ok (Journal.lineEntries Store.unlimited.nesting Journal.mixedFile) ∧
      (Journal.lineEntries Store.unlimited.nesting Journal.mixedFile).map
          (fun e => (e.command, e.timestamp))
        = [("make", some 20), ("\x7bbroken", none), ("  ls -a", none)] := by
  refine ⟨rfl, ?_, by decide +kernel⟩
  refine (Store.parse_eq_lineEntries_iff Store.unlimited rfl _).2.2.mpr fun line hline _ => ?_
  have hlines : Chars.splitOn '\n' Journal.mixedFile.toList
      = ["\x7b\"cmd\": \"make\", \"ts\": 20.5\x7d".toList, [], "\x7bbroken".toList,
          "  ls -a".toList] := by decide +kernel
  -- A line whose record can be read breaks nothing.
  have hread {line : List Char}
      (h : (Journal.recordOf Store.unlimited.nesting (Chars.strip line)).isOk = true) :
      ¬ Journal.Breaks Store.unlimited.nesting (Chars.strip line) := by
    rw [← Journal.fails_recordOf_iff]
    rintro ⟨failure, hfailure⟩
    rw [hfailure] at h
    cases h
  rw [hlines] at hline
  simp only [List.mem_cons, List.not_mem_nil, or_false] at hline
  rcases hline with rfl | rfl | rfl | rfl <;>
    exact ⟨hread (by decide +kernel), by decide +kernel, .inl (by decide +kernel)⟩

/-- An infinite time in one record keeps the whole file from being read, and a line separator makes two
commands of one. -/
theorem Store.parse_ne_lineEntries :
    Store.unlimited.maxEntries = 0 ∧
      (Store.unlimited.parse "\x7b\"command\": \"ls\", \"timestamp\": 1e999\x7d\npwd\n").map
        (·.map (·.command)) = .error .wholeOfInfinity ∧
      (Journal.lineEntries Store.unlimited.nesting "echo a\u2028b\n").map (·.command)
        = ["echo a\u2028b"] ∧
      (Store.unlimited.parse "echo a\u2028b\n").map (·.map (·.command))
        = .ok ["echo a", "b"] := by
  refine ⟨rfl, by decide +kernel, by decide +kernel, by decide +kernel⟩

end History

end ShellAssist
