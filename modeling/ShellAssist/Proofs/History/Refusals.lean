import ShellAssist.History.Archive
import ShellAssist.Proofs.History.Saving

namespace ShellAssist

/-!
# Files that a history cannot take

A history takes whatever is in its file, but for few things. A line of the program's own history that
is nested too deep, or an infinite number where a record holds a whole one, and a head in a zsh
history with more digits than a whole number is read from, make reading fail. So does a path with a
NUL character.

* `History.Journal.Breaks`, `History.Zsh.Breaks` — the lines on which reading fails;
* `History.Provider.Refuses` — when a provider cannot be brought up to date;
* `History.Archive.fails_search_iff` — when an archive cannot be searched.
-/

/-! ### Paths -/

namespace Disk

variable (d : Disk) (cwd path : String)

/-- Finding a file fails for a NUL just if its path has one. -/
theorem find_eq_nul_iff : d.find cwd path = .error .nul ↔ '\x00' ∈ path.toList := by
  unfold find
  rw [← locate_eq_nul_iff d cwd path]
  cases d.locate cwd path with
  | error e =>
    show (Except.error e : Except AccessError Stamped) = .error .nul ↔ _
    simp
  | ok place =>
    refine ⟨fun h => ?_, fun h => nomatch h⟩
    simp only [bind, Except.bind] at h
    split at h
    · split at h <;> cases h
    · cases h

/-- So does reading it. -/
theorem read_eq_nul_iff : d.read cwd path = .error .nul ↔ '\x00' ∈ path.toList := by
  unfold read
  rw [← find_eq_nul_iff d cwd path]
  cases d.find cwd path with
  | error e =>
    show (Except.error e : Except AccessError (List UInt8)) = .error .nul ↔ _
    simp
  | ok found =>
    refine ⟨fun h => ?_, fun h => nomatch h⟩
    simp only [bind, Except.bind] at h
    split at h <;> cases h

/-- Asking for its stamp fails for nothing else. -/
theorem stamp?_eq_nul_iff : (∃ e, d.stamp? cwd path = .error e) ↔ '\x00' ∈ path.toList := by
  unfold stamp?
  rw [← find_eq_nul_iff d cwd path]
  cases d.find cwd path with
  | error e =>
    cases e with
    | nul => exact ⟨fun _ => rfl, fun _ => ⟨_, rfl⟩⟩
    | refused => simp
  | ok found => simp

end Disk

/-! ### JSON texts -/

namespace Json

variable {nesting : Nat}

/-- A text that is no JSON value is of no use, or it is nested too deep. -/
theorem kind_of_read {text : List Char} {failure : Failure} (h : read nesting text = .error failure) :
    failure.kind = .value ∨ ∃ shape, failure = .textTooDeep shape := by
  unfold read at h
  cases hall : readAll nesting text with
  | ok v =>
    rw [hall] at h
    cases h
  | error halt =>
    rw [hall] at h
    rw [← Except.error.inj h]
    cases halt with
    | fault wrong rest => exact .inl rfl
    | tooDeep shape => exact .inr ⟨shape, rfl⟩
    | tooManyDigits digits => exact .inl rfl

/-- What begins with a brace is an object. -/
theorem exists_obj_of_read {rest : List Char} {v : Json} (h : read nesting ('\x7b' :: rest) = .ok v) :
    ∃ members, v = .obj members := by
  obtain ⟨taken, htaken, rfl⟩ := readValue_of_read h
  -- No other kind of value begins with the brace.
  have hbrace : skipSpace ('\x7b' :: rest) = '\x7b' :: rest := rfl
  rw [hbrace] at htaken
  cases valueRead_of_readValue htaken with
  | emptyObject | object => exact ⟨_, rfl⟩
  | scalar hother => exact absurd rfl (hother rest)

end Json

namespace History

/-! ### Records -/

namespace Entry

/-- There is no whole number just of an infinite one. -/
theorem fails_wholeOf_iff {v : Option Json} :
    Fails (wholeOf v) ↔ ∃ d, v = some (.float d) ∧ d.isInfinite = true := by
  unfold wholeOf
  -- Of the kinds of value only a number with a point can be infinite.
  split
  · exact iff_of_false (not_fails_ok _) (by rintro ⟨d, h, -⟩; cases h)
  · rename_i d
    split
    · rename_i hinfinite
      exact iff_of_true (fails_error _) ⟨d, rfl, hinfinite⟩
    · rename_i hfinite
      refine iff_of_false (not_fails_ok _) ?_
      rintro ⟨d', hd, hinfinite⟩
      cases hd
      exact absurd hinfinite hfinite
  · exact iff_of_false (not_fails_ok _) (by rintro ⟨d, h, -⟩; cases h)
  · rename_i hfloat _
    refine iff_of_false (not_fails_ok _) ?_
    rintro ⟨d, rfl, -⟩
    exact absurd rfl (hfloat d)

/-- And that is what is said then. -/
theorem wholeOf_error {v : Option Json} {failure : Failure} (h : wholeOf v = .error failure) :
    failure = .wholeOfInfinity := by
  unfold wholeOf at h
  split at h
  · cases h
  · split at h
    · exact (Except.error.inj h).symm
    · cases h
  · cases h
  · cases h

/-- A text is the text of a string. -/
theorem textOf_eq_some_iff {v : Option Json} {text : String} :
    textOf v = some text ↔ v = some (.str text) := by
  unfold textOf
  split
  · simp
  · rename_i hstr
    exact ⟨fun h => (by cases h), fun h => absurd h (hstr text)⟩

end Entry

/-! ### The program's own history -/

namespace Journal

/-- The names under which a record holds whole numbers, older ones behind. -/
def wholeNames : List (List String) :=
  [["timestamp", "ts"], ["exit_code", "exitCode", "exit"], ["duration", "dur"]]

/-- A line on which reading fails, apart from white space around it, where arrays and objects may be
nested `nesting` levels deep. -/
inductive Breaks (nesting : Nat) : List Char → Prop
  /-- Arrays and objects are nested too deep. -/
  | tooDeep {rest : List Char} {shape : Json.Nesting}
      (h : Json.read nesting ('\x7b' :: rest) = .error (.textTooDeep shape)) : Breaks nesting ('\x7b' :: rest)
  /-- A record of a command with an infinite number in the place of a whole one. -/
  | infinite {rest : List Char} {record : Members} {command : String} {names : List String}
      {d : Number.Double} (h : Json.read nesting ('\x7b' :: rest) = .ok (.obj record))
      (hcommand : Entry.firstOf record ["command", "cmd"] = some (.str command))
      (hnames : names ∈ wholeNames) (hd : Entry.firstOf record names = some (.float d))
      (hinfinite : d.isInfinite = true) : Breaks nesting ('\x7b' :: rest)

/-- A record is refused, and not just taken for none, if one of its whole numbers is infinite. -/
theorem ofRecord_refused_iff {record : Members} :
    (∃ failure, Entry.ofRecord record sourceName = .error failure ∧ failure.kind ≠ .value) ↔
      (∃ command, Entry.firstOf record ["command", "cmd"] = some (.str command)) ∧
        ∃ names ∈ wholeNames, Fails (Entry.wholeOf (Entry.firstOf record names)) := by
  simp only [← Entry.textOf_eq_some_iff]
  unfold Entry.ofRecord
  cases Entry.textOf (Entry.firstOf record ["command", "cmd"]) with
  | none =>
    refine ⟨?_, fun ⟨⟨_, h⟩, _⟩ => nomatch h⟩
    rintro ⟨failure, h, hkind⟩
    exact absurd (Except.error.inj h ▸ rfl) hkind
  | some command =>
    rw [and_iff_right ⟨command, rfl⟩]
    -- A blank or missing command is a value error, which the line survives.
    have hwhole {v : Option Json} {failure : Failure} (h : Entry.wholeOf v = .error failure) :
        failure.kind ≠ .value := by
      rw [Entry.wholeOf_error h]
      decide
    simp only [wholeNames, List.exists_mem_cons_iff]
    dsimp only [bind, Except.bind]
    -- The three whole fields are read in turn; the first that is infinite ends it.
    cases htimestamp : Entry.wholeOf (Entry.firstOf record ["timestamp", "ts"]) with
    | error failure => exact ⟨fun _ => .inl (fails_error _), fun _ => ⟨_, rfl, hwhole htimestamp⟩⟩
    | ok timestamp =>
      cases hexit : Entry.wholeOf (Entry.firstOf record ["exit_code", "exitCode", "exit"]) with
      | error failure =>
        exact ⟨fun _ => .inr (.inl (fails_error _)), fun _ => ⟨_, rfl, hwhole hexit⟩⟩
      | ok exit =>
        cases hduration : Entry.wholeOf (Entry.firstOf record ["duration", "dur"]) with
        | error failure =>
          exact ⟨fun _ => .inr (.inr (.inl (fails_error _))), fun _ => ⟨_, rfl, hwhole hduration⟩⟩
        | ok duration =>
          refine iff_of_false ?_ (by simp)
          rintro ⟨failure, h, hkind⟩
          dsimp only [Entry.checked] at h
          by_cases hblank : Text.isBlank command = true
          · rw [if_pos hblank] at h
            exact absurd (Except.error.inj h ▸ rfl) hkind
          · rw [if_neg hblank] at h
            cases h

/-- A line that cannot be read makes reading fail if it is nested too deep. -/
theorem breaks_iff_of_error {nesting : Nat} {rest : List Char} {failure : Failure}
    (hread : Json.read nesting ('\x7b' :: rest) = .error failure) :
    Breaks nesting ('\x7b' :: rest) ↔ ∃ shape, failure = .textTooDeep shape := by
  constructor
  · intro h
    cases h with
    | tooDeep h => exact ⟨_, Except.error.inj (hread.symm.trans h)⟩
    | infinite h => cases hread.symm.trans h
  · rintro ⟨shape, rfl⟩
    exact .tooDeep hread

/-- One that is read as a record does if it has a command and an infinite number. -/
theorem breaks_iff_of_ok {nesting : Nat} {rest : List Char} {record : Members}
    (hread : Json.read nesting ('\x7b' :: rest) = .ok (.obj record)) :
    Breaks nesting ('\x7b' :: rest) ↔
      (∃ command, Entry.firstOf record ["command", "cmd"] = some (.str command)) ∧
        ∃ names ∈ wholeNames, Fails (Entry.wholeOf (Entry.firstOf record names)) := by
  constructor
  · intro h
    cases h with
    | tooDeep h => cases hread.symm.trans h
    | infinite h hcommand hnames hd hinfinite =>
      cases hread.symm.trans h
      exact ⟨⟨_, hcommand⟩, _, hnames, Entry.fails_wholeOf_iff.mpr ⟨_, hd, hinfinite⟩⟩
  · rintro ⟨⟨command, hcommand⟩, names, hnames, hfails⟩
    obtain ⟨d, hd, hinfinite⟩ := Entry.fails_wholeOf_iff.mp hfails
    exact .infinite hread hcommand hnames hd hinfinite

/-- There is no record, nor its lack, just on such lines. -/
theorem fails_recordOf_iff {nesting : Nat} {stripped : List Char} :
    Fails (recordOf nesting stripped) ↔ Breaks nesting stripped := by
  unfold recordOf
  split
  · rename_i rest
    cases hread : Json.read nesting ('\x7b' :: rest) with
    | error failure =>
      rw [breaks_iff_of_error hread]
      rcases Json.kind_of_read hread with hkind | ⟨shape, rfl⟩
      · -- The line is taken as a command as it stands.
        show Fails (if failure.kind = .value then _ else _) ↔ _
        rw [if_pos hkind]
        refine iff_of_false (not_fails_ok _) ?_
        rintro ⟨shape, rfl⟩
        cases hkind
      · exact iff_of_true (fails_error _) ⟨shape, rfl⟩
    | ok v =>
      obtain ⟨record, rfl⟩ := Json.exists_obj_of_read hread
      rw [breaks_iff_of_ok hread, ← ofRecord_refused_iff]
      dsimp only [bind, Except.bind, Entry.ofValue]
      cases Entry.ofRecord record sourceName with
      | ok e => simp
      | error failure => by_cases hkind : failure.kind = .value <;> simp [hkind]
  · rename_i hother
    refine iff_of_false (not_fails_ok _) fun h => ?_
    cases h with
    | tooDeep h => exact absurd rfl (hother _)
    | infinite h => exact absurd rfl (hother _)

/-- Reading fails just if a line breaks it. -/
theorem fails_parse_iff {nesting : Nat} {content : String} :
    Fails (parse nesting content) ↔
      ∃ line ∈ Chars.lines content.toList, Breaks nesting (Chars.strip line) := by
  -- An empty line is passed over; any other fails exactly if its record does.
  have hline (line : List Char) :
      Fails (entriesOfLine nesting line) ↔ Breaks nesting (Chars.strip line) := by
    unfold entriesOfLine
    dsimp only
    split
    · rename_i hempty
      refine iff_of_false (not_fails_ok _) fun h => ?_
      rw [List.isEmpty_iff.mp hempty] at h
      cases h
    · rw [fails_bind_iff, ← fails_recordOf_iff]
      exact ⟨fun h => h.resolve_right fun ⟨_, _, h⟩ => not_fails_ok _ h, .inl⟩
  unfold parse
  rw [← exists_congr fun line => and_congr_right fun _ => hline line, ← fails_mapM_iff]
  exact fails_map_iff

end Journal

/-! ### Shells' histories -/

namespace Zsh

/-- A head with a number that is too long to be read. -/
def Breaks (line : List Char) : Prop :=
  ∃ seconds duration command, head? line = some (seconds, duration, command) ∧
    (Number.Decimal.maxDigits < seconds.length ∨ Number.Decimal.maxDigits < duration.length)

/-- A time cannot be read just if it has too many digits. -/
theorem fails_millis_iff {digits : List Char} :
    Fails (millis digits) ↔ Number.Decimal.maxDigits < digits.length := by
  unfold millis
  split
  · rename_i hlong
    exact iff_of_true (fails_error _) hlong
  · rename_i hshort
    exact iff_of_false (not_fails_ok _) hshort

/-- Reading a zsh history fails just if a head has such a time. -/
theorem fails_entriesFrom_iff {lines : List (List Char)} (p : Pending) :
    Fails (entriesFrom p lines) ↔ ∃ line ∈ lines, Breaks line := by
  -- Which command is pending changes from line to line, but never decides.
  induction lines generalizing p with
  | nil => exact iff_of_false (not_fails_ok _) (by simp)
  | cons line rest ih =>
    rw [entriesFrom, List.exists_mem_cons_iff]
    cases hhead : head? line with
    | some found =>
      obtain ⟨seconds, duration, command⟩ := found
      have hbreaks : Breaks line ↔ Fails (millis seconds) ∨ Fails (millis duration) := by
        rw [fails_millis_iff, fails_millis_iff]
        constructor
        · rintro ⟨_, _, _, h, hlong⟩
          rw [hhead] at h
          cases h
          exact hlong
        · exact fun hlong => ⟨_, _, _, hhead, hlong⟩
      rw [hbreaks, ← ih { lines := [command], times := none }]
      dsimp only
      cases hseconds : millis seconds with
      | error failure => exact iff_of_true (fails_error _) (.inl (.inl (fails_error _)))
      | ok m =>
        cases hduration : millis duration with
        | error failure => exact iff_of_true (fails_error _) (.inl (.inr (fails_error _)))
        | ok n =>
          rw [ih, ← ih { lines := [command], times := some (m, n) }]
          rw [or_iff_right (by simp)]
          exact fails_map_iff (f := (p.finish ++ ·))
    | none =>
      have hwhole : ¬ Breaks line := by
        rintro ⟨_, _, _, h, -⟩
        rw [hhead] at h
        cases h
      rw [or_iff_right hwhole]
      dsimp only
      split
      · exact ih _
      · split
        · exact ih p
        · exact fails_map_iff.trans (ih _)

end Zsh

/-- Of the shells, only the history of zsh can fail to be parsed. -/
theorem Dialect.fails_parseBytes_iff {d : Dialect} {content : List UInt8} :
    Fails (d.parseBytes content) ↔ d = .zsh ∧
      ∃ line ∈ Chars.lines (Text.decodeLossy (Zsh.unmetafy content)), Zsh.Breaks line := by
  cases d with
  | zsh =>
    rw [and_iff_right rfl]
    show Fails (Zsh.entriesFrom {} (Chars.lines (String.ofList _).toList)) ↔ _
    rw [String.toList_ofList]
    exact Zsh.fails_entriesFrom_iff _
  | bash => simp [parseBytes]
  | fish => simp [parseBytes]

/-! ### Providers -/

/-- A store that is still to be read, from a file that cannot be taken. -/
def Store.Refuses (s : Store) (w : World) : Prop :=
  s.loaded = false ∧ ('\x00' ∈ s.path.toString.toList ∨
    ∃ content, w.disk.readText w.cwd s.path.toString = .ok content ∧
      ∃ line ∈ Chars.lines content.toList, Journal.Breaks s.nesting (Chars.strip line))

/-- Reading the own history fails for a NUL in its path or a line that breaks it. -/
theorem Store.fails_reading_iff {s : Store} {w : World} : Fails (s.reading w) ↔
    '\x00' ∈ s.path.toString.toList ∨
      ∃ content, w.disk.readText w.cwd s.path.toString = .ok content ∧
        ∃ line ∈ Chars.lines content.toList, Journal.Breaks s.nesting (Chars.strip line) := by
  rw [← Disk.read_eq_nul_iff w.disk w.cwd, reading, Disk.readText]
  cases w.disk.read w.cwd s.path.toString with
  | ok content =>
    show Fails ((Journal.parse _ _).map s.trim) ↔ _
    rw [fails_map_iff, Journal.fails_parse_iff]
    simp [Except.map]
  | error e => cases e <;> simp [Except.map]

/-- So a store that is to be read cannot be refreshed. -/
theorem Store.fails_refresh_iff {s : Store} {w : World} :
    Fails (s.refresh w).1 ↔ s.Refuses w := by
  unfold refresh Refuses
  cases s.loaded with
  | true => simp
  | false =>
    rw [if_neg Bool.false_ne_true, and_iff_right rfl, ← fails_reading_iff, load_eq]
    cases s.reading w with
    | error failure => simp
    | ok entries => simp

/-- A shell's log whose file cannot be looked at, or is another version than the last one and cannot be
looked for or taken. -/
def ShellLog.Refuses (log : ShellLog) (w : World) : Prop :=
  log.isDenied w = false ∧ '\x00' ∈ (log.path w).toString.toList ∨
    (∃ stamp, log.currentStamp w = .ok stamp ∧ ¬ (log.loaded = true ∧ stamp = log.stamp)) ∧
      (log.isDenied w = true ∨ log.dialect = .zsh ∧
        ∃ content, w.disk.read w.cwd (log.path w).toString = .ok content ∧
          ∃ line ∈ Chars.lines (Text.decodeLossy (Zsh.unmetafy content)), Zsh.Breaks line)

/-- Loading fails if the file may not be looked for, has a path that nothing can have, or holds what
cannot be taken. -/
theorem ShellLog.fails_load_iff {log : ShellLog} {w : World} :
    Fails (log.load w).1 ↔ log.isDenied w = true ∨ '\x00' ∈ (log.path w).toString.toList ∨
      ∃ content, w.disk.read w.cwd (log.path w).toString = .ok content ∧
        Fails (log.dialect.parseBytes content) := by
  rw [← Disk.read_eq_nul_iff w.disk w.cwd, load]
  cases hdenied : log.isDenied w with
  | true => simp
  | false =>
  rw [if_neg Bool.false_ne_true, or_iff_right Bool.false_ne_true]
  cases w.disk.read w.cwd (log.path w).toString with
  | ok content =>
    dsimp only
    cases hparse : log.dialect.parseBytes content <;> simp [hparse]
  | error e => cases e <;> simp

/-- There is no stamp to be had only where the file may be looked for and has a path that nothing can
have. -/
theorem ShellLog.currentStamp_eq_error_iff {log : ShellLog} {w : World} :
    (∃ e, log.currentStamp w = .error e) ↔
      log.isDenied w = false ∧ '\x00' ∈ (log.path w).toString.toList := by
  rw [currentStamp]
  cases log.isDenied w with
  | true => simp
  | false =>
    rw [if_neg Bool.false_ne_true, and_iff_right rfl]
    exact Disk.stamp?_eq_nul_iff _ _ _

/-- A shell's log cannot be refreshed just if it refuses. -/
theorem ShellLog.fails_refresh_iff {log : ShellLog} {w : World} :
    Fails (log.refresh w).1 ↔ log.Refuses w := by
  unfold refresh Refuses
  rw [← currentStamp_eq_error_iff]
  cases hstamp : log.currentStamp w with
  | error e => exact iff_of_true (fails_error _) (.inl ⟨e, rfl⟩)
  | ok stamp =>
    -- The time was shown, so the path was one that can be asked about.
    have hlooked : ¬ (log.isDenied w = false ∧ '\x00' ∈ (log.path w).toString.toList) := by
      rw [← currentStamp_eq_error_iff, hstamp]
      exact nofun
    rw [or_iff_right nofun]
    dsimp only
    split
    · rename_i hseen
      rw [Bool.and_eq_true, decide_eq_true_eq] at hseen
      refine ⟨fun h => absurd h (not_fails_ok _), ?_⟩
      rintro ⟨⟨stamp', hstamp', hnew⟩, -⟩
      cases hstamp'
      exact absurd hseen hnew
    · rename_i hnew
      rw [Bool.and_eq_true, decide_eq_true_eq] at hnew
      -- The time is new, so the file is read, and only zsh has a format that can break.
      rw [fails_load_iff, show ({ log with stamp } : ShellLog).path w = log.path w from rfl,
        show ({ log with stamp } : ShellLog).isDenied w = log.isDenied w from rfl,
        and_iff_right ⟨stamp, rfl, hnew⟩]
      simp only [Dialect.fails_parseBytes_iff]
      constructor
      · rintro (hdenied | hnul | ⟨content, hread, hzsh, hbreaks⟩)
        · exact .inl hdenied
        · exact .inl (by simpa [hnul] using hlooked)
        · exact .inr ⟨hzsh, content, hread, hbreaks⟩
      · rintro (hdenied | ⟨hzsh, content, hread, hbreaks⟩)
        · exact .inl hdenied
        · exact .inr (.inr ⟨content, hread, hzsh, hbreaks⟩)

namespace Provider

/-- Whether a provider cannot be brought up to date. -/
def Refuses (p : Provider) (w : World) : Prop :=
  match p with
  | .shellLog log => log.Refuses w
  | .store s => s.Refuses w
  | .memory log => log.trouble.isSome = true

/-- A provider cannot be refreshed just if it refuses. -/
theorem fails_refresh_iff {p : Provider} {w : World} : Fails (p.refresh w).1 ↔ p.Refuses w := by
  cases p with
  | shellLog log => exact ShellLog.fails_refresh_iff
  | store s => exact Store.fails_refresh_iff
  | memory log =>
    unfold refresh Refuses
    cases htrouble : log.trouble <;> simp [htrouble]

/-- It cannot be searched just then. -/
theorem fails_search_iff {p : Provider} {w : World} {text : String} {limit : Option Int}
    {deduplicate : Option Bool} : Fails (p.search w text limit deduplicate).1 ↔ p.Refuses w := by
  rw [← fails_refresh_iff, search, query]
  rcases p.refresh w with ⟨failure | _, p⟩
  · simp
  · simp

end Provider

/-- **An archive cannot be searched just if it asks one provider only, and that one cannot be brought
up to date.** -/
theorem Archive.fails_search_iff {a : Archive} {w : World} {text : String} {limit : Option Int}
    {deduplicate : Option Bool} : Fails (a.search w text limit deduplicate).1 ↔
      a.mode ≠ .unified ∧ (a.providerAt a.activeName).Refuses w := by
  unfold search
  dsimp only
  split
  · rename_i hunified
    simp [hunified]
  · rename_i hsingle
    rw [and_iff_right hsingle]
    exact Provider.fails_search_iff

end History

end ShellAssist
