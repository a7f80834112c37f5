import ShellAssist.Proofs.History.Confinement
import ShellAssist.Proofs.History.Pipeline
import ShellAssist.Proofs.History.Refusals
import ShellAssist.Proofs.History.Runs
import ShellAssist.Proofs.Json.Members

namespace ShellAssist

/-!
# Importing another history

An import looks at the newest entries of another history and chooses all of them, or the newest of each
command that is not held yet. It puts what it chooses behind the entries that are held, oldest first, and
saves; if it chooses nothing, it does nothing.

* `History.Store.choice`, `History.Store.selection_eq` — which entries are chosen;
* `History.Entry.IsCopy`, `History.Store.isCopy_imported` — how they are marked;
* `History.Store.fails_save_iff` — when a save raises: not for a file that cannot be written, but for a
  record that cannot;
* `History.Store.importFrom_keeps` — what an import does to a store.
-/

/-! ### Saves that raise -/

namespace Disk

variable {d : Disk} {cwd path : String}

theorem nul_of_makeDirectories (h : d.makeDirectories cwd path = .error .nul) :
    '\x00' ∈ path.toList := by
  -- Past the first check every component is made or walked, and none of that reads the text again.
  have hgo (d : Disk) (place : Place) (components : List String) :
      makeDirectories.go d place components ≠ .error .nul := by
    induction components generalizing d place with
    | nil =>
      rw [makeDirectories.go]
      split <;> simp
    | cons c components ih =>
      rw [makeDirectories.go]
      split
      · simp
      · split
        · exact ih _ _
        · split
          · exact ih _ _
          · dsimp only
            split
            · split
              · simp
              · exact ih _ _
            · exact ih _ _
  unfold makeDirectories at h
  split at h
  · rename_i hnul
    exact List.contains_iff_mem.mp hnul
  · dsimp only at h
    split at h
    · cases h
    · exact absurd h (hgo _ _ _)

theorem nul_of_writeFile {content : List UInt8} (h : d.writeFile cwd path content = .error .nul) :
    '\x00' ∈ path.toList := by
  rw [← locate_eq_nul_iff d cwd path]
  unfold writeFile at h
  cases hlocate : d.locate cwd path with
  | error e =>
    rw [hlocate] at h
    exact congrArg Except.error (Except.error.inj h)
  | ok place =>
    rw [hlocate] at h
    simp only [bind, Except.bind] at h
    split at h <;> cases h

theorem nul_of_rename {source target : String} (h : d.rename cwd source target = .error .nul) :
    '\x00' ∈ source.toList ∨ '\x00' ∈ target.toList := by
  -- Only finding the two places reads the texts; moving the node cannot meet this error.
  rw [← locate_eq_nul_iff d cwd source, ← locate_eq_nul_iff d cwd target]
  unfold rename at h
  cases hsource : d.locate cwd source with
  | error e =>
    rw [hsource] at h
    exact .inl (congrArg Except.error (Except.error.inj h))
  | ok old =>
    rw [hsource] at h
    simp only [bind, Except.bind] at h
    cases htarget : d.locate cwd target with
    | error e =>
      rw [htarget] at h
      exact .inr (congrArg Except.error (Except.error.inj h))
    | ok new =>
      rw [htarget] at h
      dsimp only at h
      split at h
      · cases h
      · split at h <;> cases h

end Disk

/-- The path has a last component, and no NUL. -/
structure Path.NamesFile (p : Path) : Prop where
  components : p.components ≠ []
  nul : '\x00' ∉ p.toString.toList

/-- The directory above holds no NUL either. -/
theorem Path.NamesFile.nul_parent {p : Path} (h : p.NamesFile) : '\x00' ∉ p.parent.toString.toList := by
  obtain ⟨hne, hnul⟩ := h
  have htext : p.toString = p.root ++ String.intercalate "/" p.components := by
    rw [toString, if_neg (by simp [hne])]
  rw [htext, ← List.dropLast_append_getLast hne, String.toList_append, List.mem_append, not_or] at hnul
  rw [toString, parent]
  split
  · decide
  · rw [String.toList_append, List.mem_append, not_or]
    refine ⟨hnul.1, fun hmem => hnul.2 ?_⟩
    -- The parent is written with a slash between its parts, or as the root alone.
    by_cases hone : p.components.dropLast = []
    · rw [hone] at hmem
      simp at hmem
    · rw [String.intercalate_append_of_ne_nil hone (by simp), String.toList_append,
        String.toList_append]
      exact List.mem_append_left _ (List.mem_append_left _ hmem)

namespace History

namespace Store

variable {s : Store} {w : World}

/-- A path that names a file can be refused, but raises nothing. -/
theorem not_fails_replaceFile {path : Path} (h : path.NamesFile) (content : List UInt8) (w : World) :
    ¬ Fails (replaceFile path content w).1 := by
  have hrefused {e : AccessError} (he : e ≠ .nul) : e = .refused := by
    cases e with
    | nul => exact absurd rfl he
    | refused => rfl
  unfold replaceFile
  rcases w.takeSaveFault with ⟨fault, w⟩
  dsimp only
  -- Each of the steps fails by a fault, which is refused, or by itself.
  split
  · rename_i e hmade
    obtain rfl := hrefused fun he => by
      split at hmade
      · exact absurd ((Except.error.inj hmade).trans he) nofun
      · exact h.nul_parent (Disk.nul_of_makeDirectories (he ▸ hmade))
    exact not_fails_ok false
  · split
    · rename_i hbeside
      simp [Path.withName?, h.components] at hbeside
    · rename_i beside hbeside
      have htext := Path.toString_beside hbeside
      have hnul : '\x00' ∉ beside.toString.toList := by
        rw [htext, String.toList_append, List.mem_append, not_or]
        exact ⟨h.nul, by decide⟩
      split
      · rename_i e hwritten
        obtain rfl := hrefused fun he => by
          split at hwritten
          · exact absurd ((Except.error.inj hwritten).trans he) nofun
          · exact hnul (Disk.nul_of_writeFile (he ▸ hwritten))
        exact not_fails_ok false
      · split
        · exact not_fails_ok false
        · split
          · rename_i e hmoved
            obtain rfl : e = .refused := hrefused fun he =>
              (Disk.nul_of_rename (he ▸ hmoved)).elim hnul h.nul
            exact not_fails_ok false
          · exact not_fails_ok true

/-- **A save raises where a record cannot be written.** A file that cannot be written is no such case. -/
theorem fails_save_iff (h : s.path.NamesFile) :
    Fails (s.save w).1 ↔ Fails (Journal.render s.nesting (s.trim s.entries)) := by
  unfold save
  dsimp only
  cases Journal.render s.nesting (s.trim s.entries) with
  | error failure => exact iff_of_true (fails_error failure) (fails_error failure)
  | ok text =>
    dsimp only
    have hreplaced := not_fails_replaceFile h (Text.encode text.toList) w
    rcases hresult : replaceFile s.path (Text.encode text.toList) w with ⟨failure | _ | _, w'⟩
    · rw [hresult] at hreplaced
      exact absurd (fails_error failure) hreplaced
    · exact iff_of_false (not_fails_ok false) (not_fails_ok text)
    · exact iff_of_false (not_fails_ok true) (not_fails_ok text)

/-! ### What is chosen -/

/-- Of two lists of commands seen, the second may be taken into account first. -/
theorem dedupeFrom_append (seen passed : List String) (entries : List Entry) :
    dedupeFrom (seen ++ passed) entries = (dedupeFrom passed entries).filter (·.command ∉ seen) := by
  induction entries generalizing passed with
  | nil => rfl
  | cons e entries ih =>
    -- Behind the entry its command has been seen, whether it was in one of the lists or not.
    have hbehind (all : List String)
        (hmem : ∀ c, c ∈ all ↔ c ∈ seen ++ passed ∨ c = e.command) : dedupeFrom all entries
          = (dedupeFrom (e.command :: passed) entries).filter (·.command ∉ seen) := by
      rw [← ih]
      refine dedupeFrom_congr fun e' _ => ?_
      rw [hmem, List.mem_append, List.mem_append, List.mem_cons]
      tauto
    rw [dedupeFrom, dedupeFrom]
    simp only [List.contains_iff_mem, List.mem_append]
    by_cases hpassed : e.command ∈ passed
    · rw [if_pos (.inr hpassed), if_pos hpassed, ih]
    · rw [if_neg hpassed]
      by_cases hseen : e.command ∈ seen
      · rw [if_pos (.inl hseen), List.filter_cons_of_neg (by simpa using hseen)]
        refine hbehind _ fun c => (or_iff_left_of_imp fun heq => ?_).symm
        exact heq ▸ List.mem_append_left passed hseen
      · rw [if_neg (not_or.mpr ⟨hseen, hpassed⟩), List.filter_cons_of_pos (by simpa using hseen)]
        exact congrArg (e :: ·) (hbehind _ fun c => by rw [List.mem_cons, or_comm])

/-- The entries that an import chooses from those it looks at, both newest first: all of them, or with
deduplication the first of each command, unless it is held. -/
def choice (deduplicate : Bool) (held looked : List Entry) : List Entry :=
  if deduplicate then (firstOfEach looked).filter fun e => e.command ∉ held.map (·.command) else looked

theorem selection_eq (deduplicate : Bool) (held looked : List Entry) :
    selection deduplicate (held.map (·.command)) looked = choice deduplicate held looked := by
  cases deduplicate with
  | false => rfl
  | true =>
    have happend := dedupeFrom_append (held.map (·.command)) [] looked
    rw [List.append_nil] at happend
    rw [selection, choice, if_pos rfl, if_pos rfl, happend, ← dedupe_eq_firstOfEach, dedupe]

theorem choice_command_nodup (held looked : List Entry) :
    ((choice true held looked).map (·.command)).Nodup := by
  rw [← selection_eq]
  exact dedupeFrom_commands_nodup _ _

theorem not_held_of_mem_choice {held looked : List Entry} {e : Entry} (h : e ∈ choice true held looked) :
    e.command ∉ held.map (·.command) :=
  of_decide_eq_true (List.mem_filter.mp h).2

end Store

/-! ### How it is marked -/

/-- An entry differs from the one that it was imported from by its source and by three members of its
metadata, which say so, where from and when. -/
structure Entry.IsCopy (now : Int) (e copy : Entry) : Prop where
  command : copy.command = e.command
  timestamp : copy.timestamp = e.timestamp
  exitCode : copy.exitCode = e.exitCode
  cwd : copy.cwd = e.cwd
  duration : copy.duration = e.duration
  source : copy.source = Journal.sourceName
  imported : Members.get? copy.metadata "imported" = some (.bool true)
  importedFrom : Members.get? copy.metadata "imported_from" = some (.str e.source)
  importedAt : Members.get? copy.metadata "imported_at" = some (.int now)
  others :
    let isOther (m : Key × Value) : Bool := m.1 ∉ (["imported", "imported_from", "imported_at"] : List Key)
    copy.metadata.filter isOther = e.metadata.filter isOther

theorem Store.isCopy_imported (now : Int) (e : Entry) : e.IsCopy now (imported now e) where
  command := rfl
  timestamp := rfl
  exitCode := rfl
  cwd := rfl
  duration := rfl
  source := rfl
  imported := by simp [Store.imported, Members.get?_set]
  importedFrom := by simp [Store.imported, Members.get?_set]
  importedAt := by simp [Store.imported, Members.get?_set]
  others := by
    let isOther (key : Key) : Bool := key ∉ (["imported", "imported_from", "imported_at"] : List Key)
    show (Store.imported now e).metadata.filter (fun m => isOther m.1) = _
    rw [Store.imported, Members.filter_set (p := isOther) (by decide),
      Members.filter_set (p := isOther) (by decide), Members.filter_set (p := isOther) (by decide)]

/-! ### Imports -/

namespace Store

variable {s : Store} {w : World}

/-- The newest entries that a store keeps of a list. -/
def newestKept (s : Store) (entries : List Entry) : List Entry :=
  if s.maxEntries = 0 then entries else entries.drop (entries.length - s.maxEntries.toNat)

theorem importEntries_eq (s : Store) (looked : List Entry) (deduplicate : Bool) (now : Int) (w : World)
    (h : choice deduplicate s.entries looked ≠ []) :
    let chosen := choice deduplicate s.entries looked
    let saved := { s with
      entries := s.entries ++ (chosen.map (imported now)).reverse, dirty := true, timerSet := false }.save w
    s.importEntries looked deduplicate now w = (saved.1.map fun _ => chosen.length, saved.2) := by
  unfold importEntries flush
  simp only [selection_eq, List.isEmpty_iff, if_neg h, if_pos, map_map]

/-- A file's text cannot be made just if one of its records cannot be written. -/
theorem fails_render_iff {nesting : Nat} {entries : List Entry} :
    Fails (Journal.render nesting entries) ↔ ∃ e ∈ entries, Fails (e.toRecord.encode nesting) := by
  rw [Journal.render, fails_bind_iff, fails_mapM_iff]
  exact or_iff_left fun ⟨_, _, h⟩ => not_fails_ok _ h

/-- **An import puts copies of what it chooses behind the entries that are held, and keeps the newest.**
It looks at so many of the newest entries that the source lists. Where it chooses none of them, nothing
changes. Else it saves, and says how many were chosen unless that raises: a file that has a name makes it
raise just if one of the kept entries cannot be written as a record. With deduplication no two copies
have the same command, and none has the command of an entry that was held. -/
theorem importFrom_keeps {source : Provider} {now : Int} {offered : List Entry} (deduplicate : Bool)
    (maxImport : Nat) (hloaded : s.loaded = true) (hmax : 0 ≤ s.maxEntries) (hclock : w.millis = .ok now)
    (hoffered : (source.getAll w).1 = .ok offered) :
    let chosen := choice deduplicate s.entries (offered.take maxImport)
    let step := (Provider.store s).importFrom source deduplicate (some maxImport) w
    (chosen = [] → step = (.ok 0, .store s, w)) ∧
    (chosen ≠ [] → ∃ (copies kept : List Entry) (dirty : Bool),
      List.Forall₂ (Entry.IsCopy now) chosen copies ∧
      kept = s.newestKept (s.entries ++ copies.reverse) ∧
      step.2.1 = .store { s with entries := kept, dirty, timerSet := false } ∧
      (step.1 = .ok chosen.length ∨ Fails step.1) ∧
      (s.path.NamesFile → (Fails step.1 ↔ ∃ e ∈ kept, Fails (e.toRecord.encode s.nesting))) ∧
      (deduplicate = true → (copies.map (·.command)).Nodup ∧
        ∀ copy ∈ copies, copy.command ∉ s.entries.map (·.command))) := by
  intro chosen step
  have hstep : step = (let (n, s', w') := s.importEntries (offered.take maxImport) deduplicate now w
      (n, .store s', w')) := by
    simp only [step, Provider.importFrom, Provider.onStore, refresh_of_loaded hloaded, hclock, hoffered,
      newest_eq_take]
  refine ⟨fun hnone => ?_, fun hsome => ?_⟩
  · rw [hstep, importEntries, selection_eq, if_pos (List.isEmpty_iff.mpr hnone)]
  -- Something was chosen, so the save is tried, and what it keeps does not hang on its success.
  · rw [importEntries_eq s _ _ now w hsome] at hstep
    let extended := { s with
      entries := s.entries ++ (chosen.map (imported now)).reverse, dirty := true, timerSet := false }
    obtain ⟨dirty, hsaved⟩ : ∃ dirty, (extended.save w).2.1
        = { extended with entries := extended.trim extended.entries, dirty } :=
      ⟨_, (saves_save extended w).store⟩
    have hkept : extended.trim extended.entries = s.newestKept extended.entries := trim_of_nonneg hmax _
    refine ⟨chosen.map (imported now), _, dirty, ?_, hkept, ?_, ?_, fun hpath => ?_, ?_⟩
    · exact List.forall₂_map_right_iff.mpr (List.forall₂_same.mpr fun e _ => isCopy_imported now e)
    · rw [hstep]
      exact congrArg Provider.store hsaved
    · rw [hstep]
      rcases extended.save w with ⟨failure | _, s', w'⟩
      · exact .inr (fails_error failure)
      · exact .inl rfl
    · rw [hstep, fails_map_iff, ← fails_render_iff]
      exact fails_save_iff hpath
    · rintro rfl
      have hcommands : (chosen.map (imported now)).map (·.command) = chosen.map (·.command) := by
        rw [List.map_map]
        rfl
      refine ⟨hcommands ▸ choice_command_nodup _ _, fun copy hcopy => ?_⟩
      obtain ⟨e, he, rfl⟩ := List.mem_map.mp hcopy
      exact not_held_of_mem_choice (e := e) he

/-- Of three entries, one is held already and two have the same command. -/
theorem importFrom_keeps_repeated :
    let s : Store := { sample with entries := [{ command := "pwd" }], loaded := true }
    let entries : List Entry := [{ command := "ls" }, { command := "pwd" }, { command := "ls", cwd := "/" }]
    let step := (Provider.store s).importFrom (.memory { name := "log", entries }) true (some (3 : Nat)) {}
    let now := 1700000000000
    choice true s.entries (entries.reverse.take 3) = [{ command := "ls", cwd := "/" }] ∧
    ∃ copy dirty, Entry.IsCopy now { command := "ls", cwd := "/" } copy ∧ step.1 = .ok 1 ∧
      step.2.1 = .store
        { s with entries := [{ command := "pwd" }, copy], dirty, timerSet := false } := by
  intro s entries step now
  have hchoice : choice true s.entries (entries.reverse.take 3) = [{ command := "ls", cwd := "/" }] := rfl
  have hclock : World.millis {} = .ok now := by decide
  have hoffered : ((Provider.memory { name := "log", entries }).getAll {}).1 = .ok entries.reverse := rfl
  obtain ⟨-, hsome⟩ := importFrom_keeps (s := s) true 3 rfl (by decide) hclock hoffered
  rw [hchoice] at hsome
  obtain ⟨copies, kept, dirty, hcopies, hkept, hstore, -, -, -⟩ := hsome nofun
  obtain ⟨copy, copies, hcopy, hnone, rfl⟩ := List.forall₂_cons_left_iff.mp hcopies
  rw [List.forall₂_nil_left_iff] at hnone
  subst hnone
  obtain rfl : kept = [{ command := "pwd" }, copy] := hkept
  exact ⟨hchoice, copy, dirty, hcopy, by decide +kernel, by simp only [step, hstore]⟩

/-- An import need not give the number of entries that it has chosen: a timestamp can have more digits
than are written, and a path can name no file. -/
theorem importFrom_inexact :
    (¬ ∀ (s : Store) (source : Provider) (w w' : World) (offered : List Entry) (maxImport : Nat),
      s = (sample.refresh w').2 → s.loaded = true → (source.getAll w).1 = .ok offered →
      ((Provider.store s).importFrom source true (some maxImport) w).1
        = .ok (choice true s.entries (offered.take maxImport)).length) ∧
    (¬ ∀ (s : Store) (source : Provider) (w w' : World) (offered : List Entry) (maxImport : Nat),
      s = ({ sample with path := ⟨"/", []⟩ }.refresh w').2 → s.loaded = true →
      (source.getAll w).1 = .ok offered → (∀ e ∈ offered, ¬ Fails (e.toRecord.encode s.nesting)) →
      ((Provider.store s).importFrom source true (some maxImport) w).1
        = .ok (choice true s.entries (offered.take maxImport)).length) := by
  constructor
  -- A time that is too long to be written makes the whole file fail.
  · intro hexact
    let entry : Entry := { command := "ls", timestamp := some Number.Decimal.writableLimit }
    have hraised : ((Provider.store (sample.refresh {}).2).importFrom
        (.memory { name := "log", entries := [entry] }) true (some (1 : Nat)) {}).1 ≠ .ok 1 := by
      decide +kernel
    exact hraised (hexact _ _ {} {} [entry] 1 rfl rfl rfl)
  · intro hexact
    -- A path without a name has no file beside it that could be renamed.
    let nameless : Store := { sample with path := ⟨"/", []⟩ }
    have hraised : ((Provider.store (nameless.refresh {}).2).importFrom
        (.memory { name := "log", entries := [{ command := "ls" }] }) true (some (1 : Nat)) {}).1
          ≠ .ok 1 := by
      decide +kernel
    refine hraised (hexact _ _ {} {} [{ command := "ls" }] 1 rfl rfl rfl ?_)
    simp only [List.forall_mem_singleton, not_fails_iff]
    exact ⟨_, rfl⟩

end Store

end History

end ShellAssist
