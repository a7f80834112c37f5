import ShellAssist.Proofs.Host.Frame
import ShellAssist.Proofs.History.Runs

namespace ShellAssist.History

/-!
# What a store changes on the disk

A store changes one file. A save writes a new file beside it and moves that into place, so that at any
time the file is a whole one, and whatever goes wrong leaves it as it was.

* `Store.Step` — what an operation on a store may do to the disk;
* `Store.replaceFile_confined` — that replacing a file keeps to it;
* `Store.saves_save`, `Act.step_run` — so do a save and every act;
* `Store.save_failed`, `Act.add_reports` — what is left where a save failed.
-/

namespace Store

variable {s s' : Store} {w w' : World}

/-! ### Places -/

/-- The place of the file. -/
def place (s : Store) (w : World) : Place :=
  Disk.placeFrom w.cwd s.path.toString

/-- The place of the new file that a save writes beside it. -/
def beside (s : Store) (w : World) : Place :=
  Disk.placeFrom w.cwd (s.path.toString ++ ".tmp")

/-- The place of the directory that both are in. -/
def above (s : Store) (w : World) : Place :=
  Disk.placeFrom w.cwd s.path.parent.toString

/-- What an operation on a store may do: the path and the working directory stay, the disk changes at
the places of the file and of the new file beside it only, and the file is as it was or holds all
entries that are in memory behind the operation. -/
structure Step (s : Store) (w : World) (s' : Store) (w' : World) : Prop where
  path : s'.path = s.path
  cwd : w'.cwd = w.cwd
  confined : Disk.OnlyChanges (s.place w) (s.beside w) (s.above w) w.disk w'.disk
  whole : w'.disk.contentAt? (s.place w) = w.disk.contentAt? (s.place w) ∨
    ∃ text, Journal.render s'.nesting s'.entries = .ok text ∧
      w'.disk.contentAt? (s.place w) = some (Text.encode text.toList)

theorem Step.of_world (hpath : s'.path = s.path) : s.Step w s' w :=
  ⟨hpath, rfl, .refl _, .inl rfl⟩

theorem place_congr (hpath : s'.path = s.path) (hcwd : w'.cwd = w.cwd) :
    s'.place w' = s.place w ∧ s'.beside w' = s.beside w ∧ s'.above w' = s.above w := by
  simp only [place, beside, above, hpath, hcwd, and_self]

/-! ### Saving -/

/-- Replacing a file changes nothing but the file and the new one beside it, and the file is replaced
as a whole or not at all. -/
theorem replaceFile_confined (path : Path) (content : List UInt8) (w : World) :
    (replaceFile path content w).2.cwd = w.cwd ∧
      Disk.OnlyChanges (Disk.placeFrom w.cwd path.toString)
        (Disk.placeFrom w.cwd (path.toString ++ ".tmp")) (Disk.placeFrom w.cwd path.parent.toString)
        w.disk (replaceFile path content w).2.disk ∧
      (replaceFile path content w).2.disk.contentAt? (Disk.placeFrom w.cwd path.toString)
        = if (replaceFile path content w).1 = .ok true then some content
          else w.disk.contentAt? (Disk.placeFrom w.cwd path.toString) := by
  obtain ⟨disk, saveFaults, hworld, hreplaces⟩ := replaceFile_cases path content w
  have hne := Disk.placeFrom_beside_ne w.cwd path.toString
  rw [hworld]
  refine ⟨rfl, ?_⟩
  generalize (replaceFile path content w).1 = result at hreplaces
  dsimp only
  -- A directory that is made is no file, and nothing was at its place before.
  have hmade {disk : Disk} (h : w.disk.makeDirectories w.cwd path.parent.toString = .ok disk) :
      disk.contentAt? (Disk.placeFrom w.cwd path.toString)
        = w.disk.contentAt? (Disk.placeFrom w.cwd path.toString) := by
    rcases Disk.get?_makeDirectories h (Disk.placeFrom w.cwd path.toString) with
      heq | ⟨hnone, -, stamp, hsome⟩
    · exact Disk.contentAt?_congr heq
    · rw [Disk.contentAt?, Disk.contentAt?, hnone, hsome]
  cases hreplaces with
  | untouched hresult => exact ⟨.refl _, by rw [if_neg hresult]⟩
  | made hresult hdisk =>
    exact ⟨Disk.onlyChanges_makeDirectories hdisk, by rw [if_neg hresult, hmade hdisk]⟩
  | @written _ disk disk₁ kept hresult hdisk hwritten =>
    refine ⟨(Disk.onlyChanges_makeDirectories hdisk).trans (Disk.onlyChanges_writeFile hwritten), ?_⟩
    obtain ⟨beside, executable, hbeside, hfile, rfl⟩ := Disk.writeFile_ok hwritten
    rw [if_neg hresult, ← hmade hdisk]
    refine Disk.contentAt?_congr ?_
    rw [Disk.get?_putNew (Disk.ne_nil_of_not_directory hfile), if_neg]
    rw [Disk.eq_placeFrom hbeside]
    exact hne
  | @moved disk disk₁ disk₂ hdisk hwritten hmoved =>
    have hfile : disk₁.isDirectoryAt (Disk.placeFrom w.cwd (path.toString ++ ".tmp")) = false := by
      obtain ⟨beside, executable, hbeside, hfile, rfl⟩ := Disk.writeFile_ok hwritten
      rw [← Disk.eq_placeFrom hbeside, Disk.isDirectoryAt,
        Disk.get?_putNew (Disk.ne_nil_of_not_directory hfile), if_pos rfl]
    refine ⟨((Disk.onlyChanges_makeDirectories hdisk).trans
      (Disk.onlyChanges_writeFile hwritten)).trans (Disk.onlyChanges_rename hmoved hfile), ?_⟩
    obtain ⟨executable, stamp, hfind⟩ := Disk.find_writeFile_rename hwritten hmoved
    obtain ⟨place, hplace, hget, -⟩ := Disk.find_ok hfind
    rw [if_pos rfl, Disk.contentAt?, ← Disk.eq_placeFrom hplace, hget]

/-- What a save may do. The entries are trimmed, the mark of a change goes if the file was written, and
nothing else of the store changes. -/
structure Saves (s : Store) (w : World) (saved : StoreStep Bool) : Prop where
  step : s.Step w saved.2.1 saved.2.2
  store : saved.2.1 = { s with
    entries := s.trim s.entries, dirty := if saved.1 = .ok true then false else s.dirty }
  kept : saved.1 ≠ .ok true →
    saved.2.2.disk.contentAt? (s.place w) = w.disk.contentAt? (s.place w)

theorem saves_save (s : Store) (w : World) : s.Saves w (s.save w) := by
  unfold save
  simp only
  split
  · refine ⟨.of_world rfl, ?_, fun _ => rfl⟩
    rw [if_neg nofun]
  -- The replacement either put the text in place or left the file as it was.
  · rename_i text hrender
    obtain ⟨hcwd, hconfined, hcontent⟩ := replaceFile_confined s.path (Text.encode text.toList) w
    split <;> rename_i w' hreplaced <;> rw [hreplaced] at hcwd hconfined hcontent
    · rw [if_pos rfl] at hcontent
      refine ⟨⟨rfl, hcwd, hconfined, .inr ⟨text, hrender, hcontent⟩⟩, ?_, fun h => absurd rfl h⟩
      rw [if_pos rfl]
    · rw [if_neg (by simp)] at hcontent
      refine ⟨⟨rfl, hcwd, hconfined, .inl hcontent⟩, ?_, fun _ => hcontent⟩
      rw [if_neg (by simp)]
    · rw [if_neg nofun] at hcontent
      refine ⟨⟨rfl, hcwd, hconfined, .inl hcontent⟩, ?_, fun _ => hcontent⟩
      rw [if_neg nofun]

/-- A save that fails leaves the file as it was, and so the mark of a change; of the entries the newest
are kept, as many as there may be. -/
structure SaveFailed (s : Store) (w : World) (s' : Store) (w' : World) : Prop where
  content : w'.disk.contentAt? (s.place w) = w.disk.contentAt? (s.place w)
  found : ∀ node, w.disk.find w.cwd s.path.toString = .ok node →
    w'.disk.find w'.cwd s.path.toString = .ok node
  dirty : s'.dirty = s.dirty
  entries : s'.entries = if s.maxEntries = 0 then s.entries
    else s.entries.drop (s.entries.length - s.maxEntries.toNat)

theorem save_failed (hmax : 0 ≤ s.maxEntries) (h : (s.save w).1 ≠ .ok true) :
    s.SaveFailed w (s.save w).2.1 (s.save w).2.2 := by
  have hsaves := s.saves_save w
  have heffect := s.save_cases w
  refine ⟨hsaves.kept h, ?_, ?_, ?_⟩
  · generalize s.save w = saved at h heffect
    cases heffect with
    | written => exact absurd rfl h
    | failed _ hkept => exact hkept
  · rw [hsaves.store, if_neg h]
  · rw [hsaves.store, trim_of_nonneg hmax]

/-- A newest entry is the newest of those that are kept. -/
theorem getLast?_trim_concat (hmax : 0 ≤ s.maxEntries) (entries : List Entry) (e : Entry) :
    (s.trim (entries ++ [e])).getLast? = some e := by
  rw [trim_of_nonneg hmax]
  split
  · exact List.getLast?_concat
  · rename_i hlimit
    have hshort : entries.length + 1 - s.maxEntries.toNat ≤ entries.length := by omega
    rw [List.length_append, List.length_singleton, List.drop_append_of_le_length hshort,
      List.getLast?_concat]

end Store

namespace Act

variable {act : Act} {s s' : Store} {w w' : World}

/-- What a prepared store may do, the store may. -/
theorem step_of_path {s₁ : Store} (hpath : s₁.path = s.path) (h : s₁.Step w s' w') :
    s.Step w s' w' := by
  obtain ⟨hplace, hbeside, habove⟩ := Store.place_congr hpath (rfl : w.cwd = w.cwd)
  refine ⟨h.path.trans hpath, h.cwd, ?_, ?_⟩
  · rw [← hplace, ← hbeside, ← habove]
    exact h.confined
  · rw [← hplace]
    exact h.whole

/-- Every act keeps to what an operation may do. -/
theorem step_run (h : act.run (.store s) w = (.store s', w')) : s.Step w s' w' := by
  have hpath := (prepare_cases act s w).config.path
  rcases run_cases h with ⟨-, rfl, rfl⟩ | ⟨-, result, hsave⟩
  · exact .of_world hpath
  · have hsaves := (Store.saves_save (act.prepare s w).1 w).step
    rw [hsave] at hsaves
    exact step_of_path hpath hsaves

/-- An entry that is added and saved at once is put behind the others, marked as the program's own and
with its time or the clock's, and adding reports what the save comes to. -/
theorem add_saves {entry : Entry} (h : ((Act.add entry).prepare s w).2 = true) :
    (∃ time, (∀ t, entry.timestamp = some t → time = t) ∧
      ((Act.add entry).prepare s w).1.entries = s.trim ((s.refresh w).2.entries
        ++ [{ entry with timestamp := some time, source := Journal.sourceName }])) ∧
    (s.add entry w).1 = (((Act.add entry).prepare s w).1.save w).1.map fun _ => true := by
  have hconfig := s.refresh_config w
  revert h hconfig
  simp only [prepare, Store.add]
  rcases s.refresh w with ⟨failure | ⟨⟩, r⟩
  · intro h
    cases h
  -- A repeated command and a correction nobody asked for are not recorded, so nothing is saved.
  · simp only [additions]
    by_cases hskip : ((r.entries.getLast?.any fun last => last.command = entry.command) ||
        (!r.saveCorrections && (Members.get? entry.metadata "is_correction").any Value.isTruthy)) = true
    · simp only [hskip, if_true]
      intro h
      cases h
    · simp only [hskip, Bool.false_eq_true, if_false]
      cases htime : entry.timestamp.elim w.millis Except.ok with
      | error failure =>
        intro h
        cases h
      | ok time =>
        simp only [Store.schedule]
        -- Only without a debounce is the save made now; otherwise the timer is set.
        by_cases hnow : r.saveDebounce ≤ 0
        · simp only [hnow, if_true]
          intro _ hconfig
          refine ⟨⟨time, fun t ht => ?_, hconfig.trim _⟩, ?_⟩
          · rw [ht] at htime
            exact (Except.ok.inj htime).symm
          · generalize (Store.save _ w).1 = saved
            cases saved <;> rfl
        · simp only [hnow, if_false]
          intro h
          cases h

/-- An entry that is added and could not be saved is reported as added and is the newest in memory. -/
theorem add_reports (hmax : 0 ≤ s.maxEntries) {entry : Entry}
    (hsaves : ((Act.add entry).prepare s w).2 = true)
    (hfailed : (((Act.add entry).prepare s w).1.save w).1 = .ok false) :
    (s.add entry w).1 = .ok true ∧
      ∃ time, (∀ t, entry.timestamp = some t → time = t) ∧ (s.add entry w).2.1.entries.getLast?
        = some { entry with timestamp := some time, source := Journal.sourceName } := by
  obtain ⟨⟨time, htime, hentries⟩, hresult⟩ := add_saves hsaves
  refine ⟨by rw [hresult, hfailed]; rfl, time, htime, ?_⟩
  have hconfig := (prepare_cases (.add entry) s w).config
  -- The store behind adding is the one behind its save, which trims the entries once more.
  have hrun : (Act.add entry).run (.store s) w
      = (.store (s.add entry w).2.1, (s.add entry w).2.2) := rfl
  rcases run_cases hrun with ⟨hidle, -⟩ | ⟨-, result, hsave⟩
  · rw [hsaves] at hidle
    cases hidle
  · have hstore := (Store.saves_save ((Act.add entry).prepare s w).1 w).store
    rw [hsave] at hstore
    rw [hstore]
    dsimp only
    rw [hconfig.trim, hentries, Store.trim_trim hmax]
    exact Store.getLast?_trim_concat hmax _ _

end Act

end ShellAssist.History
