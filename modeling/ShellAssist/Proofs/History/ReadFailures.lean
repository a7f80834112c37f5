import ShellAssist.Proofs.History.Runs

namespace ShellAssist.History

/-!
# What becomes of a file that cannot be read

A store takes a file that may not be read for one without entries. It may still be replaced, so the
next save that works puts what was added since in the place of everything the file held.

* `Store.stored` — the entries that the file's bytes write, readable or not;
* `Guarded` — the invariant of runs in which nothing is deleted, `guarded_of_run` — they keep it;
* `stored_of_run` — the entries of the file stay unless the store was loaded without being able to
  read them and has been written since, and then nothing but additions is left.
-/

/-! ### Bytes and entries -/

namespace Store

variable {s : Store} {w w' : World} {content : List UInt8} {entries : List Entry}

/-- The entries that the file's bytes write, whether they may be read or not; none if there is no
file or no entry can be made of one of its lines. -/
def stored (s : Store) (w : World) : List Entry :=
  match s.heldBytes? w with
  | none => []
  | some content =>
    match s.parse (textOf content) with
    | .ok entries => entries
    | .error _ => []

/-- Others leave the bytes of the file alone; whether it may be read can change. -/
def SameBytes (s : Store) (w w' : World) : Prop :=
  s.heldBytes? w' = s.heldBytes? w

/-- Others that leave the bytes leave what is stored. -/
theorem SameBytes.stored (h : s.SameBytes w w') : s.stored w' = s.stored w := by
  rw [Store.stored, Store.stored, h]

/-- A file that can be parsed stores what is read from it. -/
theorem stored_of_reading (h : s.heldBytes? w = some content)
    (hreading : s.parse (textOf content) = .ok entries) : s.stored w = entries := by
  simp only [stored, h, hreading]

/-- Whatever is stored would come back as it is. -/
theorem plain_of_mem_stored {e : Entry} (he : e ∈ s.stored w) : e.plain = e := by
  unfold stored at he
  split at he
  · cases he
  · split at he
    · rename_i hparse
      exact (parse_owned hparse e he).2
    · cases he

/-- A file that is there holds its bytes. -/
theorem heldBytes?_of_find {executable unreadable : Bool} {stamp : Nat}
    (h : w.disk.find w.cwd s.path.toString = .ok ⟨.file content executable unreadable, stamp⟩) :
    s.heldBytes? w = some content := by
  rw [heldBytes?, h]

/-- What is still found still writes the same entries. -/
theorem mem_stored_of_find (h : ∀ found, w.disk.find w.cwd s.path.toString = .ok found →
      w'.disk.find w'.cwd s.path.toString = .ok found) {e : Entry} (he : e ∈ s.stored w) :
    e ∈ s.stored w' := by
  cases hheld : s.heldBytes? w with
  | none =>
    rw [stored, hheld] at he
    cases he
  | some content =>
    obtain ⟨executable, unreadable, stamp, hfind⟩ := heldBytes?_eq_some hheld
    have hheld' : s.heldBytes? w' = some content := heldBytes?_of_find (h _ hfind)
    rw [stored, hheld] at he
    rw [stored, hheld']
    exact he

/-- Whatever is loaded from a file that may be read is what the file stores. -/
theorem mem_of_reading (hlocked : ¬ s.IsLocked w) (hreading : s.reading w = .ok entries) :
    ∀ e ∈ s.stored w, e ∈ entries := by
  intro e he
  cases hheld : s.heldBytes? w with
  | none =>
    rw [stored, hheld] at he
    cases he
  | some content =>
    rw [reading_of_heldBytes? hheld hlocked] at hreading
    rw [stored_of_reading hheld hreading] at he
    exact he

/-- A written file stores what was written, as it comes back. -/
theorem stored_of_written {text : String} {executable : Bool} {stamp : Nat}
    (howned : ∀ e ∈ entries, e.Owned) (hrender : Journal.render s.nesting entries = .ok text)
    (hfind : w.disk.find w.cwd s.path.toString
      = .ok ⟨.file (Text.encode text.toList) executable false, stamp⟩) :
    s.stored w = s.trim (entries.map Entry.plain) := by
  have hlocked : ¬ s.IsLocked w := by
    rintro ⟨_, _, _, hlocked⟩
    rw [hfind] at hlocked
    cases hlocked
  have hreading := reading_of_written howned hrender hfind
  have hheld := heldBytes?_of_find hfind
  rw [reading_of_heldBytes? hheld hlocked] at hreading
  exact stored_of_reading hheld hreading

end Store

/-! ### Loading blindly -/

/-- The store was loaded although there was a file that could not be read. -/
def Moment.LoadsBlindly (s₀ : Store) (m : Moment) : Prop :=
  m.store.loaded = false ∧ (m.act.prepare m.store m.world).1.loaded = true ∧ s₀.IsLocked m.world

/-- At some moment of a run the store was loaded although its file was there and could not be
read. -/
def LoadedBlindly (s₀ : Store) (past : List Moment) : Prop :=
  ∃ m ∈ past, m.LoadsBlindly s₀

/-- At some moment of a run the file was written. -/
def Written (past : List Moment) : Prop :=
  ∃ m ∈ past, m.Writes

/-- An entry was added at some moment of a run. -/
def Added (past : List Moment) (e : Entry) : Prop :=
  ∃ m ∈ past, e ∈ m.act.additions (m.store.refresh m.world).2 m.world

section Guarded

variable {s₀ s s' : Store} {past : List Moment} {m : Moment} {w₀ w w' : World} {act : Act}
  {e : Entry}

/-- A run loads blindly now or before. -/
theorem loadedBlindly_cons :
    LoadedBlindly s₀ (m :: past) ↔ m.LoadsBlindly s₀ ∨ LoadedBlindly s₀ past := by
  simp [LoadedBlindly]

/-- It writes now or before. -/
theorem written_cons : Written (m :: past) ↔ m.Writes ∨ Written past := by
  simp [Written]

/-- What was added stays added. -/
theorem Added.cons (h : Added past e) (m : Moment) : Added (m :: past) e := by
  obtain ⟨m', hm', he⟩ := h
  exact ⟨m', List.mem_cons_of_mem m hm', he⟩

/-- What holds of the memory all along a run in which nothing is deleted. -/
structure Remembers (s₀ : Store) (w₀ : World) (past : List Moment) (s : Store) : Prop where
  config : s₀.SameConfig s
  owned : ∀ e ∈ s.entries, e.Owned
  sighted : s.loaded = true → ¬ LoadedBlindly s₀ past → ∀ e ∈ s₀.stored w₀, e ∈ s.entries
  blind : LoadedBlindly s₀ past → s.loaded = true ∧ ∀ e ∈ s.entries, Added past e

/-- What holds of the memory and the file all along such a run. -/
structure Guarded (s₀ : Store) (w₀ : World) (past : List Moment) (s : Store) (w : World) : Prop
    extends Remembers s₀ w₀ past s where
  unloaded : s.loaded = false → s.dirty = false ∧ s₀.SameBytes w₀ w ∧ ¬ Written past
  there : Written past → ∃ content, s₀.heldBytes? w = some content
  kept : ¬ LoadedBlindly s₀ past ∨ ¬ Written past → ∀ e ∈ s₀.stored w₀, e ∈ s₀.stored w
  replaced : LoadedBlindly s₀ past → Written past →
    ∀ e ∈ s₀.stored w, ∃ e', Added past e' ∧ e = e'.plain

/-- Refreshing a store that was loaded changes nothing; another has the entries that the file
stores, or none if it may not be read. -/
theorem Guarded.refresh (h : Guarded s₀ w₀ past s w) (hloaded : (s.refresh w).2.loaded = true) :
    (¬ (s.loaded = false ∧ s₀.IsLocked w) → ¬ LoadedBlindly s₀ past →
      ∀ e ∈ s₀.stored w₀, e ∈ (s.refresh w).2.entries) ∧
    ((s.loaded = false ∧ s₀.IsLocked w) ∨ LoadedBlindly s₀ past →
      ∀ e ∈ (s.refresh w).2.entries, Added past e) := by
  cases hbefore : s.loaded with
  | true =>
    rw [Store.refresh_of_loaded hbefore]
    refine ⟨fun _ hsighted => h.sighted hbefore hsighted, ?_⟩
    rintro (⟨hnot, -⟩ | hblind)
    · cases hnot
    · exact (h.blind hblind).2
  | false =>
    -- The file still has its first bytes, since nothing has been written yet.
    obtain ⟨-, hbytes, -⟩ := h.unloaded hbefore
    rw [Store.refresh_of_unloaded hbefore, h.config.reading] at hloaded ⊢
    cases hreading : s₀.reading w with
    | error failure =>
      rw [hreading] at hloaded
      exact absurd (hbefore.symm.trans hloaded) nofun
    | ok entries =>
      constructor
      · intro hreadable _ e he
        rw [← hbytes.stored] at he
        exact Store.mem_of_reading (fun hlocked => hreadable ⟨rfl, hlocked⟩) hreading e he
      · rintro (⟨-, hlocked⟩ | hblind)
        · rw [Store.reading_of_locked hlocked] at hreading
          cases hreading
          exact fun e he => nomatch he
        · exact absurd (hbefore.symm.trans (h.blind hblind).1) nofun

/-- What an act that deletes nothing does to the entries held, if there is no limit on them. -/
theorem prepare_keeps (hmax : s.maxEntries = 0) (hact : act.isClear = false) :
    ((act.prepare s w).1.loaded = s.loaded ∧ (act.prepare s w).1.entries = s.entries) ∨
      ((act.prepare s w).1.loaded = (s.refresh w).2.loaded ∧
        (∀ e ∈ (s.refresh w).2.entries, e ∈ (act.prepare s w).1.entries) ∧
        ∀ e ∈ (act.prepare s w).1.entries,
          e ∈ (s.refresh w).2.entries ∨ e ∈ act.additions (s.refresh w).2 w) := by
  have hprepares := Act.prepare_cases act s w
  generalize act.prepare s w = prepared at hprepares
  cases hprepares with
  | flushed => exact .inl ⟨rfl, rfl⟩
  | idle => exact .inl ⟨rfl, rfl⟩
  | refreshed => exact .inr ⟨rfl, fun _ he => he, fun _ he => .inl he⟩
  | @extended r entries _ _ _ _ _ hrefresh hentries =>
    have hunlimited : r.maxEntries = 0 := by
      have hconfig := s.refresh_config w
      rw [hrefresh] at hconfig
      exact hconfig.maxEntries.trans hmax
    -- Without a limit nothing is trimmed off.
    obtain rfl : entries = r.entries ++ act.additions r w := by
      rcases hentries with rfl | ⟨-, rfl⟩
      · exact Store.trim_of_zero hunlimited _
      · rfl
    rw [hrefresh]
    exact .inr ⟨rfl, fun _ he => List.mem_append_left _ he, fun _ he => List.mem_append.mp he⟩
  | cleared hclear => exact absurd (hact.symm.trans hclear) nofun

/-- Whatever an act does before it may write the file, what the store holds is accounted for. -/
theorem Guarded.prepare (h : Guarded s₀ w₀ past s w) (hmax : s₀.maxEntries = 0)
    (hvalid : act.Valid w) (hact : act.isClear = false) :
    Remembers s₀ w₀ (⟨act, s, w⟩ :: past) (act.prepare s w).1 := by
  have hconfig := h.config.trans (Act.prepare_cases act s w).config
  have howned := Act.prepare_owned hvalid h.owned
  have hblindly : LoadedBlindly s₀ (⟨act, s, w⟩ :: past) ↔
      (s.loaded = false ∧ (act.prepare s w).1.loaded = true ∧ s₀.IsLocked w) ∨
        LoadedBlindly s₀ past := loadedBlindly_cons
  rcases prepare_keeps (w := w) (h.config.maxEntries.trans hmax) hact with
    ⟨hloaded, hentries⟩ | ⟨hloaded, hkeeps, hadds⟩
  · -- The store is not loaded by the act.
    have hsame : LoadedBlindly s₀ (⟨act, s, w⟩ :: past) ↔ LoadedBlindly s₀ past := by
      rw [hblindly, hloaded]
      constructor
      · rintro (⟨hnot, hyes, -⟩ | hblind)
        · exact absurd (hnot.symm.trans hyes) nofun
        · exact hblind
      · exact .inr
    -- So everything is as it was before it.
    refine ⟨hconfig, howned, ?_, ?_⟩
    · rw [hloaded, hentries, hsame]
      exact h.sighted
    · rw [hloaded, hentries, hsame]
      exact fun hblind => ⟨(h.blind hblind).1, fun e he => ((h.blind hblind).2 e he).cons _⟩
  · -- The store is refreshed, and its entries stay among those held.
    refine ⟨hconfig, howned, ?_, ?_⟩
    · intro hnow hsighted e he
      rw [hblindly, not_or] at hsighted
      rw [hloaded] at hnow
      refine hkeeps e ((h.refresh hnow).1 (fun hlocked => hsighted.1 ?_) hsighted.2 e he)
      exact ⟨hlocked.1, hloaded.trans hnow, hlocked.2⟩
    · intro hblind
      have hnow : (s.refresh w).2.loaded = true := by
        rcases hblindly.mp hblind with ⟨-, hnow, -⟩ | hblind
        · exact hloaded.symm.trans hnow
        · rw [Store.refresh_of_loaded (h.blind hblind).1]
          exact (h.blind hblind).1
      refine ⟨hloaded.trans hnow, fun e he => ?_⟩
      rcases hadds e he with he | he
      · have hlocked : (s.loaded = false ∧ s₀.IsLocked w) ∨ LoadedBlindly s₀ past :=
          (hblindly.mp hblind).imp_left fun hblind => ⟨hblind.1, hblind.2.2⟩
        exact ((h.refresh hnow).2 hlocked e he).cons _
      · exact ⟨_, List.mem_cons_self, he⟩

/-- A store that goes on to save is loaded. -/
theorem Guarded.loaded_before_save (h : Guarded s₀ w₀ past s w) (hact : act.isClear = false)
    (hsaves : (act.prepare s w).2 = true) : (act.prepare s w).1.loaded = true := by
  have hprepares := Act.prepare_cases act s w
  generalize act.prepare s w = prepared at hprepares hsaves
  -- Only a flush saves without reading first, and it has nothing to save before.
  cases hprepares with
  | flushed =>
    cases hloaded : s.loaded with
    | true => rfl
    | false => exact absurd ((h.unloaded hloaded).1.symm.trans hsaves) nofun
  | idle => cases hsaves
  | refreshed => cases hsaves
  | extended _ _ hrefreshed =>
    rcases s.refresh_loaded w with ⟨-, hloaded⟩ | ⟨hfailed, -⟩
    · rw [hrefreshed] at hloaded
      exact hloaded
    · rw [hrefreshed] at hfailed
      exact absurd rfl hfailed
  | cleared hclear => exact absurd (hact.symm.trans hclear) nofun

/-- A store that is not loaded by an act was not before, and is not marked by it. -/
theorem prepare_unloaded (hnot : (act.prepare s w).1.loaded = false) :
    s.loaded = false ∧ (act.prepare s w).1.dirty = s.dirty := by
  have hprepares := Act.prepare_cases act s w
  generalize act.prepare s w = prepared at hprepares hnot
  -- An act that got past the refresh has loaded the store.
  cases hprepares with
  | flushed => exact ⟨hnot, rfl⟩
  | idle => exact ⟨hnot, rfl⟩
  | refreshed =>
    rcases s.refresh_loaded w with ⟨-, hloaded⟩ | ⟨-, hunloaded, hsame⟩
    · exact absurd (hloaded.symm.trans hnot) nofun
    · exact ⟨hunloaded, by rw [hsame]⟩
  | extended _ _ hrefreshed =>
    rcases s.refresh_loaded w with ⟨-, hloaded⟩ | ⟨hfailed, -⟩
    · rw [hrefreshed] at hloaded
      exact absurd (hloaded.symm.trans hnot) nofun
    · rw [hrefreshed] at hfailed
      exact absurd rfl hfailed
  | cleared => cases hnot

/-- What is not so after an act was not so before. -/
theorem not_or_not_of_cons (h : ¬ LoadedBlindly s₀ (m :: past) ∨ ¬ Written (m :: past)) :
    ¬ LoadedBlindly s₀ past ∨ ¬ Written past :=
  h.imp (fun hnot hblind => hnot (loadedBlindly_cons.mpr (.inr hblind)))
    (fun hnot hwritten => hnot (written_cons.mpr (.inr hwritten)))

/-- Once the file has been written the store is loaded, so it cannot be loaded blindly any more. -/
theorem Guarded.loadedBlindly_of_cons (h : Guarded s₀ w₀ past s w)
    (hblind : LoadedBlindly s₀ (⟨act, s, w⟩ :: past)) (hwritten : Written past) :
    LoadedBlindly s₀ past := by
  rcases loadedBlindly_cons.mp hblind with ⟨hnot, -⟩ | hblind
  · exact absurd hwritten (h.unloaded hnot).2.2
  · exact hblind

/-- Without a limit a save changes no entries, so that the memory stays accounted for. -/
theorem Remembers.saved (h : Remembers s₀ w₀ past s) (hmax : s₀.maxEntries = 0) (dirty : Bool) :
    Remembers s₀ w₀ past { s with entries := s.trim s.entries, dirty } := by
  rw [Store.trim_of_zero (h.config.maxEntries.trans hmax)]
  exact ⟨h.config.trans ⟨rfl, rfl, rfl, rfl⟩, h.owned, h.sighted, h.blind⟩

/-- Where the entries of the memory have just been written, the invariant holds. -/
theorem Remembers.written (h : Remembers s₀ w₀ past s) (hmax : s₀.maxEntries = 0)
    (hloaded : s.loaded = true) (hwritten : Written past) {text : String} {executable : Bool}
    {stamp : Nat} (hrender : Journal.render s.nesting s.entries = .ok text)
    (hfind : w.disk.find w.cwd s₀.path.toString
      = .ok ⟨.file (Text.encode text.toList) executable false, stamp⟩) :
    Guarded s₀ w₀ past s w := by
  rw [h.config.nesting] at hrender
  have hstored := Store.stored_of_written h.owned hrender hfind
  rw [Store.trim_of_zero hmax] at hstored
  exact {
    h with
    unloaded := fun hnot => Bool.noConfusion (hloaded.symm.trans hnot)
    there := fun _ => ⟨_, Store.heldBytes?_of_find hfind⟩
    kept := fun hkept e he => by
      rcases hkept with hsighted | hnot
      · -- The store held what the file stored, and that is written again.
        rw [hstored]
        refine List.mem_map.mpr ⟨e, h.sighted hloaded hsighted e he, ?_⟩
        exact Store.plain_of_mem_stored he
      · exact absurd hwritten hnot
    replaced := fun hblind _ e he => by
      rw [hstored] at he
      obtain ⟨e', he', rfl⟩ := List.mem_map.mp he
      exact ⟨e', (h.blind hblind).2 e' he', rfl⟩ }

/-- Where an act has not written the file, what was found there still is, and the invariant holds
as it did before. -/
theorem Remembers.unwritten (h : Remembers s₀ w₀ (⟨act, s, w⟩ :: past) s')
    (hbefore : Guarded s₀ w₀ past s w)
    (hunloaded : s'.loaded = false →
      s'.dirty = false ∧ s₀.SameBytes w₀ w' ∧ ¬ Written (⟨act, s, w⟩ :: past))
    (hwritten : Written (⟨act, s, w⟩ :: past) → Written past)
    (hfound : ∀ found, w.disk.find w.cwd s₀.path.toString = .ok found →
      w'.disk.find w'.cwd s₀.path.toString = .ok found) :
    Guarded s₀ w₀ (⟨act, s, w⟩ :: past) s' w' := by
  -- A file that was written before is still found, with the same bytes.
  have hsame (hnow : Written (⟨act, s, w⟩ :: past)) : s₀.SameBytes w w' := by
    obtain ⟨content, hheld⟩ := hbefore.there (hwritten hnow)
    obtain ⟨_, _, _, hfind⟩ := Store.heldBytes?_eq_some hheld
    exact (Store.heldBytes?_of_find (hfound _ hfind)).trans hheld.symm
  exact {
    h with
    unloaded := hunloaded
    there := fun hnow =>
      (hbefore.there (hwritten hnow)).imp fun _ hheld => (hsame hnow).trans hheld
    kept := fun hcase e he =>
      Store.mem_stored_of_find hfound (hbefore.kept (not_or_not_of_cons hcase) e he)
    replaced := fun hblind hnow e he => by
      rw [(hsame hnow).stored] at he
      have hearlier := hbefore.loadedBlindly_of_cons hblind (hwritten hnow)
      obtain ⟨e', hadded, hplain⟩ := hbefore.replaced hearlier (hwritten hnow) e he
      exact ⟨e', hadded.cons _, hplain⟩ }

/-- An act that deletes nothing and does not go on to save keeps the invariant. -/
theorem Guarded.unsaved (h : Guarded s₀ w₀ past s w) (hmax : s₀.maxEntries = 0)
    (hvalid : act.Valid w) (hact : act.isClear = false) (hsaves : (act.prepare s w).2 = false) :
    Guarded s₀ w₀ (⟨act, s, w⟩ :: past) (act.prepare s w).1 w := by
  have hwritten : Written (⟨act, s, w⟩ :: past) → Written past := by
    rw [written_cons]
    rintro (⟨hyes, -⟩ | hwritten)
    · exact Bool.noConfusion (hsaves.symm.trans hyes)
    · exact hwritten
  refine (h.prepare hmax hvalid hact).unwritten h (fun hnot => ?_) hwritten fun _ hfind => hfind
  obtain ⟨hunloaded, hdirty⟩ := prepare_unloaded hnot
  obtain ⟨hclean, hbytes, hnever⟩ := h.unloaded hunloaded
  exact ⟨hdirty.trans hclean, hbytes, fun hnow => hnever (hwritten hnow)⟩

/-- So does one that goes on to save, whether that works or not. -/
theorem Guarded.saved {result : Except Failure Bool} (h : Guarded s₀ w₀ past s w)
    (hmax : s₀.maxEntries = 0) (hvalid : act.Valid w) (hact : act.isClear = false)
    (hsaves : (act.prepare s w).2 = true) (hsave : (act.prepare s w).1.save w = (result, s', w')) :
    Guarded s₀ w₀ (⟨act, s, w⟩ :: past) s' w' := by
  have hremembers := h.prepare hmax hvalid hact
  have hloaded := h.loaded_before_save hact hsaves
  have hwritten : Written (⟨act, s, w⟩ :: past) ↔
      ((act.prepare s w).2 = true ∧ ((act.prepare s w).1.save w).1 = .ok true) ∨ Written past :=
    written_cons
  have heffect := (act.prepare s w).1.save_cases w
  rw [hsave] at heffect hwritten
  -- A save that fails leaves the file as it was, so what was true of it still is.
  cases heffect with
  | written hrender hfind =>
    rw [hremembers.config.path] at hfind
    exact (hremembers.saved hmax false).written hmax hloaded (hwritten.mpr (.inl ⟨hsaves, rfl⟩))
      hrender hfind
  | failed hresult hfound =>
    rw [hremembers.config.path] at hfound
    refine (hremembers.saved hmax _).unwritten h ?_ (fun hnow => ?_) hfound
    · exact fun hnot => Bool.noConfusion (hloaded.symm.trans hnot)
    · rcases hwritten.mp hnow with ⟨-, hok⟩ | hearlier
      · exact absurd hok hresult
      · exact hearlier

/-- **One act keeps the invariant**, if it deletes nothing. -/
theorem Guarded.step (h : Guarded s₀ w₀ past s w) (hmax : s₀.maxEntries = 0)
    (hvalid : act.Valid w) (hact : act.isClear = false)
    (hrun : act.run (.store s) w = (.store s', w')) :
    Guarded s₀ w₀ (⟨act, s, w⟩ :: past) s' w' := by
  rcases Act.run_cases hrun with ⟨hsaves, rfl, rfl⟩ | ⟨hsaves, result, hsave⟩
  · exact h.unsaved hmax hvalid hact hsaves
  · exact h.saved hmax hvalid hact hsaves hsave

/-- Others that leave the bytes of the file alone keep the invariant. -/
theorem Guarded.others (h : Guarded s₀ w₀ past s w) (hbytes : s₀.SameBytes w w') :
    Guarded s₀ w₀ past s w' where
  toRemembers := h.toRemembers
  unloaded := fun hnot =>
    ⟨(h.unloaded hnot).1, hbytes.trans (h.unloaded hnot).2.1, (h.unloaded hnot).2.2⟩
  there := fun hwritten => (h.there hwritten).imp fun _ hheld => hbytes.trans hheld
  kept := by
    rw [hbytes.stored]
    exact h.kept
  replaced := by
    rw [hbytes.stored]
    exact h.replaced

/-- **Every run that deletes nothing keeps the invariant.** -/
theorem guarded_of_run (hfresh : s₀.Fresh) (hmax : s₀.maxEntries = 0)
    (hrun : Run s₀.SameBytes s₀ w₀ past s w) (hvalid : ∀ m ∈ past, m.act.Valid m.world)
    (hclear : ∀ m ∈ past, m.act.isClear = false) : Guarded s₀ w₀ past s w := by
  -- At the start nothing has been read or written and the invariant asks for nothing.
  induction hrun with
  | start =>
    have hnone : ∀ m : Moment, m ∉ ([] : List Moment) := fun m hm => nomatch hm
    exact {
      config := .refl s₀
      owned := fun e he => absurd he (by simp [hfresh.entries])
      sighted := fun hloaded => absurd (hfresh.loaded.symm.trans hloaded) nofun
      blind := fun ⟨m, hm, _⟩ => absurd hm (hnone m)
      unloaded := fun _ => ⟨hfresh.dirty, rfl, fun ⟨m, hm, _⟩ => hnone m hm⟩
      there := fun ⟨m, hm, _⟩ => absurd hm (hnone m)
      kept := fun _ _ he => he
      replaced := fun ⟨m, hm, _⟩ => absurd hm (hnone m) }
  | act act _ hact ih =>
    have hpast := ih (fun m hm => hvalid m (List.mem_cons_of_mem _ hm))
      (fun m hm => hclear m (List.mem_cons_of_mem _ hm))
    exact hpast.step hmax (hvalid _ List.mem_cons_self) (hclear _ List.mem_cons_self) hact
  | others _ hbytes ih => exact (ih hvalid hclear).others hbytes

end Guarded

/-- **What becomes of the entries that the file held.** Take a fresh store without a limit on its
entries, whatever its file holds, and any run that deletes nothing, in which others may change
whether the file can be read. The entries of the file stay there unless the store was loaded while
the file could not be read and has been written since; then nothing is left but what was added. -/
theorem stored_of_run {s₀ s : Store} {past : List Moment} {w₀ w : World} (hfresh : s₀.Fresh)
    (hmax : s₀.maxEntries = 0) (hrun : Run s₀.SameBytes s₀ w₀ past s w)
    (hvalid : ∀ m ∈ past, m.act.Valid m.world) (hclear : ∀ m ∈ past, m.act.isClear = false) :
    (¬ (LoadedBlindly s₀ past ∧ Written past) → ∀ e ∈ s₀.stored w₀, e ∈ s₀.stored w) ∧
      (LoadedBlindly s₀ past ∧ Written past →
        ∀ e ∈ s₀.stored w, ∃ e', Added past e' ∧ e = e'.plain) := by
  have hguarded := guarded_of_run hfresh hmax hrun hvalid hclear
  refine ⟨fun hcase => hguarded.kept (not_and_or.mp hcase), ?_⟩
  rintro ⟨hblind, hwritten⟩
  exact hguarded.replaced hblind hwritten

/-- A world in which the file holds the command `ls` and may not be read. -/
def lockedSample : World where
  disk := { nodes := [(["hist"], ⟨.file [108, 115, 10] false true, 0⟩)] }

/-- The file of the example is there and may not be read. -/
theorem sample_locked : Store.sample.IsLocked lockedSample :=
  ⟨[108, 115, 10], false, 0, by decide⟩

/-- A command is added while the file cannot be read, and the timer writes it. -/
theorem sample_loadedBlindly :
    LoadedBlindly .sample (sampleMoments (.sample "pwd" 5 []) lockedSample) ∧
      Written (sampleMoments (.sample "pwd" 5 []) lockedSample) := by
  constructor
  · refine ⟨_, List.mem_cons_of_mem _ List.mem_cons_self, rfl, ?_, sample_locked⟩
    rw [sample_prepare _ _ _ (Store.reading_of_locked sample_locked)]
    rfl
  · exact ⟨_, List.mem_cons_self, by constructor <;> decide +kernel⟩

/-- Nothing is left then but the command that was added. -/
theorem stored_after_locked_load : ∃ w : World,
    (Store.sample.stored lockedSample).map (·.command) = ["ls"] ∧
      ∀ e ∈ Store.sample.stored w,
        ∃ e', Added (sampleMoments (.sample "pwd" 5 []) lockedSample) e' ∧ e = e'.plain := by
  have hrun := sample_run "pwd" 5 [] Store.sample.SameBytes (Store.reading_of_locked sample_locked)
  have hstored := (stored_of_run ⟨rfl, rfl, rfl, rfl, rfl⟩ rfl hrun
    (sample_valid "pwd" 5 [] ⟨by decide⟩)
    (by simp [sampleMoments, Act.isClear])).2 sample_loadedBlindly
  exact ⟨_, by decide, hstored⟩

/-- So a read that fails can cost every entry of the file. -/
theorem stored_lost :
    ¬ ∀ (s₀ s : Store) (past : List Moment) (w₀ w : World), s₀.Fresh → s₀.maxEntries = 0 →
      Run s₀.SameBytes s₀ w₀ past s w → (∀ m ∈ past, m.act.Valid m.world) →
      (∀ m ∈ past, m.act.isClear = false) → ∀ e ∈ s₀.stored w₀, e ∈ s₀.stored w := by
  intro hkept
  have hread := Store.reading_of_locked sample_locked
  have hrun := sample_run "pwd" 5 [] Store.sample.SameBytes hread
  have hvalid := sample_valid "pwd" 5 [] (w := lockedSample) ⟨by decide⟩
  have hclear : ∀ m ∈ sampleMoments (.sample "pwd" 5 []) lockedSample, m.act.isClear = false := by
    simp [sampleMoments, Act.isClear]
  have hbefore : (Store.sample.stored lockedSample).map (·.command) = ["ls"] := by decide
  obtain ⟨e, he, hcommand⟩ := List.mem_map.mp (hbefore ▸ List.mem_cons_self)
  have hstill := hkept _ _ _ _ _ ⟨rfl, rfl, rfl, rfl, rfl⟩ rfl hrun hvalid hclear e he
  obtain ⟨e', ⟨m, hm, hadded⟩, rfl⟩ :=
    (guarded_of_run ⟨rfl, rfl, rfl, rfl, rfl⟩ rfl hrun hvalid hclear).replaced
      sample_loadedBlindly.1 sample_loadedBlindly.2 e hstill
  -- The timer adds nothing, and the other act adds another command.
  rcases List.mem_cons.mp hm with rfl | hm
  · cases hadded
  · obtain rfl := List.mem_singleton.mp hm
    rw [Store.refresh_of_unloaded rfl, hread] at hadded
    obtain rfl := List.mem_singleton.mp hadded
    exact absurd hcommand (by decide)

end ShellAssist.History
