import ShellAssist.Proofs.History.Runs

namespace ShellAssist.History

/-!
# What is known of the file when writes fail

A store is marked as changed from the moment its entries differ from the file until a save works,
so that a later flush makes up for a save that failed. Clearing is the one change that does not mark
the store: if its save fails, an unmarked store is empty while its file is not, and no flush will
make up for it.

* `standing` — where the entries of an unmarked store come from, by the moments of a run;
* `Tracked` — the invariant of all runs, `tracked_of_run` — every run keeps it, whatever fails;
* `reading_eq_entries_iff` — exactly when the file of an unmarked store holds its entries.
-/

/-- Where the entries of an unmarked store come from. -/
inductive Standing where
  /-- They were read from the file. -/
  | read
  /-- They were written to the file. -/
  | written
  /-- There are none, as all were deleted, but the file of this world could not be written. -/
  | lost (w : World)

instance (m : Moment) : Decidable m.Writes :=
  inferInstanceAs (Decidable (_ ∧ _))

/-- Where the entries come from after a run, if the store is unmarked then. -/
def standing : List Moment → Standing
  | [] => .read
  | m :: past =>
    if m.Writes then .written
    else if m.act.isClear && !m.store.dirty then .lost (m.act.run (.store m.store) m.world).2
    else standing past

/-- What that says about the store and its file. -/
def Standing.Holds (s₀ : Store) (held : List Entry) (s : Store) (w : World) : Standing → Prop
  | .read => s.entries = held ∧ s₀.reading w = .ok held
  | .written => (∃ all, s.entries = s₀.trim all) ∧
      s₀.reading w = .ok ((s₀.trim s.entries).map Entry.plain)
  | .lost w' => s.entries = [] ∧ s₀.reading w = s₀.reading w'

/-- What holds all along a run, whatever fails. -/
structure Tracked (s₀ : Store) (held : List Entry) (origin : Standing) (s : Store) (w : World) :
    Prop where
  config : s₀.SameConfig s
  owned : ∀ e ∈ s.entries, e.Owned
  unloaded : s.loaded = false → s.dirty = false ∧ origin = .read ∧ s₀.reading w = .ok held
  clean : s.loaded = true → s.dirty = false → origin.Holds s₀ held s w

section Tracked

variable {s₀ s s' : Store} {held : List Entry} {origin : Standing} {past : List Moment}
  {w₀ w w' : World} {act : Act}

/-- A marked store has been loaded. -/
theorem Tracked.loaded_of_dirty (h : Tracked s₀ held origin s w) (hdirty : s.dirty = true) :
    s.loaded = true := by
  cases hloaded : s.loaded with
  | true => rfl
  | false => exact absurd ((h.unloaded hloaded).1.symm.trans hdirty) nofun

/-- Refreshing a store gives it entries, those of the file if it had none. -/
theorem Tracked.refresh (h : Tracked s₀ held origin s w) :
    (s.refresh w).2.loaded = true ∧
      ((s.refresh w).2.dirty = false → origin.Holds s₀ held (s.refresh w).2 w) := by
  cases hloaded : s.loaded with
  | true =>
    rw [Store.refresh_of_loaded hloaded]
    exact ⟨hloaded, h.clean hloaded⟩
  | false =>
    obtain ⟨-, rfl, hreading⟩ := h.unloaded hloaded
    rw [Store.refresh_of_unloaded hloaded, h.config.reading, hreading]
    exact ⟨rfl, fun _ => ⟨rfl, hreading⟩⟩

/-- An act that does not go on to save leaves the entries of an unmarked store where they come
from. -/
theorem Tracked.unsaved (h : Tracked s₀ held origin s w) (hvalid : act.Valid w)
    (hsaves : (act.prepare s w).2 = false) :
    Tracked s₀ held origin (act.prepare s w).1 w := by
  have hprepares := Act.prepare_cases act s w
  have hconfig := h.config.trans hprepares.config
  have howned := Act.prepare_owned hvalid h.owned
  have hrefresh := h.refresh
  generalize act.prepare s w = prepared at hprepares hsaves hconfig howned
  cases hprepares with
  | flushed => exact ⟨hconfig, howned, h.unloaded, h.clean⟩
  | idle => exact h
  | refreshed =>
    -- A first refresh reads the entries; a later one leaves them alone.
    exact {
      config := hconfig
      owned := howned
      unloaded := fun hloaded => absurd (hloaded.symm.trans hrefresh.1) nofun
      clean := fun _ => hrefresh.2 }
  | extended _ _ hrefreshed =>
    -- Whatever adds entries marks the store.
    rw [hrefreshed] at hrefresh
    exact {
      config := hconfig
      owned := howned
      unloaded := fun hloaded => absurd (hloaded.symm.trans hrefresh.1) nofun
      clean := nofun }
  | cleared => cases hsaves

/-- A store that goes on to save is loaded and marked, or all its entries have been deleted. -/
theorem Tracked.before_save (h : Tracked s₀ held origin s w) (hsaves : (act.prepare s w).2 = true) :
    (act.prepare s w).1.loaded = true ∧
      ((act.prepare s w).1.dirty = true ∨
        (act.isClear = true ∧ (act.prepare s w).1 =
          { s with entries := [], timerSet := false, loaded := true })) := by
  have hprepares := Act.prepare_cases act s w
  have hrefresh := h.refresh
  generalize act.prepare s w = prepared at hprepares hsaves
  cases hprepares with
  | flushed => exact ⟨h.loaded_of_dirty hsaves, .inl hsaves⟩
  | idle => cases hsaves
  | refreshed => cases hsaves
  | extended _ _ hrefreshed =>
    rw [hrefreshed] at hrefresh
    exact ⟨hrefresh.1, .inl rfl⟩
  | cleared hact => exact ⟨rfl, .inr ⟨hact, rfl⟩⟩

/-- A save that works makes the file hold the entries; one that fails leaves them pending, unless it
was all of them that were deleted from an unmarked store. -/
theorem Tracked.saved {result : Except Failure Bool} (h : Tracked s₀ held (standing past) s w)
    (hvalid : act.Valid w) (hsaves : (act.prepare s w).2 = true)
    (hsave : (act.prepare s w).1.save w = (result, s', w')) :
    Tracked s₀ held (standing (⟨act, s, w⟩ :: past)) s' w' := by
  have hconfig := h.config.trans (Act.prepare_cases act s w).config
  have hkept : ∀ e ∈ (act.prepare s w).1.trim (act.prepare s w).1.entries, e.Owned :=
    fun e he => Act.prepare_owned hvalid h.owned e (Store.mem_of_mem_trim he)
  obtain ⟨hloaded, hmarked⟩ := h.before_save hsaves
  have hrun : act.run (.store s) w = (.store s', w') := by
    rw [Act.run_eq, Act.settled, if_pos hsaves, hsave]
  have heffect := (act.prepare s w).1.save_cases w
  rw [hsave] at heffect
  cases heffect with
  | written hrender hfind =>
    have hwritten : standing (⟨act, s, w⟩ :: past) = .written := by
      rw [standing, if_pos ⟨hsaves, congrArg Prod.fst hsave⟩]
    rw [hconfig.path] at hfind
    rw [hconfig.nesting] at hrender
    rw [hwritten]
    exact {
      config := hconfig.trans ⟨rfl, rfl, rfl, rfl⟩
      owned := hkept
      unloaded := fun hnot => Bool.noConfusion (hloaded.symm.trans hnot)
      clean := fun _ _ => ⟨⟨_, hconfig.trim _⟩, by
        rw [← Store.trim_map]
        exact Store.reading_of_written hkept hrender hfind⟩ }
  | failed hresult =>
    refine {
      config := hconfig.trans ⟨rfl, rfl, rfl, rfl⟩
      owned := hkept
      unloaded := fun hnot => Bool.noConfusion (hloaded.symm.trans hnot)
      clean := fun _ hdirty => ?_ }
    rcases hmarked with hmarked | ⟨hact, hcleared⟩
    · -- The mark stays, so nothing is claimed about the file.
      exact Bool.noConfusion (hmarked.symm.trans hdirty)
    · -- Clearing does not mark the store, so nothing remembers that the file was not written.
      have hlost : standing (⟨act, s, w⟩ :: past) = .lost w' := by
        have hclean : s.dirty = false := by
          rw [hcleared] at hdirty
          exact hdirty
        have hfailed : ¬ Moment.Writes ⟨act, s, w⟩ := by
          rintro ⟨-, hok⟩
          rw [hsave] at hok
          exact hresult hok
        rw [standing, if_neg hfailed]
        simp only [hact, hclean, Bool.not_false, Bool.and_self, if_true, hrun]
      rw [hlost]
      refine ⟨?_, rfl⟩
      rw [hcleared]
      exact Store.trim_nil _

/-- **One act keeps the invariant**, whether the file can be written or not. -/
theorem Tracked.step (h : Tracked s₀ held (standing past) s w) (hvalid : act.Valid w)
    (hrun : act.run (.store s) w = (.store s', w')) :
    Tracked s₀ held (standing (⟨act, s, w⟩ :: past)) s' w' := by
  rcases Act.run_cases hrun with ⟨hsaves, rfl, rfl⟩ | ⟨hsaves, result, hsave⟩
  · -- Clearing always goes on to save, so the entries still come from where they came from.
    have hact : act.isClear = false := by
      cases act with
      | clear => cases hsaves
      | _ => rfl
    have hnot : ¬ Moment.Writes ⟨act, s, w'⟩ := by
      rintro ⟨hwrites, -⟩
      rw [hsaves] at hwrites
      cases hwrites
    have hsame : standing (⟨act, s, w'⟩ :: past) = standing past := by
      rw [standing, if_neg hnot]
      simp only [hact, Bool.false_and, Bool.false_eq_true, if_false]
    rw [hsame]
    exact h.unsaved hvalid hsaves
  · exact h.saved hvalid hsaves hsave

/-- Others that leave the file as it is keep the invariant. -/
theorem Tracked.others (h : Tracked s₀ held origin s w) (huntouched : s₀.Untouched w w') :
    Tracked s₀ held origin s w' where
  config := h.config
  owned := h.owned
  unloaded := by
    rw [huntouched.reading]
    exact h.unloaded
  clean := by
    intro hloaded hdirty
    have hclean := h.clean hloaded hdirty
    cases origin with
    | read => exact ⟨hclean.1, huntouched.reading.trans hclean.2⟩
    | written => exact ⟨hclean.1, huntouched.reading.trans hclean.2⟩
    | lost => exact ⟨hclean.1, huntouched.reading.trans hclean.2⟩

/-- **Every run keeps the invariant**, whatever fails. -/
theorem tracked_of_run (hfresh : s₀.Fresh) (hheld : s₀.reading w₀ = .ok held)
    (hrun : Run s₀.Untouched s₀ w₀ past s w) (hvalid : ∀ m ∈ past, m.act.Valid m.world) :
    Tracked s₀ held (standing past) s w := by
  induction hrun with
  | start =>
    exact {
      config := .refl s₀
      owned := fun e he => absurd he (by simp [hfresh.entries])
      unloaded := fun _ => ⟨hfresh.dirty, rfl, hheld⟩
      clean := fun hloaded => absurd (hfresh.loaded.symm.trans hloaded) nofun }
  | act act _ hact ih =>
    exact (ih fun m hm => hvalid m (List.mem_cons_of_mem _ hm)).step
      (hvalid _ List.mem_cons_self) hact
  | others _ huntouched ih => exact (ih hvalid).others huntouched

/-- When the file holds exactly the entries of an unmarked store, by where those come from. -/
def Standing.Agrees (s₀ : Store) (entries : List Entry) : Standing → Prop
  | .read => True
  | .written => entries.map Entry.plain = entries ∧ (0 ≤ s₀.maxEntries ∨ entries = [])
  | .lost w => s₀.reading w = .ok []

theorem Standing.Holds.reading_iff (h : origin.Holds s₀ held s w) :
    s₀.reading w = .ok s.entries ↔ origin.Agrees s₀ s.entries := by
  cases origin with
  | read =>
    obtain ⟨rfl, hreading⟩ := h
    exact ⟨fun _ => trivial, fun _ => hreading⟩
  | written =>
    obtain ⟨⟨all, hentries⟩, hreading⟩ := h
    -- A file is trimmed again when it is read, which changes nothing unless the limit is negative.
    constructor
    · intro hequal
      refine ⟨Store.reading_plain hequal, ?_⟩
      by_cases hmax : 0 ≤ s₀.maxEntries
      · exact .inl hmax
      · have hlength := congrArg List.length (Except.ok.inj (hreading.symm.trans hequal))
        rw [List.length_map] at hlength
        exact .inr (Store.eq_nil_of_trim_eq (by omega) hlength)
    · rintro ⟨hplain, hmax | hnil⟩
      · have htrim : s₀.trim s.entries = s.entries := by
          rw [hentries, Store.trim_trim hmax]
        rw [hreading, htrim, hplain]
      · rw [hreading, hnil, Store.trim_nil, List.map_nil]
  | lost w' =>
    obtain ⟨hnil, hreading⟩ := h
    rw [hnil, hreading]
    exact Iff.rfl

/-- A flush that does not fail leaves the store unmarked, and loaded if it was. -/
theorem flush_unmarks (hrun : Act.flush.run (.store s) w = (.store s', w'))
    (hwritten : ¬ Moment.FailsToWrite ⟨.flush, s, w⟩) :
    s'.dirty = false ∧ s'.loaded = s.loaded := by
  rcases Act.run_cases hrun with ⟨hclean, rfl, -⟩ | ⟨hsaves, result, hsave⟩
  · exact ⟨hclean, rfl⟩
  · have hok := Moment.save_ok hwritten hsaves
    have heffect := (Act.flush.prepare s w).1.save_cases w
    rw [hsave] at heffect hok
    cases heffect with
    | written => exact ⟨rfl, rfl⟩
    | failed hresult => exact absurd hok hresult

theorem flush_idle (hclean : s.dirty = false) (htimer : s.timerSet = false) :
    Act.flush.run (.store s) w = (.store s, w) := by
  rw [Act.run_eq, Act.settled, Act.prepare, if_neg (by simp [hclean]), ← htimer]

end Tracked

/-- **When the file of an unmarked store holds its entries.** After any run of a fresh store,
whatever writes failed, an unmarked store agrees with its file in the following cases and in no
others: its entries were read; they were written, none of them changes by that and the limit on them
is not negative; or they were deleted, and the file held none when that could not be written. A
flush that does not fail always leaves the store unmarked. -/
theorem reading_eq_entries_iff {s₀ s : Store} {held : List Entry} {past : List Moment}
    {w₀ w : World} (hfresh : s₀.Fresh) (hheld : s₀.reading w₀ = .ok held)
    (hrun : Run s₀.Untouched s₀ w₀ past s w) (hvalid : ∀ m ∈ past, m.act.Valid m.world)
    (hloaded : s.loaded = true) :
    (s.dirty = false →
      (s₀.reading w = .ok s.entries ↔ (standing past).Agrees s₀ s.entries)) ∧
    ∀ s' w', Act.flush.run (.store s) w = (.store s', w') →
      ¬ Moment.FailsToWrite ⟨.flush, s, w⟩ → s'.dirty = false ∧
        (s₀.reading w' = .ok s'.entries ↔
          (standing (⟨.flush, s, w⟩ :: past)).Agrees s₀ s'.entries) := by
  have htracked := tracked_of_run hfresh hheld hrun hvalid
  refine ⟨fun hclean => (htracked.clean hloaded hclean).reading_iff, ?_⟩
  intro s' w' hflush hwritten
  obtain ⟨hclean, hsame⟩ := flush_unmarks hflush hwritten
  have htracked' := htracked.step (show Act.flush.Valid w from trivial) hflush
  exact ⟨hclean, (htracked'.clean (hsame.trans hloaded) hclean).reading_iff⟩

/-- A command is added, and the timer writes it. -/
theorem reading_after_timer : ∃ (s : Store) (w : World), s.loaded = true ∧ s.dirty = false ∧
    s.entries.length = 1 ∧ Store.sample.reading w = .ok s.entries := by
  have hnone : Store.sample.reading {} = .ok [] := rfl
  have hiff := (reading_eq_entries_iff ⟨rfl, rfl, rfl, rfl, rfl⟩ hnone
    (sample_run "ls" 5 [] _ hnone) (sample_valid "ls" 5 [] ⟨by decide⟩)
    (by decide +kernel)).1 (by decide +kernel)
  have hwrites : Moment.Writes ⟨.fireTimer, .sampleWith (.sample "ls" 5 []), {}⟩ := by
    decide +kernel
  rw [sampleMoments, standing, if_pos hwrites] at hiff
  refine ⟨_, _, by decide +kernel, by decide +kernel, by decide +kernel,
    hiff.mpr ⟨?_, .inl (by decide)⟩⟩
  rw [sample_entries]
  rfl

/-- All entries are deleted while the file cannot be written: the store is not marked, a flush has
nothing to do, and the deleted command is back after a restart. -/
theorem clear_forgets_failure :
    let line : List UInt8 := [108, 115, 10]
    let w₀ : World := {
      disk := { nodes := [(["hist"], ⟨.file line false false, 0⟩)] }
      saveFaults := [some .opening] }
    ∃ (held : List Entry) (past : List Moment) (s : Store) (w : World),
      Store.sample.Fresh ∧ Store.sample.reading w₀ = .ok held ∧
      Run Store.sample.Untouched .sample w₀ past s w ∧ (∀ m ∈ past, m.act.Valid m.world) ∧
      s.loaded = true ∧ s.dirty = false ∧ Store.sample.reading w ≠ .ok s.entries ∧
      Act.flush.run (.store s) w = (.store s, w) ∧ ¬ Moment.FailsToWrite ⟨.flush, s, w⟩ := by
  intro line w₀
  have hclear (s : Store) (w : World) :
      Act.clear.run (.store s) w = (.store (s.clear w).2.1, (s.clear w).2.2) := rfl
  have hcount : (Store.sample.reading (Store.sample.clear w₀).2.2).map List.length = .ok 1 := by
    decide
  refine ⟨[{ command := "ls", source := "owned" }], [⟨.clear, .sample, w₀⟩],
    (Store.sample.clear w₀).2.1, (Store.sample.clear w₀).2.2, ⟨rfl, rfl, rfl, rfl, rfl⟩, ?_,
    .act .clear .start (hclear _ _), by simp [Act.Valid], ?_, ?_, ?_, ?_, ?_⟩
  · have hread : w₀.disk.readText w₀.cwd Store.sample.path.toString = .ok "ls\n" := by
      decide
    rw [Store.reading, hread]
    rfl
  · decide
  · decide
  · intro hequal
    rw [hequal] at hcount
    revert hcount
    decide
  · -- The store is not marked, so the flush does not write.
    exact flush_idle (by decide) (by decide)
  · rintro ⟨hsaves, -⟩
    revert hsaves
    decide

end ShellAssist.History
