import ShellAssist.Proofs.History.Runs

namespace ShellAssist.History

/-!
# What was recorded is there after a restart

As long as nothing but the store writes its file and no write fails, the file holds what the store
holds, or the store is marked as changed, its timer is running and it will be flushed when the
program ends. So a last flush, by whatever cause, brings the file up to date.

The entries come back as they were recorded but for their metadata, which come back as JSON text has
them: tuples as lists, keys as texts, and all that is no number as one value.

* `Kept` — the invariant of such runs, `kept_of_run` — every run keeps it;
* `load_of_final_run` — a fresh store that loads the file holds what the run has recorded.
-/

/-- What holds all along a run in which no write fails: the store holds what was recorded, the file
holds it as well unless there are changes, and changes are bound to be written. -/
structure Kept (s₀ : Store) (held : List Entry) (past : List Moment) (s : Store) (w : World) :
    Prop where
  config : s₀.SameConfig s
  unloaded : s.loaded = false → recorded s₀ held past = held
  entries : s.loaded = true → s.entries = recorded s₀ held past
  clean : s.dirty = false → s₀.reading w = .ok ((recorded s₀ held past).map Entry.plain)
  pending : s.dirty = true → s.loaded = true ∧ s.timerSet = true ∧ s.exitHook = .waiting
  hook : s.exitHook ≠ .spent

section Kept

variable {s₀ s s' : Store} {held : List Entry} {past : List Moment} {w₀ w w' : World} {act : Act}

/-- Refreshing gives the recorded entries. -/
theorem Kept.refresh (h : Kept s₀ held past s w) (hheld : held.map Entry.plain = held) :
    s.refresh w = (.ok (), { s with entries := recorded s₀ held past, loaded := true }) := by
  cases hloaded : s.loaded with
  | true =>
    rw [Store.refresh_of_loaded hloaded, ← h.entries hloaded, ← hloaded]
  | false =>
    -- A store that has not been loaded has no changes, so the file is up to date.
    have hclean : s.dirty = false := by
      cases hdirty : s.dirty with
      | false => rfl
      | true => exact absurd (h.pending hdirty).1 (by simp [hloaded])
    have hreading := h.clean hclean
    rw [h.unloaded hloaded, hheld] at hreading
    rw [Store.refresh_of_unloaded hloaded, h.config.reading, hreading, h.unloaded hloaded]

/-- A save that works brings the file up to date. -/
theorem Store.save_upToDate (s₁ : Store) {all : List Entry} {result : Except Failure Bool}
    (hconfig : s₀.SameConfig s₁) (hentries : s₀.trim s₁.entries = all)
    (howned : ∀ e ∈ all, e.Owned) (htrimmed : s₀.trim all = all)
    (hsave : s₁.save w = (result, s', w')) (hresult : (s₁.save w).1 = .ok true) :
    s' = { s₁ with entries := all, dirty := false } ∧
      s₀.reading w' = .ok (all.map Entry.plain) := by
  have heffect := s₁.save_cases w
  rw [hsave] at heffect hresult
  have hkept : s₁.trim s₁.entries = all := (hconfig.trim _).trans hentries
  cases heffect with
  | written hrender hfind =>
    rw [hkept] at hrender ⊢
    rw [hconfig.path] at hfind
    rw [hconfig.nesting] at hrender
    have hreading := Store.reading_of_written howned hrender hfind
    rw [Store.trim_map, htrimmed] at hreading
    exact ⟨rfl, hreading⟩
  | failed hfailed => exact absurd hresult hfailed

/-- So it restores the invariant. -/
theorem Kept.of_saved (s₁ : Store) {result : Except Failure Bool} (hconfig : s₀.SameConfig s₁)
    (hloaded : s₁.loaded = true) (hentries : s₀.trim s₁.entries = recorded s₀ held past)
    (howned : ∀ e ∈ recorded s₀ held past, e.Owned)
    (htrimmed : s₀.trim (recorded s₀ held past) = recorded s₀ held past)
    (hhook : s₁.exitHook ≠ .spent) (hsave : s₁.save w = (result, s', w'))
    (hresult : (s₁.save w).1 = .ok true) : Kept s₀ held past s' w' := by
  obtain ⟨rfl, hreading⟩ := Store.save_upToDate s₁ hconfig hentries howned htrimmed hsave hresult
  exact {
    config := hconfig.trans ⟨rfl, rfl, rfl, rfl⟩
    unloaded := fun hnot => absurd hloaded (by simp [show s₁.loaded = false from hnot])
    entries := fun _ => rfl
    clean := fun _ => hreading
    pending := nofun
    hook := hhook }

/-- Others leave the invariant alone. -/
theorem Kept.others (h : Kept s₀ held past s w) (huntouched : s₀.Untouched w w') :
    Kept s₀ held past s w' :=
  { h with clean := fun hclean => huntouched.reading.trans (h.clean hclean) }

theorem Kept.congr {past' : List Moment} (h : Kept s₀ held past s w)
    (hrecorded : recorded s₀ held past' = recorded s₀ held past) : Kept s₀ held past' s w where
  config := h.config
  unloaded := fun hloaded => hrecorded.trans (h.unloaded hloaded)
  entries := fun hloaded => (h.entries hloaded).trans hrecorded.symm
  clean := fun hclean => by rw [hrecorded]; exact h.clean hclean
  pending := h.pending
  hook := h.hook

/-- So do the timer and the hook as long as nothing is pending. -/
theorem Kept.idle (h : Kept s₀ held past s w) (hclean : s.dirty = false) (timerSet : Bool)
    {exitHook : ExitHook} (hhook : exitHook ≠ .spent) :
    Kept s₀ held past { s with timerSet, exitHook } w where
  config := h.config.trans ⟨rfl, rfl, rfl, rfl⟩
  unloaded := h.unloaded
  entries := h.entries
  clean := h.clean
  pending := fun hdirty => Bool.noConfusion (hclean.symm.trans hdirty)
  hook := hhook

/-- Refreshing the store keeps the invariant. -/
theorem Kept.refreshed (h : Kept s₀ held past s w) :
    Kept s₀ held past { s with entries := recorded s₀ held past, loaded := true } w where
  config := h.config.trans ⟨rfl, rfl, rfl, rfl⟩
  unloaded := Bool.noConfusion
  entries := fun _ => rfl
  clean := h.clean
  pending := fun hdirty => ⟨rfl, (h.pending hdirty).2⟩
  hook := h.hook

/-- What is added to the refreshed store is what is added to the recorded entries. -/
theorem Kept.additions_refreshed (h : Kept s₀ held past s w) (act : Act) (w' : World) :
    act.additions { s with entries := recorded s₀ held past, loaded := true } w'
      = act.additions { s₀ with entries := recorded s₀ held past } w' := by
  have hconfig : Store.SameConfig { s₀ with entries := recorded s₀ held past }
      { s with entries := recorded s₀ held past, loaded := true } :=
    ⟨h.config.path, h.config.maxEntries, h.config.saveCorrections, h.config.nesting⟩
  exact Act.additions_congr hconfig rfl act w'

/-- Changes that are left to the timer keep the invariant. -/
theorem Kept.scheduled (h : Kept s₀ held past s w) (m : Moment) :
    Kept s₀ held (m :: past) { s with
      entries := recorded s₀ held (m :: past), loaded := true, dirty := true, timerSet := true
      exitHook := if s.exitHook = .unset then .waiting else s.exitHook } w := by
  -- The hook is set by the first change, and spent only when the program ends.
  have hwaiting : (if s.exitHook = .unset then ExitHook.waiting else s.exitHook) = .waiting := by
    have hhook := h.hook
    cases hs : s.exitHook <;> simp_all
  rw [hwaiting]
  exact {
    config := h.config.trans ⟨rfl, rfl, rfl, rfl⟩
    unloaded := Bool.noConfusion
    entries := fun _ => rfl
    clean := Bool.noConfusion
    pending := fun _ => ⟨rfl, rfl, rfl⟩
    hook := ExitHook.noConfusion }

/-- Entries that were added keep the invariant, whether they are left to the timer or written at
once. -/
theorem Kept.extended (h : Kept s₀ held past s w) {m : Moment} {entries : List Entry}
    {timerSet saves : Bool} {exitHook : ExitHook}
    (howned : ∀ e ∈ recorded s₀ held (m :: past), e.Owned)
    (htrim : s₀.trim (recorded s₀ held (m :: past)) = recorded s₀ held (m :: past))
    (hentries : entries = recorded s₀ held (m :: past) ∨
      (saves = true ∧ s₀.trim entries = recorded s₀ held (m :: past)))
    (htimer : (saves = true ∧ exitHook = s.exitHook) ∨
      (timerSet = true ∧ exitHook = if s.exitHook = .unset then .waiting else s.exitHook))
    {s₁ : Store} (hs₁ : s₁ = { s with entries, loaded := true, dirty := true, timerSet, exitHook })
    (hsucceeds : saves = true → (s₁.save w).1 = .ok true)
    (hcases : (saves = false ∧ s' = s₁ ∧ w' = w) ∨
      (saves = true ∧ ∃ result, s₁.save w = (result, s', w'))) :
    Kept s₀ held (m :: past) s' w' := by
  -- Either the save is put off and the store stays dirty, or it is made now and succeeds.
  rcases hcases with ⟨hlater, rfl, rfl⟩ | ⟨hnow, result, hsave⟩
  · have hnot : ¬ saves = true := fun hnow => Bool.noConfusion (hlater.symm.trans hnow)
    obtain ⟨rfl, rfl⟩ := htimer.resolve_left fun hnow => hnot hnow.1
    obtain rfl := hentries.resolve_right fun hnow => hnot hnow.1
    rw [hs₁]
    exact h.scheduled m
  · have htrimmed : s₀.trim entries = recorded s₀ held (m :: past) := by
      rcases hentries with rfl | ⟨-, htrimmed⟩
      · exact htrim
      · exact htrimmed
    have hspent : exitHook ≠ .spent := by
      rcases htimer with ⟨-, rfl⟩ | ⟨-, rfl⟩
      · exact h.hook
      · exact (h.scheduled m).hook
    subst hs₁
    exact Kept.of_saved { s with entries, loaded := true, dirty := true, timerSet, exitHook }
      (h.config.trans ⟨rfl, rfl, rfl, rfl⟩) rfl htrimmed howned htrim hspent hsave (hsucceeds hnow)

/-- **One act keeps the invariant**, if it does not end the program and no write fails. -/
theorem Kept.step (h : Kept s₀ held past s w) (hmax : 0 ≤ s₀.maxEntries)
    (hheld : s₀.reading w₀ = .ok held)
    (hvalid : ∀ m ∈ (⟨act, s, w⟩ :: past : List Moment), m.act.Valid m.world)
    (hwritten : ¬ Moment.FailsToWrite ⟨act, s, w⟩) (hexit : act.isExit = false)
    (hrun : act.run (.store s) w = (.store s', w')) :
    Kept s₀ held (⟨act, s, w⟩ :: past) s' w' := by
  have howned : ∀ e ∈ recorded s₀ held (⟨act, s, w⟩ :: past), e.Owned :=
    recorded_owned (fun e he => (Store.reading_owned hheld e he).1) hvalid
  have htrim (moments : List Moment) :
      s₀.trim (recorded s₀ held moments) = recorded s₀ held moments :=
    recorded_trimmed hmax (Store.trim_reading hmax hheld)
  have hrefresh := h.refresh (Store.reading_plain hheld)
  have hsucceeds := Moment.save_ok hwritten
  simp only at hsucceeds
  have hadds := h.additions_refreshed act w
  have hprepares := Act.prepare_cases act s w
  have hcases := Act.run_cases hrun
  generalize act.prepare s w = prepared at hprepares hcases hsucceeds
  cases hprepares with
  | @flushed timerSet exitHook hact hadditions hhook =>
    have hrecorded := recorded_of_idle (m := ⟨act, s, w⟩) hact (hadditions _) (htrim past)
    have hspent : exitHook ≠ .spent := by
      rcases hhook with rfl | hhook
      · exact h.hook
      · exact Bool.noConfusion (hexit.symm.trans hhook)
    -- Without changes nothing is written, and the file is up to date already.
    rcases hcases with ⟨hclean, rfl, rfl⟩ | ⟨hdirty, result, hsave⟩
    · exact (h.idle hclean timerSet hspent).congr hrecorded
    · have hloaded := (h.pending hdirty).1
      refine Kept.of_saved { s with timerSet, exitHook } (h.config.trans ⟨rfl, rfl, rfl, rfl⟩) hloaded ?_
        howned (htrim _) hspent hsave (hsucceeds hdirty)
      rw [h.entries hloaded, htrim past, hrecorded]
  | idle hact hadditions =>
    rcases hcases with ⟨-, rfl, rfl⟩ | ⟨hsaves, -⟩
    · exact h.congr (recorded_of_idle hact (hadditions _) (htrim past))
    · cases hsaves
  | refreshed hact hfinal hadditions =>
    rcases hcases with ⟨-, rfl, rfl⟩ | ⟨hsaves, -⟩
    · rw [hrefresh] at hadditions ⊢
      have hnone := hadds.symm.trans (hadditions rfl)
      exact h.refreshed.congr (recorded_of_idle hact hnone (htrim past))
    · cases hsaves
  | @extended r entries timerSet saves exitHook hact hfinal hrefreshed hentries htimer =>
    obtain rfl : r = { s with entries := recorded s₀ held past, loaded := true } :=
      (Prod.mk.inj (hrefreshed.symm.trans hrefresh)).2
    have hrecorded : recorded s₀ held (⟨act, s, w⟩ :: past) = s₀.trim (recorded s₀ held past
        ++ act.additions { s₀ with entries := recorded s₀ held past } w) := recorded_of_adding hact
    rw [hadds, h.refreshed.config.trim, ← hrecorded] at hentries
    refine h.extended howned (htrim _) (hentries.imp_right fun hnow => ⟨hnow.1, ?_⟩) htimer rfl
      hsucceeds hcases
    -- An import leaves trimming to the save.
    rw [hnow.2, hrecorded]
  | cleared hact =>
    have hrecorded : recorded s₀ held (⟨act, s, w⟩ :: past) = [] := recorded_of_clear hact
    rcases hcases with ⟨hsaves, -⟩ | ⟨hsaves, result, hsave⟩
    · cases hsaves
    · refine Kept.of_saved { s with entries := [], timerSet := false, loaded := true }
        (h.config.trans ⟨rfl, rfl, rfl, rfl⟩) rfl ?_ howned (htrim _) h.hook hsave (hsucceeds hsaves)
      rw [Store.trim_nil, hrecorded]

/-- **Every run keeps the invariant** if no write fails and the program does not end. -/
theorem kept_of_run (hfresh : s₀.Fresh) (hmax : 0 ≤ s₀.maxEntries)
    (hheld : s₀.reading w₀ = .ok held) (hrun : Run s₀.Untouched s₀ w₀ past s w)
    (hvalid : ∀ m ∈ past, m.act.Valid m.world)
    (hwritten : ∀ m ∈ past, ¬ m.FailsToWrite) (hexit : ∀ m ∈ past, m.act.isExit = false) :
    Kept s₀ held past s w := by
  -- The invariant holds of a fresh store and each act that writes keeps it.
  induction hrun with
  | start =>
    exact {
      config := .refl s₀
      unloaded := fun _ => rfl
      entries := fun hloaded => absurd (hfresh.loaded.symm.trans hloaded) nofun
      clean := fun _ => by rw [recorded, Store.reading_plain hheld, hheld]
      pending := fun hdirty => absurd (hfresh.dirty.symm.trans hdirty) nofun
      hook := fun hspent => absurd (hfresh.exitHook.symm.trans hspent) nofun }
  | act act _ hact ih =>
    have hpast := ih (fun m hm => hvalid m (List.mem_cons_of_mem _ hm))
      (fun m hm => hwritten m (List.mem_cons_of_mem _ hm))
      (fun m hm => hexit m (List.mem_cons_of_mem _ hm))
    exact hpast.step hmax hheld hvalid (hwritten _ List.mem_cons_self)
      (hexit _ List.mem_cons_self) hact
  | others _ huntouched ih => exact (ih hvalid hwritten hexit).others huntouched

/-- Whatever writes what is pending brings the file up to date. -/
theorem Kept.final (h : Kept s₀ held past s w) (hmax : 0 ≤ s₀.maxEntries)
    (hheld : s₀.reading w₀ = .ok held) (hvalid : ∀ m ∈ past, m.act.Valid m.world)
    (hwritten : ¬ Moment.FailsToWrite ⟨act, s, w⟩) (hfinal : act.isFinal = true)
    (hrun : act.run (.store s) w = (.store s', w')) :
    (s'.loaded = true → s'.entries = recorded s₀ held past) ∧
      s₀.reading w' = .ok ((recorded s₀ held past).map Entry.plain) := by
  have howned : ∀ e ∈ recorded s₀ held past, e.Owned :=
    recorded_owned (fun e he => (Store.reading_owned hheld e he).1) hvalid
  have htrimmed : s₀.trim (recorded s₀ held past) = recorded s₀ held past :=
    recorded_trimmed hmax (Store.trim_reading hmax hheld)
  have hsucceeds := Moment.save_ok hwritten
  simp only at hsucceeds
  have hprepares := Act.prepare_cases act s w
  have hcases := Act.run_cases hrun
  generalize act.prepare s w = prepared at hprepares hcases hsucceeds
  cases hprepares with
  | @flushed timerSet exitHook =>
    rcases hcases with ⟨hclean, rfl, rfl⟩ | ⟨hdirty, result, hsave⟩
    · exact ⟨h.entries, h.clean hclean⟩
    · have hloaded := (h.pending hdirty).1
      obtain ⟨rfl, hreading⟩ := Store.save_upToDate { s with timerSet, exitHook }
        (h.config.trans ⟨rfl, rfl, rfl, rfl⟩) (by rw [h.entries hloaded, htrimmed]) howned htrimmed
        hsave (hsucceeds hdirty)
      exact ⟨fun _ => rfl, hreading⟩
  | idle hact hadditions hidle =>
    -- With changes pending there would be a timer and a waiting hook.
    have hclean : s.dirty = false := by
      cases hdirty : s.dirty with
      | false => rfl
      | true =>
        obtain ⟨-, htimer, hhook⟩ := h.pending hdirty
        rcases hidle with hnone | hnone
        · exact absurd (htimer.symm.trans hnone) nofun
        · exact absurd hhook hnone
    rcases hcases with ⟨-, rfl, rfl⟩ | ⟨hsaves, -⟩
    · exact ⟨h.entries, h.clean hclean⟩
    · cases hsaves
  | refreshed _ hnot => exact absurd (hfinal.symm.trans hnot) nofun
  | extended _ hnot => exact absurd (hfinal.symm.trans hnot) nofun
  | cleared hact =>
    cases act with
    | clear => cases hfinal
    | _ => cases hact

end Kept

/-- Once what is pending is written, the store and the file hold what the run has recorded. -/
theorem reading_of_final_run {s₀ s : Store} {w₀ w : World} {held : List Entry} {m : Moment}
    {past : List Moment} (hfresh : s₀.Fresh) (hmax : 0 ≤ s₀.maxEntries)
    (hheld : s₀.reading w₀ = .ok held) (hrun : Run s₀.Untouched s₀ w₀ (m :: past) s w)
    (hvalid : ∀ m' ∈ past, m'.act.Valid m'.world)
    (hwritten : ∀ m' ∈ m :: past, ¬ m'.FailsToWrite) (hexit : ∀ m' ∈ past, m'.act.isExit = false)
    (hfinal : m.act.isFinal = true) :
    (s.loaded = true → s.entries = recorded s₀ held past) ∧
      s₀.reading w = .ok ((recorded s₀ held past).map Entry.plain) := by
  obtain ⟨hpast, w', hlast, hothers⟩ := hrun.cons_cases
  have hkept := kept_of_run hfresh hmax hheld hpast hvalid
    (fun m' hm => hwritten m' (List.mem_cons_of_mem _ hm)) hexit
  obtain ⟨hentries, hreading⟩ := hkept.final hmax hheld hvalid (hwritten m List.mem_cons_self)
    hfinal hlast
  exact ⟨hentries, (Store.Untouched.many hothers).trans hreading⟩

/-- **What a run has recorded is there after a restart.** Take a fresh store whose file is missing
or can be parsed, and any run in which nobody else changes the file and no save fails. Once what is
pending is written, by a flush, the timer or the end of the program, the store holds what the run
has recorded, and a fresh store that loads the file holds the same entries as they come back. -/
theorem load_of_final_run {s₀ s : Store} {w₀ w : World} {held : List Entry} {m : Moment}
    {past : List Moment} (hfresh : s₀.Fresh) (hmax : 0 ≤ s₀.maxEntries)
    (hheld : s₀.reading w₀ = .ok held) (hrun : Run s₀.Untouched s₀ w₀ (m :: past) s w)
    (hvalid : ∀ m' ∈ past, m'.act.Valid m'.world)
    (hwritten : ∀ m' ∈ m :: past, ¬ m'.FailsToWrite) (hexit : ∀ m' ∈ past, m'.act.isExit = false)
    (hfinal : m.act.isFinal = true) (hloaded : s.loaded = true) :
    s.entries = recorded s₀ held past ∧
      s₀.load w = (.ok (), { s₀ with entries := s.entries.map Entry.plain, loaded := true }) := by
  obtain ⟨hentries, hreading⟩ :=
    reading_of_final_run hfresh hmax hheld hrun hvalid hwritten hexit hfinal
  rw [← hentries hloaded] at hreading
  refine ⟨hentries hloaded, ?_⟩
  rw [Store.load_eq, hreading]

/-- A command is added, and the timer writes it. -/
theorem load_after_timer : ∃ (s : Store) (w : World), s.entries = [.sample "ls" 5 []] ∧
    Store.sample.load w
      = (.ok (), { Store.sample with entries := [.sample "ls" 5 []], loaded := true }) := by
  have hsaved : ({ Store.sampleWith (.sample "ls" 5 []) with timerSet := false }.save {}).1
      = .ok true := by decide +kernel
  have hnone : Store.sample.reading {} = .ok [] := rfl
  obtain ⟨hentries, hload⟩ := load_of_final_run ⟨rfl, rfl, rfl, rfl, rfl⟩ (by decide) hnone
    (sample_run "ls" 5 [] _ hnone) (by simpa [Act.Valid] using ⟨by decide⟩)
    (sample_succeeds "ls" 5 [] rfl hsaved) (by simp [Act.isExit]) rfl (by decide +kernel)
  have hrecorded : recorded Store.sample [] [⟨.add (.sample "ls" 5 []), .sample, {}⟩]
      = [.sample "ls" 5 []] := rfl
  rw [hrecorded] at hentries
  rw [hentries] at hload
  exact ⟨_, _, hentries, hload⟩

/-- Entries need not come back as they were: a tuple in the metadata comes back as a list. Nor need they
come back at all where only failed writes of the file are ruled out: a timestamp can have more digits
than are written, and then no write is tried. -/
theorem load_inexact :
    (¬ ∀ (s₀ s : Store) (w₀ w : World) (held : List Entry) (m : Moment) (past : List Moment),
      s₀.Fresh → 0 ≤ s₀.maxEntries → s₀.reading w₀ = .ok held →
      Run s₀.Untouched s₀ w₀ (m :: past) s w → (∀ m' ∈ past, m'.act.Valid m'.world) →
      (∀ m' ∈ m :: past, ¬ m'.FailsToWrite) → (∀ m' ∈ past, m'.act.isExit = false) →
      m.act.isFinal = true → s.loaded = true →
      (s₀.load w).2.entries = s.entries) ∧
    (¬ ∀ (s₀ s : Store) (w₀ w : World) (held : List Entry) (m : Moment) (past : List Moment),
      s₀.Fresh → 0 ≤ s₀.maxEntries → s₀.reading w₀ = .ok held →
      Run s₀.Untouched s₀ w₀ (m :: past) s w → (∀ m' ∈ past, m'.act.Valid m'.world) →
      (∀ m' ∈ m :: past, (m'.act.prepare m'.store m'.world).2 = true →
        ((m'.act.prepare m'.store m'.world).1.save m'.world).1 ≠ .ok false) →
      (∀ m' ∈ past, m'.act.isExit = false) → m.act.isFinal = true → s.loaded = true →
      (s₀.load w).2.entries = s.entries.map Entry.plain) := by
  constructor
  · -- A tuple is written as a list.
    intro hexact
    let metadata : List (Key × Value) := [("x", .tuple [])]
    have hsaved : ({ Store.sampleWith (.sample "ls" 5 metadata) with timerSet := false }.save {}).1
        = .ok true := by decide +kernel
    have hnone : Store.sample.reading {} = .ok [] := rfl
    have hrun := sample_run "ls" 5 metadata Store.sample.Untouched hnone
    have hvalid : ∀ m ∈ [(⟨.add (.sample "ls" 5 metadata), .sample, {}⟩ : Moment)],
        m.act.Valid m.world := by
      simpa [Act.Valid] using ⟨by decide⟩
    have hsucceeds := sample_succeeds "ls" 5 metadata rfl hsaved
    have hentries := hexact _ _ _ _ [] _ _ ⟨rfl, rfl, rfl, rfl, rfl⟩ (by decide) rfl hrun hvalid
      hsucceeds (by simp [Act.isExit]) rfl (by decide +kernel)
    obtain ⟨-, hreading⟩ := reading_of_final_run ⟨rfl, rfl, rfl, rfl, rfl⟩ (by decide)
      hnone hrun hvalid hsucceeds (by simp [Act.isExit]) rfl
    rw [Store.load_eq, hreading, sample_entries] at hentries
    have hplain : (Entry.sample "ls" 5 metadata).plain = .sample "ls" 5 metadata :=
      (List.cons.inj hentries).1
    have hlist := congrArg Entry.metadata hplain
    cases hlist
  · -- The save raises before it comes to the file, so no write of the file has failed.
    intro hcomplete
    let timestamp : Int := Number.Decimal.writableLimit
    have hraised :
        ({ Store.sampleWith (.sample "ls" timestamp []) with timerSet := false }.save {}).1
          ≠ .ok false := by decide +kernel
    have hentries := hcomplete _ _ _ _ [] _ _ ⟨rfl, rfl, rfl, rfl, rfl⟩ (by decide) rfl
      (sample_run "ls" timestamp [] _ rfl) (by simpa [Act.Valid] using ⟨by decide⟩)
      (by
        intro m' hm hsaves
        obtain ⟨hprepare, hworld⟩ := sample_writes "ls" timestamp [] (w := {}) rfl hm hsaves
        rw [hprepare, hworld]
        exact hraised)
      (by simp [Act.isExit]) rfl (by decide +kernel)
    have hcount := congrArg List.length hentries
    revert hcount
    decide +kernel

end ShellAssist.History
