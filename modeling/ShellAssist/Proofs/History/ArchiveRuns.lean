import ShellAssist.History.Archive
import ShellAssist.Proofs.History.Confinement

namespace ShellAssist.History

/-!
# What an archive changes on the disk

An archive asks its providers and changes the program's own history only, whatever its mode. So what
it does to the disk is what a store does.

* `Archive.Call`, `Archive.own_run` — what can be asked, and that it is an act on the own history;
* `Archive.Run`, `Archive.step_of_run` — runs, and what they do to the disk;
* `Archive.Keeps`, `Archive.keeps_of_run` — what holds behind every run.
-/

namespace Provider

/-- The store that a provider is, if it is one. -/
def store? : Provider → Option Store
  | .store s => some s
  | _ => none

theorem store?_eq_some {p : Provider} {s : Store} (h : p.store? = some s) : p = .store s := by
  cases p with
  | store s' => rw [Option.some.inj h]
  | shellLog => cases h
  | memory => cases h

end Provider

/-- What is no store stays none, and the world stays as it is. -/
theorem Act.run_of_store?_eq_none {p : Provider} (h : p.store? = none) (act : Act) (w : World) :
    (act.run p w).1.store? = none ∧ (act.run p w).2 = w := by
  -- A question may refresh the provider, which does not turn it into a store.
  have hquery {α : Type} (answer : Provider → Except Failure α) :
      (p.query w answer).2.store? = none := by
    unfold Provider.query Provider.refresh
    cases p with
    | store s => cases h
    | shellLog log =>
      simp only
      cases (log.refresh w).1 <;> rfl
    | memory log =>
      simp only
      cases log.trouble <;> rfl
  cases act with
  | query q => cases q <;> exact ⟨hquery _, rfl⟩
  | _ => cases p <;> first | exact ⟨rfl, rfl⟩ | cases h

namespace Archive

variable {a : Archive} {w : World}

/-- The program's own history. -/
def own (a : Archive) : Provider :=
  a.providerAt ownedName

/-- What can be asked of an archive. -/
inductive Call where
  | search (text : String) (limit : Option Int) (deduplicate : Option Bool)
  | getRecent (limit : Int)
  | stats
  | exportAs (format : String)
  | add (entry : Entry)
  | flush
  | clear
  | fireTimer
  | exit

/-- The archive and the world behind a call. -/
def Call.run (call : Call) (a : Archive) (w : World) : Archive × World :=
  match call with
  | .search text limit deduplicate => ((a.search w text limit deduplicate).2, w)
  | .getRecent limit => ((a.getRecent w limit).2, w)
  | .stats => ((a.stats w).2, w)
  | .exportAs format => ((a.exportAs w format).2, w)
  | .add entry => (a.add entry w).2
  | .flush => (a.flush w).2
  | .clear => (a.clear w).2
  | .fireTimer => (a.fireTimer w).2
  | .exit => (a.exit w).2

theorem lookup_map {α β : Type} (f : String → α → β) (l : List (String × α)) (name : String) :
    (l.map fun e => (e.1, f e.1 e.2)).lookup name = (l.lookup name).map (f name) := by
  induction l with
  | nil => rfl
  | cons e l ih =>
    rw [List.map_cons, List.lookup_cons, List.lookup_cons, ih]
    by_cases hname : name = e.1
    · simp [hname]
    · simp [beq_eq_false_iff_ne.mpr hname]

/-- Setting a provider sets it, if it is the program's own history, and else leaves that alone. -/
theorem own_setProvider (a : Archive) (name : String) (p : Provider) :
    (a.setProvider name p).own = if name = ownedName then p else a.own := by
  unfold setProvider
  by_cases hlisted : (a.providers.lookup name).isSome = true
  · obtain ⟨old, hold⟩ := Option.isSome_iff_exists.mp hlisted
    -- The replacement keeps the names, so looking one up commutes with it.
    have hmap : (a.providers.map fun e => if e.1 = name then (e.1, p) else (e.1, e.2))
        = a.providers.map fun e => (e.1, if e.1 = name then p else e.2) := by
      refine List.map_congr_left fun e _ => ?_
      split <;> rfl
    rw [if_pos hlisted, own, providerAt, provider?]
    simp only [hmap]
    rw [lookup_map (fun n old => if n = name then p else old)]
    by_cases hname : name = ownedName
    · subst hname
      simp [hold]
    · rw [if_neg hname, own, providerAt, provider?]
      simp [Ne.symm hname]
  · rw [if_neg hlisted]
    by_cases hname : name = ownedName
    · subst hname
      rw [Option.not_isSome_iff_eq_none] at hlisted
      simp [own, providerAt, provider?, hlisted]
    · rw [if_neg hname, if_neg hname]

/-- Asking all providers asks each of them, and leaves everything else as it is. -/
theorem askAll_snd {α : Type} (a : Archive) (question : Provider → Except Failure α × Provider) :
    (a.askAll question).2
      = { a with providers := a.providers.map fun e => (e.1, (question e.2).2) } := by
  have hanswers (l : List (String × Provider)) :
      (answers question l).2 = l.map fun e => (e.1, (question e.2).2) := by
    induction l with
    | nil => rfl
    | cons e l ih =>
      rw [answers, List.map_cons, ← ih]
      rcases question e.2 with ⟨failure | found, p⟩ <;> rfl
  rw [← hanswers]
  rfl

theorem own_askAll {α : Type} (a : Archive) (question : Provider → Except Failure α × Provider) :
    (a.askAll question).2.own = a.own ∨ (a.askAll question).2.own = (question a.own).2 := by
  rw [askAll_snd, own, own, providerAt, providerAt, provider?, provider?]
  simp only
  rw [lookup_map fun _ p => (question p).2]
  cases a.providers.lookup ownedName with
  | none => exact .inl rfl
  | some p => exact .inr rfl

theorem own_onOwned {α : Type} (a : Archive) (w : World) (op : Provider → World → Provider.Step α) :
    (a.onOwned w op).2.1.own = (op a.own w).2.1 := by
  show (a.setProvider ownedName _).own = _
  rw [own_setProvider, if_pos rfl]
  rfl

/-- For the program's own history a call is nothing, or an act. -/
theorem own_run (call : Call) (a : Archive) (w : World) :
    ((call.run a w).1.own = a.own ∧ (call.run a w).2 = w) ∨
      ∃ act : Act, act.run a.own w = ((call.run a w).1.own, (call.run a w).2) := by
  -- A question goes to one provider, or to all of them; either way the own one is asked once at
  -- most.
  have hask {α : Type} (name : String) (question : Provider → Except Failure α × Provider) :
      (a.ask name question).2.own = a.own ∨ (a.ask name question).2.own = (question a.own).2 := by
    show (a.setProvider name _).own = _ ∨ (a.setProvider name _).own = _
    rw [own_setProvider]
    split
    · rename_i hname
      rw [hname]
      exact .inr rfl
    · exact .inl rfl
  have asked (q : Query) {a' : Archive} (h : a'.own = a.own ∨ a'.own = q.ask a.own w) :
      (a'.own = a.own ∧ w = w) ∨ ∃ act : Act, act.run a.own w = (a'.own, w) := by
    rcases h with hsame | hasked
    · exact .inl ⟨hsame, rfl⟩
    · exact .inr ⟨.query q, Prod.ext hasked.symm rfl⟩
  -- The questions leave the world alone; the acts of the store are the ones that save.
  cases call with
  | search text limit deduplicate =>
    have hsearched : (a.search w text limit deduplicate).2.own = a.own ∨
        (a.search w text limit deduplicate).2.own = (a.own.search w text
          (some (limit.getD a.config.historyMaxResults))
          (some (deduplicate.getD a.config.historyDeduplicate))).2 := by
      unfold search
      simp only
      split
      · exact own_askAll a _
      · exact hask _ _
    exact asked (.search text _ _) hsearched
  | getRecent limit =>
    have hrecent : (a.getRecent w limit).2.own = a.own ∨
        ∃ count, (a.getRecent w limit).2.own = (a.own.getRecent w (some count)).2 := by
      unfold getRecent
      split
      · split
        · exact .inl rfl
        · split
          · exact .inl rfl
          · rename_i count _
            exact (own_askAll a _).imp_right fun h => ⟨count, h⟩
      · exact (hask _ _).imp_right fun h => ⟨limit, h⟩
    rcases hrecent with hsame | ⟨count, hasked⟩
    · exact .inl ⟨hsame, rfl⟩
    · exact asked (.getRecent (some count)) (.inr hasked)
  | stats => exact asked .stats (own_askAll a _)
  | exportAs format => exact asked (.exportAs format) (hask a.activeName fun p => p.exportAs w format)
  | add entry =>
    by_cases hblank : Text.isBlank entry.command = true
    · have hskip : (a.add entry w).2 = (a, w) := by
        rw [add, if_pos hblank]
      exact .inl ⟨congrArg (fun r => r.1.own) hskip, congrArg Prod.snd hskip⟩
    · refine .inr ⟨.add { entry with source := a.own.name }, ?_⟩
      show _ = ((a.add entry w).2.1.own, (a.add entry w).2.2)
      rw [add, if_neg hblank, own_onOwned]
      rfl
  | flush => exact .inr ⟨.flush, Prod.ext (own_onOwned a w _).symm rfl⟩
  | clear => exact .inr ⟨.clear, Prod.ext (own_onOwned a w _).symm rfl⟩
  | fireTimer => exact .inr ⟨.fireTimer, Prod.ext (own_onOwned a w _).symm rfl⟩
  | exit => exact .inr ⟨.exit, Prod.ext (own_onOwned a w _).symm rfl⟩

/-! ### Runs of an archive -/

/-- A run of an archive. Between the calls anything but the disk and the working directory may change:
the clock, the faults of the saves to come, the environment. -/
inductive Run (a₀ : Archive) (w₀ : World) : Archive → World → Prop
  | start : Run a₀ w₀ a₀ w₀
  | call {a : Archive} {w : World} (behind : Run a₀ w₀ a w) (call : Call) :
      Run a₀ w₀ (call.run a w).1 (call.run a w).2
  | others {a : Archive} {w w' : World} (behind : Run a₀ w₀ a w) (hdisk : w'.disk = w.disk)
      (hcwd : w'.cwd = w.cwd) : Run a₀ w₀ a w'

/-- What a call may do: for an archive with a store what an operation on the store may do, and nothing
to the disk for one without. -/
structure Call.Confined (call : Call) (a : Archive) (w : World) : Prop where
  store : ∀ s, a.own.store? = some s → ∃ s', (call.run a w).1.own.store? = some s' ∧
    s.Step w s' (call.run a w).2
  none : a.own.store? = none →
    (call.run a w).1.own.store? = none ∧ (call.run a w).2 = w

/-- Every call keeps to what it may do. -/
theorem confined_call (call : Call) (a : Archive) (w : World) : call.Confined a w := by
  -- Where the archive has a store, a call is nothing or an act of it.
  refine ⟨fun s hs => ?_, fun hnone => ?_⟩
  · rcases own_run call a w with ⟨hown, hworld⟩ | ⟨act, hact⟩
    · rw [hown, hworld]
      exact ⟨s, hs, .of_world rfl⟩
    · rw [Provider.store?_eq_some hs] at hact
      obtain ⟨s', hs'⟩ : ∃ s', (act.run (.store s) w).1 = .store s' := by
        rw [Act.run_eq, Act.settled]
        split <;> exact ⟨_, rfl⟩
      rw [hact] at hs'
      have hrun : act.run (.store s) w = (.store s', (call.run a w).2) := hact.trans (Prod.ext hs' rfl)
      refine ⟨s', ?_, Act.step_run hrun⟩
      rw [show (call.run a w).1.own = .store s' from hs']
      rfl
  · rcases own_run call a w with ⟨hown, hworld⟩ | ⟨act, hact⟩
    · rw [hown]
      exact ⟨hnone, hworld⟩
    · have hrun := Act.run_of_store?_eq_none hnone act w
      rw [hact] at hrun
      exact hrun

/-- What a run may do to an archive with a store. -/
theorem step_of_run {a₀ a : Archive} {w₀ w : World} {s₀ : Store} (hstart : a₀.own.store? = some s₀)
    (h : Run a₀ w₀ a w) : ∃ s, a.own.store? = some s ∧ s.path = s₀.path ∧ w.cwd = w₀.cwd ∧
      Disk.OnlyChanges (s₀.place w₀) (s₀.beside w₀) (s₀.above w₀) w₀.disk w.disk := by
  -- The place of the store stays put along the run, so the changes of two steps compose.
  induction h with
  | start => exact ⟨s₀, hstart, rfl, rfl, .refl _⟩
  | @call a w behind call ih =>
    obtain ⟨s, hs, hpath, hcwd, hchanges⟩ := ih
    obtain ⟨s', hs', hstep⟩ := (confined_call call a w).store s hs
    obtain ⟨hplace, hbeside, habove⟩ := Store.place_congr hpath hcwd
    refine ⟨s', hs', hstep.path.trans hpath, hstep.cwd.trans hcwd, hchanges.trans ?_⟩
    rw [← hplace, ← hbeside, ← habove]
    exact hstep.confined
  | others behind hdisk hcwd ih =>
    obtain ⟨s, hs, hpath, hcwd', hchanges⟩ := ih
    refine ⟨s, hs, hpath, hcwd.trans hcwd', ?_⟩
    rw [hdisk]
    exact hchanges

/-- What holds of an archive behind a run. -/
structure Keeps (a₀ : Archive) (w₀ : World) (a : Archive) (w : World) : Prop where
  /-- Only the file of the program's own history has changed and the new one beside it, and directories
  above them have been made. -/
  changes : ∀ s₀, a₀.own.store? = some s₀ → ∃ s, a.own.store? = some s ∧ s.path = s₀.path ∧
    Disk.OnlyChanges (s₀.place w₀) (s₀.beside w₀) (s₀.above w₀) w₀.disk w.disk
  /-- What is found under a path to another place is found there still, a shell's history too. -/
  finds : ∀ s₀, a₀.own.store? = some s₀ → ∀ path found,
    w₀.disk.find w₀.cwd path = .ok found →
    Disk.placeFrom w₀.cwd path ≠ s₀.place w₀ → Disk.placeFrom w₀.cwd path ≠ s₀.beside w₀ →
    w.disk.find w.cwd path = .ok found
  /-- An archive without a store changes nothing. -/
  unowned : a₀.own.store? = none → w.disk = w₀.disk
  /-- The next call leaves the file as it is or makes it hold all entries in memory. -/
  next : ∀ call : Call, call.Confined a w
  /-- A save that fails leaves the file and the mark of a change as they are, and of the entries the
  newest, as many as may be kept. -/
  failed : ∀ (s : Store) (w : World), 0 ≤ s.maxEntries → (s.save w).1 ≠ .ok true →
    s.SaveFailed w (s.save w).2.1 (s.save w).2.2
  /-- An entry that is added next is reported as added and is the newest in memory, also if the save
  that this calls for fails. -/
  reports : ∀ entry s, a.own.store? = some s → 0 ≤ s.maxEntries →
    Text.isBlank entry.command = false →
    let pending := (Act.add { entry with source := ownedName }).prepare s w
    pending.2 = true → (pending.1.save w).1 = .ok false →
    (a.add entry w).1 = .ok true ∧ ∃ s' time, (a.add entry w).2.1.own.store? = some s' ∧
      (∀ t, entry.timestamp = some t → time = t) ∧
      s'.entries.getLast? = some { entry with timestamp := some time, source := ownedName }

/-- **An archive replaces one file, as a whole or not at all, and touches no other.** -/
theorem keeps_of_run {a₀ a : Archive} {w₀ w : World} (h : Run a₀ w₀ a w) : Keeps a₀ w₀ a w where
  changes s₀ hstart := by
    obtain ⟨s, hs, hpath, -, hchanges⟩ := step_of_run hstart h
    exact ⟨s, hs, hpath, hchanges⟩
  finds s₀ hstart path found hfound hplace hbeside := by
    obtain ⟨s, -, -, hcwd, hchanges⟩ := step_of_run hstart h
    rw [hcwd]
    exact hchanges.find hplace hbeside hfound
  unowned hstart := by
    -- Without a store there is nothing that could write, whatever is asked.
    have hnone : a.own.store? = none ∧ w.disk = w₀.disk := by
      induction h with
      | start => exact ⟨hstart, rfl⟩
      | @call a w behind call ih =>
        obtain ⟨hnone, hworld⟩ := (confined_call call a w).none ih.1
        rw [hworld]
        exact ⟨hnone, ih.2⟩
      | others behind hdisk hcwd ih => exact ⟨ih.1, hdisk.trans ih.2⟩
    exact hnone.2
  next call := confined_call call a w
  failed s w := Store.save_failed
  reports entry s hs hmax hblank hsaves hfailed := by
    obtain ⟨hresult, time, htime, hlast⟩ := Act.add_reports hmax hsaves hfailed
    have hown := Provider.store?_eq_some hs
    have hadd : a.add entry w = a.onOwned w fun p w => p.add { entry with source := p.name } w := by
      rw [add, if_neg (by simp [hblank])]
    have hadded : (a.own.add { entry with source := a.own.name } w)
        = ((s.add { entry with source := ownedName } w).1,
          .store (s.add { entry with source := ownedName } w).2.1,
          (s.add { entry with source := ownedName } w).2.2) := by
      rw [hown]
      rfl
    refine ⟨?_, (s.add { entry with source := ownedName } w).2.1, time, ?_, htime, hlast⟩
    · rw [hadd]
      show (a.own.add { entry with source := a.own.name } w).1 = _
      rw [hadded]
      exact hresult
    · rw [hadd, own_onOwned]
      show (a.own.add { entry with source := a.own.name } w).2.1.store? = _
      rw [hadded]
      rfl

/-- A first command is recorded, and its save fails when the new file is to be moved. -/
theorem keeps_of_refused_save :
    let a := (create { historyMode := some "solo", historyFile := "/h/hist", saveDebounce := 0 } []
      none {}).1
    let w : World := { saveFaults := [some .renaming] }
    let recorded := Call.run (.add { command := "ls" }) a w
    Keeps a w recorded.1 recorded.2 :=
  keeps_of_run (Run.start.call _)

end Archive

end ShellAssist.History
