import ShellAssist.History.Provider
import ShellAssist.Proofs.History.Merge
import ShellAssist.Proofs.History.Saving
import Mathlib.Logic.Relation

namespace ShellAssist.History

/-!
# Runs of a store

A run is any sequence of what a program can ask of its own history, with whatever others do in
between. What an act does to a store is said once, and everything else is derived from that: it
changes the memory (`Act.prepare`), and in some cases it writes the file behind that.

* `Act.run_cases` — an act is its preparation, and then the save if one is to follow;
* `Act.prepare_cases` — what a preparation can do;
* `Run` — the runs, with the moments in which something was asked;
* `recorded` — the entries that a run records, as a fold over its moments.
-/

/-! ### Acts -/

/-- A question to a history. -/
inductive Query where
  | search (text : String) (limit : Option Int) (deduplicate : Option Bool)
  | getAll
  | getAllRaw
  | getRecent (limit : Option Int)
  | stats
  | exportAs (format : String)

/-- The history behind the answer to a question. -/
def Query.ask (q : Query) (p : Provider) (w : World) : Provider :=
  match q with
  | .search text limit deduplicate => (p.search w text limit deduplicate).2
  | .getAll => (p.getAll w).2
  | .getAllRaw => (p.getAllRaw w).2
  | .getRecent limit => (p.getRecent w limit).2
  | .stats => (p.stats w).2
  | .exportAs format => (p.exportAs w format).2

/-- What a program can ask of its own history. -/
inductive Act where
  | query (q : Query)
  | add (entry : Entry)
  | importFrom (source : Provider) (deduplicate : Bool) (maxImport : Option Int)
  | clear
  | flush
  | fireTimer
  | exit

namespace Act

variable {act : Act} {s s' : Store} {w w' : World}

/-- The history and the world behind an act. -/
def run (act : Act) (p : Provider) (w : World) : Provider × World :=
  match act with
  | .query q => (q.ask p w, w)
  | .add entry => (p.add entry w).2
  | .importFrom source deduplicate maxImport => (p.importFrom source deduplicate maxImport w).2
  | .clear => (p.clear w).2
  | .flush => (p.flush w).2
  | .fireTimer => (p.fireTimer w).2
  | .exit => (p.exit w).2

/-- The entries that an act puts behind those that are held: an added entry unless it is skipped,
and the chosen ones of an import, oldest first. -/
def additions (act : Act) (s : Store) (w : World) : List Entry :=
  match act with
  | .add entry =>
    let isRepeat := s.entries.getLast?.any fun last => last.command = entry.command
    let isCorrection := (Members.get? entry.metadata "is_correction").any Value.isTruthy
    if isRepeat || (!s.saveCorrections && isCorrection) then []
    else
      match entry.timestamp.elim w.millis .ok with
      | .error _ => []
      | .ok timestamp =>
        [{ entry with timestamp := some timestamp, source := Journal.sourceName }]
  | .importFrom source deduplicate maxImport =>
    match w.millis, (source.getAll w).1 with
    | .ok millis, .ok offered =>
      let chosen := Store.selection deduplicate (s.entries.map (·.command))
        (Provider.newest maxImport offered)
      (chosen.map (Store.imported millis)).reverse
    | _, _ => []
  | _ => []

/-- The store before an act may write its file, and whether it goes on to do so. -/
def prepare (act : Act) (s : Store) (w : World) : Store × Bool :=
  match act with
  | .query _ => ((s.refresh w).2, false)
  | .add _ =>
    match s.refresh w with
    | (.error _, s) => (s, false)
    | (.ok (), s) =>
      match act.additions s w with
      | [] => (s, false)
      | added =>
        let s := { s with entries := s.trim (s.entries ++ added), dirty := true }
        if s.saveDebounce ≤ 0 then (s, true)
        else
          let exitHook := if s.exitHook = .unset then .waiting else s.exitHook
          ({ s with timerSet := true, exitHook }, false)
  | .importFrom .. =>
    match s.refresh w with
    | (.error _, s) => (s, false)
    | (.ok (), s) =>
      match act.additions s w with
      | [] => (s, false)
      | added => ({ s with entries := s.entries ++ added, dirty := true, timerSet := false }, true)
  | .clear => ({ s with entries := [], timerSet := false, loaded := true }, true)
  | .flush => ({ s with timerSet := false }, s.dirty)
  | .fireTimer => if s.timerSet then ({ s with timerSet := false }, s.dirty) else (s, false)
  | .exit =>
    if s.exitHook = .waiting then ({ s with timerSet := false, exitHook := .spent }, s.dirty)
    else (s, false)

/-- A provider's state and world behind a step of a store. -/
def settled (prepared : Store × Bool) (w : World) : Provider × World :=
  if prepared.2 then
    let (_, s, w) := prepared.1.save w
    (.store s, w)
  else (.store prepared.1, w)

/-- A question does no more to a store than refreshing it. -/
theorem ask_store (q : Query) (s : Store) (w : World) :
    q.ask (.store s) w = .store (s.refresh w).2 := by
  have hquery {α : Type} (answer : Provider → Except Failure α) :
      ((Provider.store s).query w answer).2 = .store (s.refresh w).2 := by
    unfold Provider.query Provider.refresh
    simp only
    cases (s.refresh w).1 <;> rfl
  cases q <;> exact hquery _

/-- A flush stops the timer and saves if there are changes. -/
theorem run_flush (s : Store) (w : World) :
    ((Provider.store s).flush w).2 = settled ({ s with timerSet := false }, s.dirty) w := by
  unfold Provider.flush Provider.onStore Store.flush settled
  simp only
  split <;> rfl

/-- **An act is its preparation, and then the save if one is to follow.** -/
theorem run_eq (act : Act) (s : Store) (w : World) :
    act.run (.store s) w = settled (act.prepare s w) w := by
  cases act with
  | query q => exact Prod.ext (ask_store q s w) rfl
  | add entry =>
    simp only [run, Provider.add, Provider.onStore, Store.add, prepare]
    rcases s.refresh w with ⟨_ | _, s⟩
    · rfl
    · simp only [additions]
      split
      · rfl
      · cases entry.timestamp.elim w.millis Except.ok with
        | error failure => rfl
        | ok timestamp =>
          simp only [Store.schedule]
          split <;> rfl
  | importFrom source deduplicate maxImport =>
    simp only [run, Provider.importFrom, Provider.onStore, prepare]
    rcases s.refresh w with ⟨_ | _, s⟩
    · rfl
    · simp only [additions]
      cases w.millis with
      | error failure => rfl
      | ok millis =>
        cases (source.getAll w).1 with
        | error failure => rfl
        | ok offered =>
          simp only [Store.importEntries]
          -- `importEntries` asks whether anything is chosen, `prepare` whether anything is added.
          generalize Store.selection deduplicate _ _ = chosen
          cases chosen with
          | nil => rfl
          | cons first chosen =>
            obtain ⟨last, added, hadded⟩ := List.exists_cons_of_ne_nil
              (show ((first :: chosen).map (Store.imported millis)).reverse ≠ [] by simp)
            simp only [hadded, List.isEmpty_cons, Bool.false_eq_true, if_false]
            rfl
  | clear => rfl
  | flush => exact run_flush s w
  | fireTimer =>
    simp only [run, Provider.fireTimer, Provider.onStore, Store.fireTimer, prepare]
    split
    · exact run_flush s w
    · rfl
  | exit =>
    simp only [run, Provider.exit, Provider.onStore, Store.exit, prepare]
    split
    · exact run_flush { s with exitHook := .spent } w
    · rfl

/-- An act either leaves the file alone or ends in a save. -/
theorem run_cases (h : act.run (.store s) w = (.store s', w')) :
    ((act.prepare s w).2 = false ∧ s' = (act.prepare s w).1 ∧ w' = w) ∨
      ((act.prepare s w).2 = true ∧
        ∃ result, (act.prepare s w).1.save w = (result, s', w')) := by
  rw [run_eq, settled] at h
  split at h
  · rename_i hsaves
    rcases hsave : (act.prepare s w).1.save w with ⟨result, s₁, w₁⟩
    rw [hsave] at h
    obtain ⟨hstore, hworld⟩ := Prod.mk.inj h
    obtain rfl : w₁ = w' := hworld
    obtain rfl : s₁ = s' := Provider.store.inj hstore
    exact .inr ⟨hsaves, result, rfl⟩
  · rename_i hsaves
    obtain ⟨hstore, hworld⟩ := Prod.mk.inj h
    exact .inl ⟨by simpa using hsaves, (Provider.store.inj hstore).symm, hworld.symm⟩

end Act

/-! ### What a preparation can do -/

namespace Store

variable {s : Store} {w : World}

/-- A store that is loaded is not refreshed. -/
theorem refresh_of_loaded (h : s.loaded = true) : s.refresh w = (.ok (), s) := by
  rw [refresh, if_pos h]

/-- One that is not takes what is read. -/
theorem refresh_of_unloaded (h : s.loaded = false) : s.refresh w = match s.reading w with
    | .error failure => (.error failure, s)
    | .ok entries => (.ok (), { s with entries, loaded := true }) := by
  rw [refresh, if_neg (by simp [h])]
  exact load_eq s w

/-- Refreshing can change the entries and nothing else. -/
theorem refresh_eq (s : Store) (w : World) :
    (s.refresh w).2
      = { s with entries := (s.refresh w).2.entries, loaded := (s.refresh w).2.loaded } := by
  cases hloaded : s.loaded with
  | true => rw [refresh_of_loaded hloaded]
  | false =>
    rw [refresh_of_unloaded hloaded]
    cases s.reading w <;> rfl

/-- Refreshing keeps the configuration. -/
theorem refresh_config (s : Store) (w : World) : s.SameConfig (s.refresh w).2 := by
  rw [refresh_eq]
  exact ⟨rfl, rfl, rfl, rfl⟩

/-- A refreshed store has its entries, or the file could not be parsed and nothing has changed. -/
theorem refresh_loaded (s : Store) (w : World) :
    ((s.refresh w).1 = .ok () ∧ (s.refresh w).2.loaded = true) ∨
      ((s.refresh w).1 ≠ .ok () ∧ s.loaded = false ∧ (s.refresh w).2 = s) := by
  cases hloaded : s.loaded with
  | true =>
    rw [refresh_of_loaded hloaded]
    exact .inl ⟨rfl, hloaded⟩
  | false =>
    rw [refresh_of_unloaded hloaded]
    cases s.reading w with
    | error failure => exact .inr ⟨by simp, rfl, rfl⟩
    | ok entries => exact .inl ⟨rfl, rfl⟩

end Store

namespace Act

variable {act : Act} {s : Store} {w : World}

/-- Whether an act deletes all entries. -/
def isClear : Act → Bool
  | .clear => true
  | _ => false

/-- Whether an act ends the program. -/
def isExit : Act → Bool
  | .exit => true
  | _ => false

/-- Whether an act writes what is pending. -/
def isFinal : Act → Bool
  | .flush | .fireTimer | .exit => true
  | _ => false

/-- What the preparation of an act can do to a store. -/
inductive Prepares (act : Act) (s : Store) (w : World) : Store × Bool → Prop
  /-- The entries stay, and pending changes are written. -/
  | flushed {timerSet : Bool} {exitHook : ExitHook} (hact : act.isClear = false)
      (hadditions : ∀ s, act.additions s w = [])
      (hhook : exitHook = s.exitHook ∨ act.isExit = true) :
      Prepares act s w ({ s with timerSet, exitHook }, s.dirty)
  /-- There is no timer to fire, or nothing to be done when the program ends. -/
  | idle (hact : act.isClear = false) (hadditions : ∀ s, act.additions s w = [])
      (hidle : s.timerSet = false ∨ s.exitHook ≠ .waiting) :
      Prepares act s w (s, false)
  /-- The store is refreshed, and there is nothing to add. -/
  | refreshed (hact : act.isClear = false) (hfinal : act.isFinal = false)
      (hadditions : (s.refresh w).1 = .ok () → act.additions (s.refresh w).2 w = []) :
      Prepares act s w ((s.refresh w).2, false)
  /-- The store is refreshed, and entries are added. They are written at once, or when the timer
  fires or the program ends. -/
  | extended {r : Store} {entries : List Entry} {timerSet saves : Bool} {exitHook : ExitHook}
      (hact : act.isClear = false) (hfinal : act.isFinal = false)
      (hrefresh : s.refresh w = (.ok (), r))
      (hentries : entries = r.trim (r.entries ++ act.additions r w) ∨
        (saves = true ∧ entries = r.entries ++ act.additions r w))
      (htimer : (saves = true ∧ exitHook = r.exitHook) ∨
        (timerSet = true ∧ exitHook = if r.exitHook = .unset then .waiting else r.exitHook)) :
      Prepares act s w ({ r with entries, dirty := true, timerSet, exitHook }, saves)
  /-- All entries are deleted. -/
  | cleared (hact : act.isClear = true) :
      Prepares act s w ({ s with entries := [], timerSet := false, loaded := true }, true)

/-- A preparation does one of these. -/
theorem prepare_cases (act : Act) (s : Store) (w : World) :
    Prepares act s w (act.prepare s w) := by
  -- Adding and importing end here if the store cannot be refreshed or nothing is to be added.
  have hrefreshed (hact : act.isClear = false) (hfinal : act.isFinal = false)
      (hadditions : (s.refresh w).1 = .ok () → act.additions (s.refresh w).2 w = []) :=
    Prepares.refreshed hact hfinal hadditions
  cases act with
  | query q => exact .refreshed rfl rfl fun _ => rfl
  | add entry =>
    simp only [prepare]
    rcases hrefresh : s.refresh w with ⟨failure | ⟨⟩, r⟩
    · rw [hrefresh] at hrefreshed
      exact hrefreshed rfl rfl nofun
    · rw [hrefresh] at hrefreshed
      simp only
      split
      · rename_i hnone
        exact hrefreshed rfl rfl fun _ => hnone
      · split
        · exact .extended rfl rfl hrefresh (.inl rfl) (.inl ⟨rfl, rfl⟩)
        · exact .extended rfl rfl hrefresh (.inl rfl) (.inr ⟨rfl, rfl⟩)
  | importFrom source deduplicate maxImport =>
    simp only [prepare]
    rcases hrefresh : s.refresh w with ⟨failure | ⟨⟩, r⟩
    · rw [hrefresh] at hrefreshed
      exact hrefreshed rfl rfl nofun
    · rw [hrefresh] at hrefreshed
      simp only
      split
      · rename_i hnone
        exact hrefreshed rfl rfl fun _ => hnone
      · exact .extended rfl rfl hrefresh (.inr ⟨rfl, rfl⟩) (.inl ⟨rfl, rfl⟩)
  | clear => exact .cleared rfl
  | flush => exact .flushed rfl (fun _ => rfl) (.inl rfl)
  | fireTimer =>
    simp only [prepare]
    split
    · exact .flushed rfl (fun _ => rfl) (.inl rfl)
    · rename_i htimer
      exact .idle rfl (fun _ => rfl) (.inl (by simpa using htimer))
  | exit =>
    simp only [prepare]
    split
    · exact .flushed rfl (fun _ => rfl) (.inr rfl)
    · rename_i hhook
      exact .idle rfl (fun _ => rfl) (.inr hhook)

/-- None of them touches the configuration. -/
theorem Prepares.config {prepared : Store × Bool} (h : Prepares act s w prepared) :
    s.SameConfig prepared.1 := by
  cases h with
  | flushed => exact ⟨rfl, rfl, rfl, rfl⟩
  | idle => exact .refl s
  | refreshed => exact s.refresh_config w
  | extended _ _ hrefresh =>
    have hconfig := s.refresh_config w
    rw [hrefresh] at hconfig
    exact hconfig.trans ⟨rfl, rfl, rfl, rfl⟩
  | cleared => exact ⟨rfl, rfl, rfl, rfl⟩

/-! ### What is added -/

/-- The entries that an act is given are such as programs make them. -/
def Valid (act : Act) (w : World) : Prop :=
  match act with
  | .add entry => entry.Valid
  | .importFrom source _ _ => ∀ offered, (source.getAll w).1 = .ok offered → ∀ e ∈ offered, e.Valid
  | _ => True

/-- What is added depends on the entries held and on what is configured. -/
theorem additions_congr {s' : Store} (h : s.SameConfig s') (hentries : s'.entries = s.entries)
    (act : Act) (w : World) : act.additions s' w = act.additions s w := by
  cases act <;> simp only [additions, hentries, h.saveCorrections]

/-- A copy of an entry is one of the own history. -/
theorem imported_owned {e : Entry} (h : e.Valid) (millis : Int) :
    (Store.imported millis e).Owned where
  command := h.command
  source := rfl

/-- What an import chooses stands in the order in which it is offered. -/
theorem selection_sublist (deduplicate : Bool) (existing : List String) (offered : List Entry) :
    (Store.selection deduplicate existing offered).Sublist offered := by
  cases deduplicate with
  | true => exact dedupeFrom_sublist existing offered
  | false => exact .refl offered

/-- What an import chooses was offered. -/
theorem mem_of_mem_selection {e : Entry} {deduplicate : Bool} {existing : List String}
    {maxImport : Option Int} {offered : List Entry}
    (h : e ∈ Store.selection deduplicate existing (Provider.newest maxImport offered)) :
    e ∈ offered := by
  have hnewest := (selection_sublist deduplicate existing _).subset h
  cases maxImport with
  | none => exact hnewest
  | some n => exact List.mem_of_mem_take hnewest

/-- Whatever is added is an entry of the program's own history. -/
theorem additions_owned (h : act.Valid w) (s : Store) : ∀ e ∈ act.additions s w, e.Owned := by
  intro e he
  -- Only a command that is added and a batch that is imported bring entries in.
  cases act with
  | add entry =>
    simp only [additions] at he
    split at he
    · cases he
    · split at he
      · cases he
      · obtain rfl := List.mem_singleton.mp he
        exact ⟨⟨h.command⟩, rfl⟩
  | importFrom source deduplicate maxImport =>
    simp only [additions] at he
    split at he
    · rename_i millis offered _ hoffered
      rw [List.mem_reverse, List.mem_map] at he
      obtain ⟨given, hgiven, rfl⟩ := he
      exact imported_owned (h offered hoffered given (mem_of_mem_selection hgiven)) millis
    · cases he
  | _ => cases he

/-- The entries of the program's own history stay such. -/
theorem prepare_owned (h : act.Valid w) (hs : ∀ e ∈ s.entries, e.Owned) :
    ∀ e ∈ (act.prepare s w).1.entries, e.Owned := by
  have hrefresh : ∀ e ∈ (s.refresh w).2.entries, e.Owned := by
    cases hloaded : s.loaded with
    | true =>
      rw [Store.refresh_of_loaded hloaded]
      exact hs
    | false =>
      rw [Store.refresh_of_unloaded hloaded]
      cases hreading : s.reading w with
      | error failure => exact hs
      | ok entries => exact fun e he => (Store.reading_owned hreading e he).1
  have hprepares := prepare_cases act s w
  generalize act.prepare s w = prepared at hprepares
  cases hprepares with
  | flushed => exact hs
  | idle => exact hs
  | refreshed => exact hrefresh
  | @extended r entries _ _ _ _ _ hrefreshed hentries =>
    rw [hrefreshed] at hrefresh
    intro e he
    -- Trimmed or not, it is one of the old entries or of the added ones.
    have hmem : e ∈ r.entries ++ act.additions r w := by
      rcases hentries with rfl | ⟨-, rfl⟩
      · exact Store.mem_of_mem_trim he
      · exact he
    rcases List.mem_append.mp hmem with he | he
    · exact hrefresh e he
    · exact additions_owned h _ e he
  | cleared => exact fun e he => nomatch he

end Act

/-! ### Runs -/

/-- What was asked, and of which store in which world. -/
structure Moment where
  act : Act
  store : Store
  world : World

namespace Moment

/-- The file was written. -/
def Writes (m : Moment) : Prop :=
  (m.act.prepare m.store m.world).2 = true ∧
    ((m.act.prepare m.store m.world).1.save m.world).1 = .ok true

/-- The file was to be written, and that failed. -/
def FailsToWrite (m : Moment) : Prop :=
  (m.act.prepare m.store m.world).2 = true ∧
    ((m.act.prepare m.store m.world).1.save m.world).1 ≠ .ok true

/-- Where a write does not fail, a save that is due works. -/
theorem save_ok {m : Moment} (h : ¬ m.FailsToWrite)
    (hsaves : (m.act.prepare m.store m.world).2 = true) :
    ((m.act.prepare m.store m.world).1.save m.world).1 = .ok true := by
  by_contra hfailed
  exact h ⟨hsaves, hfailed⟩

end Moment

/-- A run from a store and a world: the moments so far, latest first, and the store and the world
behind them. Others may do to the world what `between` allows. -/
inductive Run (between : World → World → Prop) (s₀ : Store) (w₀ : World) :
    List Moment → Store → World → Prop
  | start : Run between s₀ w₀ [] s₀ w₀
  | act {past : List Moment} {s s' : Store} {w w' : World} (act : Act)
      (h : Run between s₀ w₀ past s w) (hrun : act.run (.store s) w = (.store s', w')) :
      Run between s₀ w₀ (⟨act, s, w⟩ :: past) s' w'
  | others {past : List Moment} {s : Store} {w w' : World} (h : Run between s₀ w₀ past s w)
      (hbetween : between w w') : Run between s₀ w₀ past s w'

/-- What was asked last, and what others have done since. -/
theorem Run.cons_cases {between : World → World → Prop} {s₀ s : Store} {w₀ w : World} {m : Moment}
    {past : List Moment} (h : Run between s₀ w₀ (m :: past) s w) :
    Run between s₀ w₀ past m.store m.world ∧
      ∃ w', m.act.run (.store m.store) m.world = (.store s, w') ∧
        Relation.ReflTransGen between w' w := by
  generalize hmoments : m :: past = moments at h
  induction h with
  | start => cases hmoments
  | act act h hrun =>
    cases hmoments
    exact ⟨h, _, hrun, .refl⟩
  | others h hbetween ih =>
    obtain ⟨hpast, w', hrun, hothers⟩ := ih hmoments
    exact ⟨hpast, w', hrun, hothers.tail hbetween⟩

/-- A store in which nothing has been read, added or scheduled. -/
structure Store.Fresh (s : Store) : Prop where
  entries : s.entries = []
  loaded : s.loaded = false
  dirty : s.dirty = false
  timerSet : s.timerSet = false
  exitHook : s.exitHook = .unset

/-- Others leave what is read from the file as it is. -/
def Store.Untouched (s : Store) (w w' : World) : Prop :=
  w'.disk.readText w'.cwd s.path.toString = w.disk.readText w.cwd s.path.toString

/-- So the file reads as before. -/
theorem Store.Untouched.reading {s : Store} {w w' : World} (h : s.Untouched w w') :
    s.reading w' = s.reading w := by
  rw [Store.reading, Store.reading, h]

/-- Others that leave the file as it is, however often they come, do so. -/
theorem Store.Untouched.many {s : Store} {w w' : World}
    (h : Relation.ReflTransGen s.Untouched w w') : s.reading w' = s.reading w := by
  induction h with
  | refl => rfl
  | tail _ hstep ih => exact hstep.reading.trans ih

/-- The entries that a run records over those that the file held: every act puts its additions
behind them, as many as are kept stay, and clearing deletes them. -/
def recorded (s₀ : Store) (held : List Entry) : List Moment → List Entry
  | [] => held
  | m :: past =>
    if m.act.isClear then []
    else
      let entries := recorded s₀ held past
      s₀.trim (entries ++ m.act.additions { s₀ with entries } m.world)

section Recorded

variable {s₀ : Store} {held : List Entry} {m : Moment} {past : List Moment}

/-- Clearing leaves nothing recorded. -/
theorem recorded_of_clear (hact : m.act.isClear = true) : recorded s₀ held (m :: past) = [] := by
  rw [recorded, if_pos hact]

/-- Any other act puts what it adds behind what was recorded. -/
theorem recorded_of_adding (hact : m.act.isClear = false) :
    recorded s₀ held (m :: past) = s₀.trim (recorded s₀ held past
      ++ m.act.additions { s₀ with entries := recorded s₀ held past } m.world) := by
  rw [recorded, if_neg (by simp [hact])]

/-- An act that adds nothing leaves the recorded entries as they are. -/
theorem recorded_of_idle (hact : m.act.isClear = false)
    (hadditions : m.act.additions { s₀ with entries := recorded s₀ held past } m.world = [])
    (htrimmed : s₀.trim (recorded s₀ held past) = recorded s₀ held past) :
    recorded s₀ held (m :: past) = recorded s₀ held past := by
  rw [recorded_of_adding hact, hadditions, List.append_nil, htrimmed]

/-- Whatever is recorded is an entry of the own history. -/
theorem recorded_owned (hheld : ∀ e ∈ held, e.Owned) (hvalid : ∀ m ∈ past, m.act.Valid m.world) :
    ∀ e ∈ recorded s₀ held past, e.Owned := by
  induction past with
  | nil => exact hheld
  | cons m past ih =>
    intro e he
    rw [recorded] at he
    split at he
    · cases he
    · rcases List.mem_append.mp (Store.mem_of_mem_trim he) with he | he
      · exact ih (fun m hm => hvalid m (List.mem_cons_of_mem _ hm)) e he
      · exact Act.additions_owned (hvalid m List.mem_cons_self) _ e he

/-- And it is no more than is kept. -/
theorem recorded_trimmed (hmax : 0 ≤ s₀.maxEntries) (hheld : s₀.trim held = held) :
    s₀.trim (recorded s₀ held past) = recorded s₀ held past := by
  cases past with
  | nil => exact hheld
  | cons m past =>
    rw [recorded]
    split
    · exact Store.trim_nil s₀
    · exact Store.trim_trim hmax _

end Recorded

/-! ### An example -/

/-- An entry as the program's own history holds it. -/
def Entry.sample (command : String) (timestamp : Int) (metadata : List (Key × Value)) : Entry :=
  { command, timestamp := some timestamp, source := "owned", metadata }

/-- A fresh store without a limit, whose file stands right below the root. -/
def Store.sample : Store where
  path := ⟨"/", ["hist"]⟩
  maxEntries := 0

/-- The same store with a first entry that the timer will write. -/
def Store.sampleWith (e : Entry) : Store :=
  { sample with
    entries := [e], loaded := true, dirty := true, timerSet := true, exitHook := .waiting }

/-- An entry is added where nothing can be read, and the timer fires. -/
def sampleMoments (e : Entry) (w : World) : List Moment :=
  [⟨.fireTimer, Store.sampleWith e, w⟩, ⟨.add e, .sample, w⟩]

section Example

variable (command : String) (timestamp : Int) (metadata : List (Key × Value)) {w : World}

/-- The entry is added, and the timer is set. -/
theorem sample_prepare (hread : Store.sample.reading w = .ok []) :
    Act.prepare (.add (.sample command timestamp metadata)) .sample w
      = (Store.sampleWith (.sample command timestamp metadata), false) := by
  have hrefresh : Store.sample.refresh w = (.ok (), { Store.sample with loaded := true }) := by
    rw [Store.refresh_of_unloaded rfl, hread]
    rfl
  simp only [Act.prepare, hrefresh]
  rfl

/-- Both acts make a run. -/
theorem sample_run (between : World → World → Prop) (hread : Store.sample.reading w = .ok []) :
    Run between .sample w (sampleMoments (.sample command timestamp metadata) w)
      ((Store.sampleWith (.sample command timestamp metadata)).fireTimer w).2.1
      ((Store.sampleWith (.sample command timestamp metadata)).fireTimer w).2.2 := by
  have hadded : (Act.add (.sample command timestamp metadata)).run (.store .sample) w
      = (.store (.sampleWith (.sample command timestamp metadata)), w) := by
    rw [Act.run_eq, sample_prepare _ _ _ hread]
    rfl
  have hfired (s : Store) : Act.fireTimer.run (.store s) w
      = (.store (s.fireTimer w).2.1, (s.fireTimer w).2.2) := rfl
  exact .act .fireTimer (.act _ .start hadded) (hfired _)

/-- It is given valid entries. -/
theorem sample_valid (h : (Entry.sample command timestamp metadata).Valid) :
    ∀ m ∈ sampleMoments (.sample command timestamp metadata) w, m.act.Valid m.world := by
  intro m hm
  rcases List.mem_cons.mp hm with rfl | hm
  · trivial
  · obtain rfl := List.mem_singleton.mp hm
    exact h

/-- Only the timer writes the file. -/
theorem sample_writes (hread : Store.sample.reading w = .ok []) {m : Moment}
    (hm : m ∈ sampleMoments (.sample command timestamp metadata) w)
    (hsaves : (m.act.prepare m.store m.world).2 = true) :
    m.act.prepare m.store m.world
        = ({ Store.sampleWith (.sample command timestamp metadata) with timerSet := false }, true) ∧
      m.world = w := by
  rcases List.mem_cons.mp hm with rfl | hm
  · exact ⟨rfl, rfl⟩
  · obtain rfl := List.mem_singleton.mp hm
    rw [sample_prepare _ _ _ hread] at hsaves
    cases hsaves

/-- No write of it fails if the timer can write the file. -/
theorem sample_succeeds (hread : Store.sample.reading w = .ok [])
    (hsaved : ({ Store.sampleWith (.sample command timestamp metadata) with
      timerSet := false }.save w).1 = .ok true) :
    ∀ m ∈ sampleMoments (.sample command timestamp metadata) w, ¬ m.FailsToWrite := by
  rintro m hm ⟨hsaves, hfails⟩
  obtain ⟨hprepare, hworld⟩ := sample_writes command timestamp metadata hread hm hsaves
  rw [hprepare, hworld] at hfails
  exact hfails hsaved

/-- At its end the store holds the entry. -/
theorem sample_entries (e : Entry) (w : World) :
    ((Store.sampleWith e).fireTimer w).2.1.entries = [e] := by
  have hfired : ((Store.sampleWith e).fireTimer w).2.1
      = ({ Store.sampleWith e with timerSet := false }.save w).2.1 := rfl
  have heffect := Store.save_cases { Store.sampleWith e with timerSet := false } w
  rw [hfired]
  generalize { Store.sampleWith e with timerSet := false }.save w = saved at heffect
  cases heffect <;> rfl

end Example

end ShellAssist.History
