import ShellAssist.Proofs.History.Refusals
import ShellAssist.Proofs.History.Runs
import ShellAssist.Proofs.History.ZshRecords

namespace ShellAssist.History

/-!
# Shell logs as mirrors of their files

A shell's log keeps what it has read of a file until it sees another stamp. Between questions others
may do anything to the files; it is assumed only that no two versions that the log has looked at have
the same stamp. Then a log answers like a new one, but where a look at the file has failed: that is not
tried again, and the entries of an earlier version stand in for what is there.

* `LogRun` — the runs of a log, with the worlds in which it was asked;
* `Mirrors` — what a run preserves;
* `reply_eq_new_iff` — a log answers like a new one just if it is not outdated, and what it holds is
  from one version of a file.
-/

/-! ### Questions and answers -/

/-- The answer to a question. -/
inductive Reply where
  | entries (entries : List Entry)
  | stats (stats : Stats)
  | text (text : String)

namespace Query

/-- What a history answers to a question. -/
def reply (q : Query) (p : Provider) (w : World) : Except Failure Reply :=
  match q with
  | .search text limit deduplicate => (p.search w text limit deduplicate).1.map .entries
  | .getAll => (p.getAll w).1.map .entries
  | .getAllRaw => (p.getAllRaw w).1.map .entries
  | .getRecent limit => (p.getRecent w limit).1.map .entries
  | .stats => (p.stats w).1.map .stats
  | .exportAs format => (p.exportAs w format).1.map .text

/-- Histories that are the same once they are brought up to date answer the same. -/
theorem reply_congr (q : Query) {p p' : Provider} {w : World}
    (hresult : (p.refresh w).1 = (p'.refresh w).1)
    (hsame : (p.refresh w).1 = .ok () → (p.refresh w).2 = (p'.refresh w).2) :
    q.reply p w = q.reply p' w := by
  have hquery {α : Type} (answer : Provider → Except Failure α) :
      (p.query w answer).1 = (p'.query w answer).1 := by
    rw [Provider.query, Provider.query]
    rcases hrefresh : p.refresh w with ⟨result, refreshed⟩
    rcases hrefresh' : p'.refresh w with ⟨result', refreshed'⟩
    rw [hrefresh, hrefresh'] at hresult hsame
    cases hresult
    cases result with
    | error failure => rfl
    | ok _ => exact congrArg answer (hsame rfl)
  cases q <;> exact congrArg (Except.map _) (hquery _)

/-- A question leaves the history as refreshing does. -/
theorem ask_eq (q : Query) (p : Provider) (w : World) : q.ask p w = (p.refresh w).2 := by
  have hquery {α : Type} (answer : Provider → Except Failure α) :
      (p.query w answer).2 = (p.refresh w).2 := by
    rw [Provider.query]
    rcases p.refresh w with ⟨_ | _, p⟩ <;> rfl
  cases q <;> exact hquery _

end Query

/-- Refreshing the provider is refreshing its log. -/
theorem refresh_shellLog (log : ShellLog) (w : World) :
    ((Provider.shellLog log).refresh w).2 = .shellLog (log.refresh w).2 := rfl

/-! ### Versions of a file -/

/-- The entries of what stands at a path: none, unless it is a file that may be read. -/
def Dialect.readNode (d : Dialect) : Node → Except Failure (List Entry)
  | .file content _ false => d.parseBytes content
  | _ => .ok []

namespace ShellLog

variable {log : ShellLog} {w : World}

/-- What stands where a log looks for its file, with its stamp. -/
def version (log : ShellLog) (w : World) : Except AccessError Stamped :=
  w.disk.find w.cwd (log.path w).toString

/-- The entries that a log reads. -/
def reading (log : ShellLog) (w : World) : Except Failure (List Entry) :=
  if log.isDenied w then .error (.system "denied")
  else match log.version w with
    | .ok found => log.dialect.readNode found.node
    | .error .refused => .ok []
    | .error .nul => .error .embeddedNul

/-- The newest entry of each command, oldest first. -/
def newestOfEach (entries : List Entry) : List Entry :=
  (dedupe entries.reverse).reverse

/-- Loading takes what is read, and changes nothing if that fails. -/
theorem load_eq (log : ShellLog) (w : World) : log.load w = match log.reading w with
    | .error failure => (.error failure, log)
    | .ok entries =>
      (.ok (), { log with entries, unique := newestOfEach entries, loaded := true }) := by
  rw [load, reading, version, Disk.read]
  cases log.isDenied w with
  | true => rfl
  | false =>
    rw [if_neg Bool.false_ne_true, if_neg Bool.false_ne_true]
    -- What is found decides: only a file that may be read has a content.
    cases w.disk.find w.cwd (log.path w).toString with
    | error e => cases e <;> rfl
    | ok found =>
      obtain ⟨node, stamp⟩ := found
      cases node with
      | file content executable unreadable => cases unreadable <;> rfl
      | directory unreadable => rfl
      | loop => rfl
      | closed => rfl

/-- A log whose file has not changed is left as it is. -/
theorem refresh_of_seen (hloaded : log.loaded = true)
    (hseen : log.currentStamp w = .ok log.stamp) :
    log.refresh w = (.ok (), log) := by
  rw [refresh, hseen, hloaded]
  simp

/-- Another version than the last one is read. -/
theorem refresh_of_unseen {stamp : Option Nat}
    (hstamp : log.currentStamp w = .ok stamp)
    (hunseen : ¬ (log.loaded = true ∧ stamp = log.stamp)) :
    log.refresh w = match log.reading w with
      | .error failure => (.error failure, { log with stamp })
      | .ok entries =>
        (.ok (), { log with entries, unique := newestOfEach entries, stamp, loaded := true }) := by
  have hload := load_eq { log with stamp } w
  rw [refresh, hstamp]
  dsimp only
  rw [if_neg (by simpa using hunseen), hload]
  rfl

/-- Where nothing is there is nothing to read, if it may be looked for. -/
theorem reading_of_missing (h : log.currentStamp w = .ok none) (hread : ¬ Fails (log.reading w)) :
    log.reading w = .ok [] := by
  rw [reading] at hread ⊢
  rw [currentStamp] at h
  split at h
  · rename_i hdenied
    rw [if_pos hdenied] at hread
    exact absurd (fails_error _) hread
  · rename_i hallowed
    -- A file that shows no time is not there, and then the log is empty.
    have hmissing : log.version w = .error .refused := by
      rw [version]
      cases hfind : w.disk.find w.cwd (log.path w).toString with
      | ok found => simp [Disk.stamp?, hfind] at h
      | error e =>
        cases e with
        | refused => rfl
        | nul => simp [Disk.stamp?, hfind] at h
    rw [if_neg hallowed, hmissing]

/-- Where there is a stamp, the file may be looked for, and the version that is there has it. -/
theorem version_of_stamp {stamp : Nat} (h : log.currentStamp w = .ok (some stamp)) :
    log.isDenied w = false ∧ ∃ found, log.version w = .ok found ∧ found.stamp = stamp := by
  rw [currentStamp] at h
  split at h
  · cases h
  · rename_i hallowed
    refine ⟨Bool.eq_false_iff.mpr hallowed, ?_⟩
    rw [version]
    cases hfind : w.disk.find w.cwd (log.path w).toString with
    | ok found =>
      simp only [Disk.stamp?, hfind, Except.ok.injEq, Option.some.injEq] at h
      exact ⟨found, rfl, h⟩
    | error e => cases e <;> simp [Disk.stamp?, hfind] at h

/-- A log that sees the stamp that it saw when a look at the file failed: what was read before that
stands in for what is there. Only the zsh log can fail to read a file; without a stamp, the file was
missing or could not be looked for, and may have been either since. -/
structure Outdated (log : ShellLog) (w : World) : Prop where
  loaded : log.loaded = true
  seen : log.currentStamp w = .ok log.stamp
  failed : (log.dialect = .zsh ∧ ∃ content, w.disk.read w.cwd (log.path w).toString = .ok content ∧
      ∃ line ∈ Chars.lines (Text.decodeLossy (Zsh.unmetafy content)), Zsh.Breaks line) ∨
    log.isDenied w = true ∨ log.stamp = none ∧ log.entries ≠ []

/-- When a log has nothing to read. -/
theorem fails_reading_iff : Fails (log.reading w) ↔
    log.isDenied w = true ∨ '\x00' ∈ (log.path w).toString.toList ∨
      log.dialect = .zsh ∧ ∃ content, w.disk.read w.cwd (log.path w).toString = .ok content ∧
        ∃ line ∈ Chars.lines (Text.decodeLossy (Zsh.unmetafy content)), Zsh.Breaks line := by
  have hload : Fails (log.reading w) ↔ Fails (log.load w).1 := by
    rw [load_eq]
    cases log.reading w <;> simp
  rw [hload, fails_load_iff]
  simp only [Dialect.fails_parseBytes_iff]
  refine or_congr_right (or_congr_right ?_)
  constructor
  · rintro ⟨content, hread, hzsh, hbroken⟩
    exact ⟨hzsh, content, hread, hbroken⟩
  · rintro ⟨hzsh, content, hread, hbroken⟩
    exact ⟨content, hread, hzsh, hbroken⟩

/-- A log is outdated that sees the stamp it saw last, and would read nothing or something else. -/
theorem outdated_iff : log.Outdated w ↔ log.loaded = true ∧
    log.currentStamp w = .ok log.stamp ∧
      (Fails (log.reading w) ∨ log.stamp = none ∧ log.entries ≠ []) := by
  rw [fails_reading_iff]
  constructor
  · rintro ⟨hloaded, hseen, hbroken | hdenied | hkept⟩
    · exact ⟨hloaded, hseen, .inl (.inr (.inr hbroken))⟩
    · exact ⟨hloaded, hseen, .inl (.inl hdenied)⟩
    · exact ⟨hloaded, hseen, .inr hkept⟩
  · rintro ⟨hloaded, hseen, (hdenied | hnul | hbroken) | hkept⟩
    · exact ⟨hloaded, hseen, .inr (.inl hdenied)⟩
    · refine ⟨hloaded, hseen, .inr (.inl ?_)⟩
      -- A path that cannot be asked about has no time the log could have remembered.
      by_contra hallowed
      obtain ⟨e, he⟩ := currentStamp_eq_error_iff.mpr ⟨Bool.eq_false_iff.mpr hallowed, hnul⟩
      rw [hseen] at he
      cases he
    · exact ⟨hloaded, hseen, .inl hbroken⟩
    · exact ⟨hloaded, hseen, .inr (.inr hkept)⟩

end ShellLog

/-! ### Runs -/

/-- The runs of a shell's log: it is made, asked in some worlds, and made to forget. `asked` are the
worlds of the questions, latest first; others may do to the files what they like in between. -/
inductive LogRun (d : Dialect) (config : Config) (env : Environment) :
    List World → ShellLog → Prop
  | start {log : ShellLog} (w : World)
      (hnew : Provider.ofName? d.name config env w = some (.shellLog log)) : LogRun d config env [] log
  | query {asked : List World} {log log' : ShellLog} (h : LogRun d config env asked log) (q : Query)
      (w : World) (hask : q.ask (.shellLog log) w = .shellLog log') :
      LogRun d config env (w :: asked) log'
  | clear {asked : List World} {log log' : ShellLog} (h : LogRun d config env asked log) (w : World)
      (hclear : (Provider.shellLog log).clear w = (.ok (), .shellLog log', w)) :
      LogRun d config env asked log'

/-- No two versions of a file that a log looks at in some worlds have the same stamp: neither its
content nor who may read it changes under a stamp. -/
def StampedAnew (log : ShellLog) (worlds : List World) : Prop :=
  ∀ w ∈ worlds, ∀ w' ∈ worlds, ∀ v v', log.version w = .ok v → log.version w' = .ok v' →
    v.stamp = v'.stamp → v.node = v'.node

open ShellLog (newestOfEach Outdated)

/-- What a run preserves: the settings of a new log; the newest entries are of those that are held,
and these were read in one of the worlds. The version with the stamp that was seen last was read as
these entries or could not be read. -/
structure Mirrors (new : ShellLog) (asked : List World) (log : ShellLog) : Prop where
  settings : log = { new with entries := log.entries, unique := log.unique, stamp := log.stamp,
                              loaded := log.loaded }
  unique : log.unique = newestOfEach log.entries
  unloaded : log.loaded = false → log.entries = []
  read : log.loaded = true → ∃ w ∈ asked, new.reading w = .ok log.entries
  seen : log.loaded = true → ∀ stamp ∈ log.stamp, ∃ w ∈ asked, new.isDenied w = false ∧
    ∃ v, new.version w = .ok v ∧ v.stamp = stamp ∧
      (new.reading w = .ok log.entries ∨ Fails (new.reading w))

namespace Mirrors

variable {new log : ShellLog} {asked : List World}

/-- A log that mirrors another looks at the same version of its file. -/
theorem version_eq (h : Mirrors new asked log) (w : World) : log.version w = new.version w := by
  rw [h.settings]
  rfl

/-- It is denied to look where the other is. -/
theorem isDenied_eq (h : Mirrors new asked log) (w : World) : log.isDenied w = new.isDenied w := by
  rw [h.settings]
  rfl

/-- It finds the same stamp. -/
theorem currentStamp_eq (h : Mirrors new asked log) (w : World) :
    log.currentStamp w = new.currentStamp w := by
  rw [h.settings]
  rfl

/-- It reads the same entries. -/
theorem reading_eq (h : Mirrors new asked log) (w : World) : log.reading w = new.reading w := by
  rw [h.settings]
  rfl

/-- It goes on to mirror it when more has been asked. -/
theorem mono (h : Mirrors new asked log) (w : World) : Mirrors new (w :: asked) log where
  settings := h.settings
  unique := h.unique
  unloaded := h.unloaded
  read hloaded :=
    let ⟨w', hw', hread⟩ := h.read hloaded
    ⟨w', List.mem_cons_of_mem w hw', hread⟩
  seen hloaded stamp hstamp :=
    let ⟨w', hw', hseen⟩ := h.seen hloaded stamp hstamp
    ⟨w', List.mem_cons_of_mem w hw', hseen⟩

/-- It does so behind clearing, which a log refuses. -/
theorem clear (h : Mirrors new asked log) : Mirrors new asked log.clear where
  settings := by
    rw [h.settings]
    rfl
  unique := rfl
  unloaded _ := rfl
  read hloaded := nomatch hloaded
  seen hloaded := nomatch hloaded

/-- Another version than the last one is looked at, whatever comes of it. -/
theorem look (h : Mirrors new asked log) {w : World} {stamp : Option Nat}
    (hstamp : log.currentStamp w = .ok stamp)
    (hunseen : ¬ (log.loaded = true ∧ stamp = log.stamp)) :
    Mirrors new (w :: asked) (log.refresh w).2 := by
  have hversion (s : Nat) (hs : s ∈ stamp) :
      new.isDenied w = false ∧ ∃ v, new.version w = .ok v ∧ v.stamp = s := by
    rw [← h.version_eq w, ← h.isDenied_eq w]
    exact ShellLog.version_of_stamp (Option.mem_def.mp hs ▸ hstamp)
  rw [ShellLog.refresh_of_unseen hstamp hunseen, h.reading_eq]
  cases hread : new.reading w with
  | ok entries =>
    exact {
      settings := by rw [h.settings]
      unique := rfl
      unloaded := nofun
      read := fun _ => ⟨w, List.mem_cons_self, hread⟩
      seen := fun _ s hs =>
        let ⟨hallowed, v, hv, hsame⟩ := hversion s hs
        ⟨w, List.mem_cons_self, hallowed, v, hv, hsame, .inl hread⟩ }
  | error failure =>
    -- The stamp is that of this version, but what is held stays that of an earlier one.
    exact {
      settings := by rw [h.settings]
      unique := h.unique
      unloaded := h.unloaded
      read := (h.mono w).read
      seen := fun _ s hs =>
        let ⟨hallowed, v, hv, hsame⟩ := hversion s hs
        ⟨w, List.mem_cons_self, hallowed, v, hv, hsame, .inr ⟨failure, hread⟩⟩ }

/-- It does so behind refreshing, in the world in which that was asked. -/
theorem refresh (h : Mirrors new asked log) (w : World) :
    Mirrors new (w :: asked) (log.refresh w).2 := by
  cases hstamp : log.currentStamp w with
  | error e =>
    rw [ShellLog.refresh, hstamp]
    exact h.mono w
  | ok stamp =>
    by_cases hseen : log.loaded = true ∧ stamp = log.stamp
    · rw [ShellLog.refresh_of_seen hseen.1 (hseen.2 ▸ hstamp)]
      exact h.mono w
    · exact h.look hstamp hseen

end Mirrors

/-- The log of a shell, before it has read anything. -/
theorem ofName?_name (d : Dialect) (config : Config) (env : Environment) (w : World) :
    Provider.ofName? d.name config env w = some (.shellLog
      { dialect := d, environment := env
        defaults := { maxResults := config.historyMaxResults,
                      deduplicate := config.historyDeduplicate } }) := by
  cases d <;> rfl

variable {d : Dialect} {config : Config} {env : Environment} {asked : List World}
  {new log : ShellLog} {w : World}

/-- A new log mirrors itself, with nothing asked so far. -/
theorem Mirrors.start (h : Provider.ofName? d.name config env w = some (.shellLog new)) :
    Mirrors new [] new ∧ new.loaded = false := by
  rw [ofName?_name] at h
  cases h
  exact ⟨⟨rfl, rfl, fun _ => rfl, nofun, nofun⟩, rfl⟩

/-- What a log holds after any run. -/
theorem mirrors_of_run (hnew : Provider.ofName? d.name config env w = some (.shellLog new))
    (h : LogRun d config env asked log) : Mirrors new asked log := by
  -- A refresh reads what a new log would read, or finds the time it has seen before.
  induction h with
  | @start log w' hnew' =>
    have hsame : Provider.ofName? d.name config env w = Provider.ofName? d.name config env w' := by
      rw [ofName?_name, ofName?_name]
    obtain rfl : new = log := by
      rw [hsame, hnew'] at hnew
      exact (Provider.shellLog.inj (Option.some.inj hnew)).symm
    exact (Mirrors.start hnew).1
  | query h q w hask ih =>
    rw [Query.ask_eq, refresh_shellLog] at hask
    cases hask
    exact ih.refresh w
  | clear h w hclear ih =>
    cases hclear
    exact ih.clear

/-! ### Logs and new logs -/

/-- A version that a log has seen last is read by a new one as what the log holds, if it can be read;
nothing is, if the log holds nothing. -/
theorem Mirrors.reading_of_seen (h : Mirrors new asked log) (hstamps : StampedAnew log (w :: asked))
    (hloaded : log.loaded = true) (hseen : log.currentStamp w = .ok log.stamp)
    (hread : ¬ Fails (log.reading w)) (hkept : ¬ (log.stamp = none ∧ log.entries ≠ [])) :
    new.reading w = .ok log.entries := by
  cases hstamp : log.stamp with
  | none =>
    rw [hstamp] at hseen
    have hempty : log.entries = [] := by
      by_contra hentries
      exact hkept ⟨hstamp, hentries⟩
    rw [← h.reading_eq, ShellLog.reading_of_missing hseen hread, hempty]
  | some stamp =>
    rw [hstamp] at hseen
    obtain ⟨hallowed, v, hv, hvstamp⟩ := ShellLog.version_of_stamp hseen
    obtain ⟨w', hw', hallowed', v', hv', hvstamp', hread'⟩ := h.seen hloaded stamp hstamp
    -- The stamp has stood for one content only, which was read when it was looked at last.
    have hnode : v.node = v'.node :=
      hstamps w List.mem_cons_self w' (List.mem_cons_of_mem w hw') v v' hv
        ((h.version_eq w').trans hv') (hvstamp.trans hvstamp'.symm)
    have hsame : new.reading w = new.reading w' := by
      rw [ShellLog.reading, ShellLog.reading, ← h.isDenied_eq w, hallowed, hallowed',
        ← h.version_eq w, hv, hv']
      exact congrArg new.dialect.readNode hnode
    rw [h.reading_eq, hsame] at hread
    rw [hsame]
    exact hread'.resolve_right hread

/-- A new log reads what is there. -/
theorem Mirrors.refresh_new (h : Mirrors new asked log) (hnew : new.loaded = false)
    {stamp : Option Nat} (hstamp : log.currentStamp w = .ok stamp) :
    new.refresh w = match new.reading w with
      | .error failure => (.error failure, { new with stamp })
      | .ok entries => (.ok (), { new with entries, unique := newestOfEach entries, stamp,
                                           loaded := true }) := by
  rw [h.currentStamp_eq] at hstamp
  exact ShellLog.refresh_of_unseen hstamp (by simp [hnew])

/-- A log that is not outdated is brought up to date like a new one. -/
theorem Mirrors.refresh_eq_new (h : Mirrors new asked log) (hnew : new.loaded = false)
    (hstamps : StampedAnew log (w :: asked)) (hcurrent : ¬ log.Outdated w) :
    (log.refresh w).1 = (new.refresh w).1 ∧
      ((log.refresh w).1 = .ok () → (log.refresh w).2 = (new.refresh w).2) := by
  cases hstamp : log.currentStamp w with
  | error e =>
    rw [ShellLog.refresh, ShellLog.refresh, ← h.currentStamp_eq, hstamp]
    exact ⟨rfl, nofun⟩
  | ok stamp =>
    rw [h.refresh_new hnew hstamp]
    -- If the time is the one remembered the file is not read, so the old content must still be
    -- right.
    by_cases hseen : log.loaded = true ∧ stamp = log.stamp
    · obtain ⟨hloaded, rfl⟩ := hseen
      obtain ⟨hread, hkept⟩ : ¬ Fails (log.reading w) ∧ ¬ (log.stamp = none ∧ log.entries ≠ []) :=
        not_or.mp fun hfailed => hcurrent (ShellLog.outdated_iff.mpr ⟨hloaded, hstamp, hfailed⟩)
      rw [ShellLog.refresh_of_seen hloaded hstamp,
        h.reading_of_seen hstamps hloaded hstamp hread hkept]
      refine ⟨rfl, fun _ => ?_⟩
      dsimp only
      rw [← h.unique, ← hloaded]
      exact h.settings
    · rw [ShellLog.refresh_of_unseen hstamp hseen, h.reading_eq]
      cases new.reading w with
      | error failure => exact ⟨rfl, nofun⟩
      | ok entries =>
        refine ⟨rfl, fun _ => ?_⟩
        dsimp only
        rw [h.settings]

/-- What a log answers that sees the stamp it saw last. -/
theorem getAllRaw_of_seen (hloaded : log.loaded = true) (hseen : log.currentStamp w = .ok log.stamp) :
    Query.getAllRaw.reply (.shellLog log) w = .ok (.entries log.entries.reverse) := by
  rw [Query.reply, Provider.getAllRaw, Provider.query, Provider.refresh,
    ShellLog.refresh_of_seen hloaded hseen]
  rfl

/-- What a new log answers. -/
theorem Mirrors.getAllRaw_new (h : Mirrors new asked log) (hnew : new.loaded = false)
    {stamp : Option Nat} (hstamp : log.currentStamp w = .ok stamp) :
    Query.getAllRaw.reply (.shellLog new) w
      = (log.reading w).map fun entries => .entries entries.reverse := by
  rw [Query.reply, Provider.getAllRaw, Provider.query, Provider.refresh, h.refresh_new hnew hstamp,
    h.reading_eq]
  cases new.reading w <;> rfl

/-- An outdated log goes on with what it holds, while a new one reads nothing or something else. -/
theorem Mirrors.getAllRaw_ne_new (h : Mirrors new asked log) (hnew : new.loaded = false)
    (houtdated : log.Outdated w) :
    Query.getAllRaw.reply (.shellLog log) w ≠ Query.getAllRaw.reply (.shellLog new) w := by
  obtain ⟨hloaded, hseen, hfailed⟩ := ShellLog.outdated_iff.mp houtdated
  rw [getAllRaw_of_seen hloaded hseen, h.getAllRaw_new hnew hseen]
  by_cases hread : Fails (log.reading w)
  · obtain ⟨failure, hread⟩ := hread
    rw [hread]
    exact nofun
  · -- Nothing is there, but the log holds entries.
    obtain ⟨hnone, hentries⟩ := hfailed.resolve_left hread
    rw [ShellLog.reading_of_missing (hnone ▸ hseen) hread]
    intro hsame
    have hempty : log.entries.reverse = [] := Reply.entries.inj (Except.ok.inj hsame)
    exact hentries (List.reverse_eq_nil_iff.mp hempty)

/-- **A shell's log is a mirror of its file**, unless the last look at that has failed and the file
has the same stamp now: in any run it answers all questions like a log made at that moment. What it
holds, with and without repeats, is from one version of a file. -/
theorem reply_eq_new_iff (hrun : LogRun d config env asked log)
    (hstamps : StampedAnew log (w :: asked)) :
    ((∀ (q : Query) (new : Provider), Provider.ofName? d.name config env w = some new →
        q.reply (.shellLog log) w = q.reply new w) ↔ ¬ log.Outdated w) ∧
      log.unique = newestOfEach log.entries ∧
      (log.entries = [] ∨ ∃ w' ∈ asked, log.reading w' = .ok log.entries) := by
  have hcreate := ofName?_name d config env w
  have hmirrors := mirrors_of_run hcreate hrun
  have hnew := (Mirrors.start hcreate).2
  refine ⟨⟨fun hsame houtdated => ?_, fun hcurrent q new hq => ?_⟩, hmirrors.unique, ?_⟩
  -- All entries tell an outdated log from a new one; the other questions may not.
  · exact hmirrors.getAllRaw_ne_new hnew houtdated (hsame .getAllRaw _ hcreate)
  · rw [hcreate] at hq
    cases hq
    obtain ⟨hresult, hlogs⟩ := hmirrors.refresh_eq_new hnew hstamps hcurrent
    exact q.reply_congr hresult fun hok => congrArg Provider.shellLog (hlogs hok)
  · cases hloaded : log.loaded with
    | false => exact .inl (hmirrors.unloaded hloaded)
    | true =>
      obtain ⟨w', hw', hread⟩ := hmirrors.read hloaded
      exact .inr ⟨w', hw', (hmirrors.reading_eq w').trans hread⟩

/-- A directory with a version of a zsh history. -/
def withHistory (stamp : Nat) (content : List UInt8) : World where
  disk.nodes := [(["h"], ⟨.directory false, 1⟩),
    (["h", "hist"], ⟨.file content false false, stamp⟩)]

/-- A zsh log that holds one command, with the stamp that it has seen last. -/
def heldLog (stamp : Nat) : ShellLog where
  dialect := .zsh
  environment := [("HISTFILE", "/h/hist")]
  entries := [{ command := "ls", source := "zsh" }]
  unique := [{ command := "ls", source := "zsh" }]
  stamp := some stamp
  loaded := true

/-- The directory that `heldLog` was read from. -/
def listed : World :=
  withHistory 2 (Text.encode "ls\n".toList)

/-- The log was read once, at the first stamp. -/
theorem heldLog_run : LogRun .zsh {} [("HISTFILE", "/h/hist")] [listed] (heldLog 2) :=
  .query (.start {} rfl) .getAll _ rfl

section withHistory

variable (last stamp : Nat) (content : List UInt8)

/-- The file of the example is where it was put. -/
theorem find_withHistory : (withHistory stamp content).disk.find "/work" "/h/hist"
    = .ok ⟨.file content false false, stamp⟩ :=
  rfl

/-- The log of the example looks for it there. -/
theorem path_withHistory : ((heldLog last).path (withHistory stamp content)).toString = "/h/hist" :=
  rfl

/-- So this is the version it finds. -/
theorem version_withHistory : (heldLog last).version (withHistory stamp content)
    = .ok ⟨.file content false false, stamp⟩ := by
  rw [ShellLog.version, path_withHistory]
  exact find_withHistory stamp content

/-- And this is the stamp. -/
theorem currentStamp_withHistory :
    (heldLog last).currentStamp (withHistory stamp content) = .ok (some stamp) := by
  have hallowed : (heldLog last).isDenied (withHistory stamp content) = false := rfl
  have hfind := version_withHistory last stamp content
  rw [ShellLog.version] at hfind
  rw [ShellLog.currentStamp, hallowed, Disk.stamp?, hfind]
  rfl

end withHistory

/-- A stamp stands for one content if the content is told by the stamp. -/
theorem stampedAnew_withHistory (last : Nat) (content : Nat → List UInt8) (stamps : List Nat) :
    StampedAnew (heldLog last) (stamps.map fun stamp => withHistory stamp (content stamp)) := by
  intro w hw w' hw' v v' hv hv' hsame
  obtain ⟨stamp, -, rfl⟩ := List.mem_map.mp hw
  obtain ⟨stamp', -, rfl⟩ := List.mem_map.mp hw'
  rw [version_withHistory] at hv hv'
  cases hv
  cases hv'
  obtain rfl : stamp = stamp' := hsame
  rfl

/-- A file that was replaced is read again. -/
theorem reply_eq_new_replaced :
    let replaced := withHistory 3 (Text.encode "pwd\n".toList)
    LogRun .zsh {} [("HISTFILE", "/h/hist")] [listed] (heldLog 2) ∧
    StampedAnew (heldLog 2) [replaced, listed] ∧
    ∀ (q : Query) (new : Provider),
      Provider.ofName? Dialect.zsh.name {} [("HISTFILE", "/h/hist")] replaced = some new →
      q.reply (.shellLog (heldLog 2)) replaced = q.reply new replaced := by
  intro replaced
  have hstamps : StampedAnew (heldLog 2) [replaced, listed] :=
    stampedAnew_withHistory 2 (fun stamp => Text.encode (if stamp = 2 then "ls\n" else "pwd\n").toList)
      [3, 2]
  have hcurrent : ¬ (heldLog 2).Outdated replaced := by
    intro houtdated
    have hseen := houtdated.seen
    rw [currentStamp_withHistory] at hseen
    cases hseen
  exact ⟨heldLog_run, hstamps, (reply_eq_new_iff heldLog_run hstamps).1.mpr hcurrent⟩

/-! ### A version that cannot be read -/

/-- The line of a zsh history with a command at a time of too many digits. -/
def overlongLine : List Char :=
  Zsh.headText Number.Decimal.writableLimit 0 ++ "pwd".toList

/-- The overlong line is printable. -/
theorem printable_overlongLine : Chars.Printable overlongLine :=
  (Zsh.printable_headText _ _).append (by decide)

/-- Reading fails on it. -/
theorem breaks_overlongLine : Zsh.Breaks overlongLine := by
  have hdigits := Number.Decimal.length_ofNat_le_iff.not.mpr
    (lt_irrefl Number.Decimal.writableLimit)
  exact ⟨_, _, _, Zsh.head?_headText _ _ _, .inl (not_le.mp hdigits)⟩

/-- A directory with a zsh history that cannot be read. -/
def overlong : World :=
  withHistory 3 (Text.encode (overlongLine ++ ['\n']))

/-- No byte of an ASCII text stands for another one. -/
theorem Zsh.unmetafy_encode {text : List Char} (h : ∀ c ∈ text, c.toNat < 0x80) :
    Zsh.unmetafy (Text.encode text) = Text.encode text := by
  have hmark : (Text.encode text).contains Zsh.metaMark = false := by
    rw [Text.encode_of_isAscii h, List.contains_eq_mem, decide_eq_false_iff_not]
    intro hmem
    obtain ⟨c, hc, hbyte⟩ := List.mem_map.mp hmem
    have hnat : (UInt8.ofNat c.toNat).toNat = 0x83 := congrArg UInt8.toNat hbyte
    have hlt := h c hc
    rw [UInt8.toNat_ofNat'] at hnat
    omega
  rw [Zsh.unmetafy, hmark]
  exact if_neg Bool.false_ne_true

/-- It is the only line of the file. -/
theorem lines_overlongLine :
    Chars.lines (Text.decodeLossy (Zsh.unmetafy (Text.encode (overlongLine ++ ['\n']))))
      = [overlongLine] := by
  have hascii : ∀ c ∈ overlongLine ++ ['\n'], c.toNat < 0x80 := by
    refine List.forall_mem_append.mpr ⟨fun c hc => ?_, List.forall_mem_singleton.mpr (by decide)⟩
    exact (printable_overlongLine c hc).2.trans (by decide)
  rw [Zsh.unmetafy_encode hascii, Text.decodeLossy_encode hascii,
    Chars.lines_append_feed printable_overlongLine.unbroken]
  rfl

/-- So the log keeps the entries of an older version. -/
theorem outdated_overlong : (heldLog 3).Outdated overlong := by
  have hfind : (heldLog 3).version overlong = _ := version_withHistory 3 3 _
  have hread : overlong.disk.read overlong.cwd ((heldLog 3).path overlong).toString
      = .ok (Text.encode (overlongLine ++ ['\n'])) := by
    rw [ShellLog.version] at hfind
    rw [Disk.read, hfind]
    rfl
  exact {
    loaded := rfl
    seen := currentStamp_withHistory 3 3 _
    failed := .inl
      ⟨rfl, _, hread, overlongLine, by simp [lines_overlongLine], breaks_overlongLine⟩ }

/-- A log that could not read a version goes on with the one before it, and says so only once. -/
theorem reply_ne_new_overlong :
    LogRun .zsh {} [("HISTFILE", "/h/hist")] [overlong, listed] (heldLog 3) ∧
    StampedAnew (heldLog 3) [overlong, overlong, listed] ∧
    ∃ (q : Query) (new : Provider),
      Provider.ofName? Dialect.zsh.name {} [("HISTFILE", "/h/hist")] overlong = some new ∧
      q.reply (.shellLog (heldLog 3)) overlong ≠ q.reply new overlong := by
  have hcreate := ofName?_name .zsh {} [("HISTFILE", "/h/hist")] overlong
  -- The load fails after the time of the new file has been taken down.
  have hrefresh : ((heldLog 2).refresh overlong).2 = heldLog 3 := by
    obtain ⟨failure, hread⟩ : Fails ((heldLog 3).reading overlong) :=
      (ShellLog.outdated_iff.mp outdated_overlong).2.2.resolve_right (by simp [heldLog])
    have hsame : (heldLog 2).reading overlong = (heldLog 3).reading overlong := rfl
    have hstamp : (heldLog 2).currentStamp overlong = .ok (some 3) :=
      currentStamp_withHistory 2 3 _
    rw [ShellLog.refresh_of_unseen hstamp (by decide), hsame, hread]
    rfl
  have hrun : LogRun .zsh {} [("HISTFILE", "/h/hist")] [overlong, listed] (heldLog 3) := by
    refine .query heldLog_run .getAll _ ?_
    rw [Query.ask_eq, refresh_shellLog, hrefresh]
  have hstamps : StampedAnew (heldLog 3) [overlong, overlong, listed] :=
    stampedAnew_withHistory 3
      (fun stamp => if stamp = 2 then Text.encode "ls\n".toList
        else Text.encode (overlongLine ++ ['\n'])) [3, 3, 2]
  exact ⟨hrun, hstamps, .getAllRaw, _, hcreate,
    (mirrors_of_run hcreate hrun).getAllRaw_ne_new (Mirrors.start hcreate).2 outdated_overlong⟩

end ShellAssist.History
