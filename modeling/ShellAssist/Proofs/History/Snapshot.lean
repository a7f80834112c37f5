import ShellAssist.Proofs.Host.Ambient
import ShellAssist.Proofs.History.ArchiveRuns

namespace ShellAssist.History

/-!
# Histories for a snapshot of an environment

The files of the histories are found by the home directory of the snapshot that a history was made
for. The environment of the process decides only where the snapshot has none.

* `Provider.Settled`, `Archive.Settled` — histories whose snapshots name a home directory;
* `Archive.search_within` — what they find is up to the world, not to the environment in it.
-/

variable {env : Environment} {home : String} {w : World}

/-! ### Places of files -/

/-- A home directory that the snapshot names is not asked of the process. -/
theorem homeOf_within (h : Environment.filled? env "HOME" = some home) (w : World)
    (e : Environment) : homeOf env (w.within e) = homeOf env w := by
  rw [homeOf, homeOf, h, Option.getD_some, Option.getD_some]

/-- Nor is what a tilde in front of a configured path stands for. -/
theorem expandTilde_within (h : Environment.filled? env "HOME" = some home) (w : World)
    (e : Environment) (text : String) :
    expandTilde env (w.within e) text = expandTilde env w text := by
  rw [expandTilde, expandTilde, homeOf_within h]

namespace ShellLog

variable {log : ShellLog} (h : Environment.filled? log.environment "HOME" = some home)

include h

/-- The history file that the snapshot names. -/
theorem configuredPath?_within (w : World) (e : Environment) :
    log.configuredPath? (w.within e) = log.configuredPath? w := by
  unfold configuredPath?
  simp only [expandTilde_within h]

/-- The history file of a fish session. -/
theorem fishFile_within (w : World) (e : Environment) (session : String) :
    log.fishFile (w.within e) session = log.fishFile w session := by
  unfold fishFile
  simp only [homeOf_within h]

/-- The paths of zsh's history. -/
theorem zshPaths_within (w : World) (e : Environment) :
    log.zshPaths (w.within e) = log.zshPaths w := by
  rw [zshPaths, zshPaths, homeOf_within h]

/-- The history file is found in the same place. -/
theorem path_within (w : World) (e : Environment) : log.path (w.within e) = log.path w := by
  unfold path fishPath
  simp only [configuredPath?_within h, fishFile_within h, zshPaths_within h, homeOf_within h,
    World.within_disk, World.within_cwd]

/-- What the system denies to see is denied to all processes. -/
theorem isDenied_within (w : World) (e : Environment) :
    log.isDenied (w.within e) = log.isDenied w := by
  unfold isDenied
  simp only [configuredPath?_within h, fishFile_within h, zshPaths_within h, World.within_disk,
    World.within_cwd]

/-- The same version of the file is seen. -/
theorem currentStamp_within (w : World) (e : Environment) :
    log.currentStamp (w.within e) = log.currentStamp w := by
  rw [currentStamp, currentStamp, isDenied_within h, path_within h, World.within_disk,
    World.within_cwd]

/-- The file is read in the same way. -/
theorem load_within (w : World) (e : Environment) : log.load (w.within e) = log.load w := by
  simp only [load, isDenied_within h, path_within h, World.within_disk, World.within_cwd]

/-- It is read again for the same reasons. -/
theorem refresh_within (w : World) (e : Environment) :
    log.refresh (w.within e) = log.refresh w := by
  have hload (stamp : Option Nat) : ({ log with stamp } : ShellLog).load (w.within e)
      = ({ log with stamp } : ShellLog).load w := by
    have hhome : Environment.filled? ({ log with stamp } : ShellLog).environment "HOME" = some home := h
    exact load_within hhome w e
  simp only [refresh, currentStamp_within h, hload]

end ShellLog

/-- The store's path is made when it is created. -/
theorem Store.create_within (config : Config) (h : Environment.filled? env "HOME" = some home)
    (w : World) (e : Environment) : Store.create config env (w.within e) = Store.create config env w := by
  rw [Store.create, Store.create, expandTilde_within h, World.within_nesting]

/-! ### Providers -/

namespace Provider

/-- The snapshot of a shell's log names a home directory. -/
def Settled : Provider → Prop
  | .shellLog log => ∃ home, Environment.filled? log.environment "HOME" = some home
  | .store _ => True
  | .memory _ => True

/-- A provider reads its file in the same way for all processes. -/
theorem refresh_within {p : Provider} (h : p.Settled) (w : World) (e : Environment) :
    p.refresh (w.within e) = p.refresh w := by
  cases p with
  | shellLog log =>
    obtain ⟨home, h⟩ := h
    simp only [refresh, ShellLog.refresh_within h]
  | store s =>
    simp only [refresh, Store.refresh, Store.load, World.within_disk, World.within_cwd]
  | memory log => rfl

/-- Reading a file changes no snapshot. -/
theorem settled_refresh {p : Provider} (h : p.Settled) (w : World) : (p.refresh w).2.Settled := by
  cases p with
  | shellLog log =>
    -- Only a log remembers an environment, and neither loading nor refreshing touches it.
    have hload (log : ShellLog) : (log.load w).2.environment = log.environment := by
      unfold ShellLog.load
      dsimp only
      split <;> rfl
    have hrefresh : (log.refresh w).2.environment = log.environment := by
      unfold ShellLog.refresh
      split
      · rfl
      · split
        · rfl
        · exact hload _
    show ∃ home, Environment.filled? (log.refresh w).2.environment "HOME" = some home
    rw [hrefresh]
    exact h
  | store s => trivial
  | memory log => trivial

/-- A search depends on what was read alone. -/
theorem search_within {p : Provider} (h : p.Settled) (w : World) (e : Environment) (text : String)
    (limit : Option Int) (deduplicate : Option Bool) :
    p.search (w.within e) text limit deduplicate = p.search w text limit deduplicate := by
  rw [search, search, query, query, refresh_within h]

/-- A search changes no snapshot. -/
theorem settled_search {p : Provider} (h : p.Settled) (w : World) (text : String)
    (limit : Option Int) (deduplicate : Option Bool) :
    (p.search w text limit deduplicate).2.Settled := by
  have hrefresh := settled_refresh h w
  rw [search, query]
  rcases hrefreshed : p.refresh w with ⟨failure | ⟨⟩, p'⟩ <;>
    rw [hrefreshed] at hrefresh <;>
    exact hrefresh

/-- A provider is there for all processes or for none. -/
theorem isAvailable_within {p : Provider} (h : p.Settled) (w : World) (e : Environment) :
    p.isAvailable (w.within e) = p.isAvailable w := by
  have hpath : p.path (w.within e) = p.path w := by
    cases p with
    | shellLog log =>
      obtain ⟨home, h⟩ := h
      exact ShellLog.path_within h w e
    | store s => rfl
    | memory log => rfl
  simp only [isAvailable, hpath, World.within_disk, World.within_cwd]

/-- A provider of a name is made for the snapshot. -/
theorem ofName?_within (name : String) (config : Config)
    (h : Environment.filled? env "HOME" = some home) (w : World) (e : Environment) :
    ofName? name config env (w.within e) = ofName? name config env w := by
  rw [ofName?, ofName?, Store.create_within config h]

/-- A provider of a name is made settled. -/
theorem settled_of_ofName? {name : String} {config : Config} {p : Provider}
    (h : Environment.filled? env "HOME" = some home) (hp : ofName? name config env w = some p) :
    p.Settled := by
  unfold ofName? at hp
  split at hp
  · rw [← Option.some.inj hp]
    trivial
  · obtain ⟨dialect, -, rfl⟩ := Option.map_eq_some_iff.mp hp
    exact ⟨home, h⟩

end Provider

/-! ### Archives -/

namespace Archive

/-- The snapshots of all shells' logs in the archive name a home directory. -/
structure Settled (a : Archive) : Prop where
  listed : ∀ e ∈ a.providers, e.2.Settled
  detached : ∀ p ∈ a.detached, p.Settled

variable {a : Archive}

/-- Every provider of a settled archive is settled. -/
theorem Settled.providerAt (h : a.Settled) (name : String) : (a.providerAt name).Settled := by
  unfold Archive.providerAt provider?
  split
  · rename_i p hp
    obtain ⟨before, after, hproviders, -⟩ := List.lookup_eq_some_iff.mp hp
    exact h.listed (name, p) (by rw [hproviders]; simp)
  · split
    · cases hdetached : a.detached with
      | none => trivial
      | some p => exact h.detached p hdetached
    · trivial

/-- A settled provider may be put in the place of another. -/
theorem Settled.setProvider (h : a.Settled) (name : String) {p : Provider} (hp : p.Settled) :
    (a.setProvider name p).Settled := by
  unfold Archive.setProvider
  split
  · refine ⟨fun e he => ?_, h.detached⟩
    obtain ⟨old, hold, rfl⟩ := List.mem_map.mp he
    dsimp only
    split
    · exact hp
    · exact h.listed old hold
  · split
    · exact ⟨h.listed, fun q hq => Option.some.inj hq ▸ hp⟩
    · exact h

/-- What an archive finds is up to the world, not to the environment in it. -/
theorem search_within (h : a.Settled) (w : World) (e : Environment) (text : String)
    (limit : Option Int) (deduplicate : Option Bool) :
    a.search (w.within e) text limit deduplicate = a.search w text limit deduplicate := by
  have hanswers (limit : Option Int) (deduplicate : Option Bool) (l : List (String × Provider))
      (hl : ∀ p ∈ l, p.2.Settled) :
      answers (fun p => p.search (w.within e) text limit deduplicate) l
        = answers (fun p => p.search w text limit deduplicate) l := by
    induction l with
    | nil => simp only [answers]
    | cons p l ih =>
      simp only [answers, Provider.search_within (hl p List.mem_cons_self),
        ih fun q hq => hl q (List.mem_cons_of_mem _ hq)]
  unfold search askAll ask
  simp only [hanswers _ _ a.providers h.listed, Provider.search_within (h.providerAt _)]

/-- An archive stays settled while it is searched. -/
theorem Settled.search (h : a.Settled) (w : World) (text : String) (limit : Option Int)
    (deduplicate : Option Bool) : (a.search w text limit deduplicate).2.Settled := by
  unfold Archive.search
  simp only
  split
  · show (a.askAll _).2.Settled
    rw [askAll_snd]
    refine ⟨fun e he => ?_, h.detached⟩
    obtain ⟨old, hold, rfl⟩ := List.mem_map.mp he
    exact Provider.settled_search (h.listed old hold) _ _ _ _
  · exact h.setProvider _ (Provider.settled_search (h.providerAt _) _ _ _ _)

/-- The shell's own history is found for all processes or for none. -/
theorem nativeProvider_within (config : Config) (shell : Option Dialect)
    (h : Environment.filled? env "HOME" = some home) (w : World) (e : Environment) :
    nativeProvider config env shell (w.within e) = nativeProvider config env shell w := by
  unfold nativeProvider
  cases shell with
  | none => simp only [Option.bind_eq_bind, Option.bind_none]
  | some dialect =>
    simp only [Option.bind_eq_bind, Option.bind_some, Provider.ofName?_within _ config h]
    cases hp : Provider.ofName? dialect.name config env w with
    | none => simp only [Option.bind_none]
    | some p =>
      simp only [Option.bind_some,
        Provider.isAvailable_within (Provider.settled_of_ofName? h hp)]

/-- The shell's own history is made settled. -/
theorem settled_of_nativeProvider {config : Config} {shell : Option Dialect}
    {named : String × Provider} (h : Environment.filled? env "HOME" = some home)
    (hnamed : nativeProvider config env shell w = some named) : named.2.Settled := by
  unfold nativeProvider at hnamed
  obtain ⟨dialect, -, hnamed⟩ := Option.bind_eq_some_iff.mp hnamed
  split at hnamed
  · obtain ⟨p, hp, hnamed⟩ := Option.bind_eq_some_iff.mp hnamed
    split at hnamed
    · rw [← Option.some.inj hnamed]
      exact Provider.settled_of_ofName? h hp
    · cases hnamed
  · cases hnamed

/-- An archive is made for a snapshot that names a home directory. -/
theorem indifferent_create {e₁ e₂ : Environment} (config : Config)
    (h : Environment.filled? env "HOME" = some home) :
    Indifferent e₁ e₂ (create config env none) Settled := by
  -- A mode nobody knows is noted and replaced, in both worlds alike.
  have hmode : Indifferent e₁ e₂ (modeOf config) fun _ => True := by
    unfold modeOf
    split
    · exact Indifferent.pure trivial
    · exact (indifferent_noteMismatch _ _ _).bind fun _ _ => Indifferent.pure trivial
  unfold create
  refine hmode.bind fun mode _ => Indifferent.get_bind (fun w => ?_) fun w => ?_
  · simp only [Store.create_within config h, nativeProvider_within config _ h]
  · have hstore : (Provider.store (Store.create config env (w.within e₁))).Settled := trivial
    have hnative : ∀ named ∈ (if mode = .solo then none
        else nativeProvider config env (Dialect.ofShell? (some (config.resolveShell (some env))))
          (w.within e₁)), named.2.Settled := by
      intro named hnamed
      split at hnamed
      · cases hnamed
      · exact settled_of_nativeProvider h hnamed
    dsimp only
    generalize (if mode = .solo then none
      else nativeProvider config env (Dialect.ofShell? (some (config.resolveShell (some env))))
        (w.within e₁)) = native at hnative
    refine Indifferent.pure ⟨fun e he => ?_, fun p hp => ?_⟩
    · have howned {listed : String × Provider}
          (hlisted : listed ∈ [(ownedName, Provider.store (Store.create config env (w.within e₁)))]) :
          listed.2.Settled := by
        rw [List.mem_singleton.mp hlisted]
        exact hstore
      -- In each mode the providers are the store, the log of the shell, or both.
      cases mode with
      | solo => exact howned he
      | shellOnly =>
        cases native with
        | none => exact howned he
        | some named => exact hnative e (List.mem_singleton.mp he ▸ rfl)
      | unified =>
        rcases List.mem_append.mp he with he | he
        · split at he
          · exact howned he
          · cases he
        · exact hnative e (Option.mem_toList.mp he)
    · rw [Option.mem_ite_none_left] at hp
      exact Option.some.inj hp.2 ▸ hstore

end Archive

end ShellAssist.History
