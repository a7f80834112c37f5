import ShellAssist.Proofs.Completion.Sources
import ShellAssist.Proofs.Host.Alongside

namespace ShellAssist.Completion

/-!
# Sources side by side

A source reads the files and the processes of its world, runs commands, and asks the environment of the
process for a home directory. In two worlds that are the same in this it comes to the same. Questions
to programs name what is wanted by words, never by a script.

* `isScript` — the commands that hand a program a script;
* `SameSources` — relations between worlds that are the same to a source;
* `Backend.inStep_resolved`, `Backend.inStep_arguments` — two backends that differ in their shells;
* `Backend.inStep_resolve` — a request comes to the same in related worlds;
* `Backend.onlyRuns_resolve` — and changes nothing but the commands that have been run.
-/

open Line (Context)

/-- Whether a program is handed a script to run. -/
def isScript (args : List String) : Bool :=
  args[1]? = some "-c" || args[1]? = some "-f"

/-! ### Questions -/

section Asking

variable {R : World → World → Prop} {ask : Query} {context : Context} {stem : String}
  (hask : ∀ args, isScript args = false → (ask args).InStep R (ask args))

include hask

/-- The references are what one question to git brings. -/
theorem Git.inStep_references :
    (references ask stem).InStep R (references ask stem) :=
  (hask _ (by decide)).bind fun _ => Action.InStep.pure _

/-- So are the changed files; whether one of them fails is up to its name. -/
theorem Git.inStep_changedFiles :
    (changedFiles ask stem).InStep R (changedFiles ask stem) := by
  refine (hask _ (by decide)).bind fun answer => Action.InStep.mapM ?_ _
  exact fun file => Action.InStep.ofExcept _

/-- A request for git asks at most two questions. -/
theorem Git.inStep_candidates : (candidates ask context).InStep R (candidates ask context) := by
  unfold candidates
  cases context.subcommand with
  | none => exact Action.InStep.pure _
  | some subcommand =>
    -- Both branches end with the changed files, whatever references were found before.
    have hfiles (refs : List Candidate) : Action.InStep R
        (do let files ← if fileSubcommands.contains subcommand then changedFiles ask context.typed
              else pure []
            return Candidate.distinct (refs ++ files))
        (do let files ← if fileSubcommands.contains subcommand then changedFiles ask context.typed
              else pure []
            return Candidate.distinct (refs ++ files)) := by
      dsimp only
      split
      · exact (inStep_changedFiles hask).bind fun _ => Action.InStep.pure _
      · exact (Action.InStep.pure _).bind fun _ => Action.InStep.pure _
    dsimp only
    split
    · exact (inStep_references hask).bind hfiles
    · exact (Action.InStep.pure _).bind hfiles

/-- A request for docker asks for containers or for images, whatever the subcommand takes. -/
theorem Docker.inStep_candidates :
    (candidates ask context).InStep R (candidates ask context) := by
  unfold candidates
  cases context.subcommand with
  | none => exact Action.InStep.pure _
  | some subcommand =>
    dsimp only
    split
    · exact (hask _ (by decide)).bind fun _ => Action.InStep.pure _
    · split
      · exact (hask _ (by decide)).bind fun _ => Action.InStep.pure _
      · exact Action.InStep.pure _

end Asking

/-! ### Related worlds -/

/-- The path of the directory that is listed for a request. -/
def searchedFor (w : World) (context : Context) : String :=
  (TypedPath.ofWord context.typed).searched w.environment w.users context.cwd

/-- The home directory whose lists of hosts are read for a request. -/
def Backend.homeFor (b : Backend) (context : Context) (w : World) : String :=
  (Environment.filled? (b.environmentOf context) "HOME").getD
    (Environment.home w.environment w.users)

/-- Related worlds hold the same files and processes, and commands that are not hidden come to the same
in them. -/
structure SameSources (hidden : List String → Bool) (R : World → World → Prop) : Prop where
  disk {w₁ w₂ : World} : R w₁ w₂ → w₁.disk = w₂.disk
  cwd {w₁ w₂ : World} : R w₁ w₂ → w₁.cwd = w₂.cwd
  processes {w₁ w₂ : World} : R w₁ w₂ → w₁.processes = w₂.processes
  nesting {w₁ w₂ : World} : R w₁ w₂ → w₁.nesting = w₂.nesting
  output {args : List String} (timeout : Option Number.Double) (cwd : Option String) :
    hidden args = false →
      (World.output args timeout cwd).InStep R (World.output args timeout cwd)

/-- Worlds that differ in the commands run so far are the same to a source. -/
theorem sameSources_alongside (hidden : List String → Bool) (v : World) (calls₁ calls₂ : List Call) :
    SameSources hidden (Alongside hidden v calls₁ calls₂) where
  disk := by
    rintro _ _ ⟨⟨_, _, rfl⟩, ⟨_, _, rfl⟩, -, -⟩
    rfl
  cwd := by
    rintro _ _ ⟨⟨_, _, rfl⟩, ⟨_, _, rfl⟩, -, -⟩
    rfl
  processes := by
    rintro _ _ ⟨⟨_, _, rfl⟩, ⟨_, _, rfl⟩, -, -⟩
    rfl
  nesting := by
    rintro _ _ ⟨⟨_, _, rfl⟩, ⟨_, _, rfl⟩, -, -⟩
    rfl
  output _ _ := inStep_output _ _ _ _ _

/-! ### Readings of the world -/

section Reading

variable {w₁ w₂ : World} (hdisk : w₁.disk = w₂.disk) (hcwd : w₁.cwd = w₂.cwd)

include hdisk hcwd

/-- A listing depends on the disk, the working directory and the path that is listed. -/
theorem listDirectory_congr {context : Context}
    (hsearched : searchedFor w₁ context = searchedFor w₂ context) (directoriesOnly : Bool) :
    listDirectory w₁ context directoriesOnly = listDirectory w₂ context directoriesOnly := by
  rw [searchedFor, searchedFor] at hsearched
  simp only [listDirectory, sortedEntries, hdisk, hcwd, hsearched]

/-- The programs of a search path depend on the disk alone, seen from the working directory. -/
theorem pathPrograms_congr (searchPath stem : String) :
    pathPrograms w₁ searchPath stem = pathPrograms w₂ searchPath stem := by
  have hdirectory : directoryPrograms w₁ = directoryPrograms w₂ := by
    funext directory
    rw [directoryPrograms, directoryPrograms, hdisk, hcwd]
  rw [pathPrograms, pathPrograms, hdirectory]

/-- So do the scripts of a package, read as deep as the stack goes. -/
theorem Npm.candidates_congr (hnesting : w₁.nesting = w₂.nesting) (context : Context) :
    candidates w₁ context = candidates w₂ context := by
  have hscripts : scripts w₁ context.cwd = scripts w₂ context.cwd := by
    unfold scripts
    rw [hdisk, hcwd, hnesting]
  rw [candidates, candidates, hscripts]

/-- So do the hosts of a home directory. -/
theorem Hosts.candidates_congr (home : Path) (stem : String) :
    candidates w₁ home stem = candidates w₂ home stem := by
  simp only [candidates, ofFile, hdisk, hcwd]

end Reading

namespace Backend

/-! ### Two backends -/

/-- Two backends that go by the same environment, the same time limit and the same resolvers. -/
structure SameSetting (b₁ b₂ : Backend) : Prop where
  environment : b₁.environment = b₂.environment
  timeout : b₁.timeout = b₂.timeout
  registry : b₁.registry = b₂.registry

variable {b₁ b₂ : Backend} {context : Context} {hidden : List String → Bool}
  {R : World → World → Prop}

/-- A backend has the setting that it has. -/
theorem SameSetting.refl (b : Backend) : b.SameSetting b :=
  ⟨rfl, rfl, rfl⟩

/-- In the same setting commands are run in the same way: only the time limit matters. -/
theorem SameSetting.ask_eq (h : b₁.SameSetting b₂) : b₁.ask = b₂.ask := by
  funext cwd args
  rw [ask, ask, h.timeout]

/-- In the same setting a request has the same environment. -/
theorem SameSetting.environmentOf_eq (h : b₁.SameSetting b₂) (context : Context) :
    b₁.environmentOf context = b₂.environmentOf context := by
  rw [environmentOf, environmentOf, h.environment]

/-- So it has the same variables. -/
theorem SameSetting.variableCandidates_eq (h : b₁.SameSetting b₂) (context : Context) :
    b₁.variableCandidates context = b₂.variableCandidates context := by
  rw [variableCandidates, variableCandidates, h.environmentOf_eq context]

section

variable (h : SameSources hidden R)

include h

/-- A command that is not hidden comes to the same in related worlds. -/
theorem inStep_ask (b : Backend) (cwd : Option String) {args : List String}
    (hargs : hidden args = false) : (b.ask cwd args).InStep R (b.ask cwd args) :=
  h.output _ _ hargs

/-- A listing comes to the same if a path leads to the same directory in related worlds. -/
theorem inStep_listDirectory
    (hsearched : ∀ w₁ w₂, R w₁ w₂ → searchedFor w₁ context = searchedFor w₂ context)
    (directoriesOnly : Bool) : Action.InStep R
      (do let w ← get; ExceptT.mk (pure (listDirectory w context directoriesOnly)))
      (do let w ← get; ExceptT.mk (pure (listDirectory w context directoriesOnly))) :=
  Action.InStep.read fun w₁ w₂ hw =>
    listDirectory_congr (h.disk hw) (h.cwd hw) (hsearched w₁ w₂ hw) directoriesOnly

variable (hset : b₁.SameSetting b₂)

include hset

/-- Whether only directories are listed is up to the resolvers, which are the same. -/
theorem inStep_paths
    (hsearched : ∀ w₁ w₂, R w₁ w₂ → searchedFor w₁ context = searchedFor w₂ context) :
    (b₁.paths context).InStep R (b₂.paths context) := by
  unfold paths
  rw [hset.registry]
  exact inStep_listDirectory h hsearched _

variable (hwords : ∀ args, isScript args = false → hidden args = false)

include hwords

/-- The options are those of a help text, which the command is asked for by a word. -/
theorem inStep_options : (b₁.options context).InStep R (b₂.options context) := by
  have hhelp : (b₁.helpOptions context context.typed).InStep R
      (b₂.helpOptions context context.typed) := by
    unfold helpOptions
    rw [hset.ask_eq]
    dsimp only
    split
    · exact Action.InStep.pure _
    · exact (b₂.inStep_ask h _ (hwords _ (by rfl))).bind fun _ => Action.InStep.pure _
  unfold options
  split
  · exact Action.InStep.pure _
  · exact hhelp.bind fun _ => Action.InStep.pure _

variable (hhome : ∀ (b : Backend) (w₁ w₂ : World), R w₁ w₂ →
    b.homeFor context w₁ = b.homeFor context w₂)
  (hdirectories : (b₁.directories context).InStep R (b₂.directories context))

include hhome hdirectories

/-- A resolver comes to the same, if the search for directories does. -/
theorem inStep_resolved (kind : ResolverKind) :
    (b₁.resolved kind context).InStep R (b₂.resolved kind context) := by
  -- Resolvers ask by words, so none of their questions is hidden.
  have hask (args : List String) (hargs : isScript args = false) :
      (b₂.ask (some context.cwd) args).InStep R (b₂.ask (some context.cwd) args) :=
    b₂.inStep_ask h _ (hwords args hargs)
  unfold resolved
  rw [hset.ask_eq, hset.environmentOf_eq]
  cases kind with
  | git => exact Action.InStep.get_bind fun _ _ _ => Git.inStep_candidates hask
  | npm =>
    exact Action.InStep.read fun _ _ hw =>
      Npm.candidates_congr (h.disk hw) (h.cwd hw) (h.nesting hw) context
  | docker =>
    exact Action.InStep.get_bind fun _ _ _ => Docker.inStep_candidates hask
  | processes =>
    exact Action.InStep.read fun _ _ hw =>
      congrArg (fun list => Except.ok (processCandidates list context.typed)) (h.processes hw)
  | hosts =>
    refine Action.InStep.read fun w₁ w₂ hw => ?_
    have hhome := hhome b₂ w₁ w₂ hw
    rw [homeFor, homeFor] at hhome
    rw [hhome]
    exact Hosts.candidates_congr (h.disk hw) (h.cwd hw) _ _
  | directories => exact Action.InStep.get_bind fun _ _ _ => hdirectories
  | fixed candidates => exact Action.InStep.get_bind fun _ _ _ => Action.InStep.pure _
  | failing => exact Action.InStep.get_bind fun _ _ _ => Action.InStep.throw _

/-- The arguments are those of the resolver, where it does not fail, and files. -/
theorem inStep_arguments
    (hsearched : ∀ w₁ w₂, R w₁ w₂ → searchedFor w₁ context = searchedFor w₂ context) :
    (b₁.arguments context).InStep R (b₂.arguments context) := by
  unfold arguments
  rw [hset.registry]
  dsimp only
  split
  · exact inStep_listDirectory h hsearched false
  · rename_i resolver _
    refine (Action.InStep.lift (Action.InStep.orElse
      (inStep_resolved h hset hwords hhome hdirectories resolver.kind) [])).bind fun found => ?_
    split
    · exact (inStep_listDirectory h hsearched false).bind fun _ => Action.InStep.pure _
    · exact Action.InStep.pure _

end

/-! ### One backend -/

section

variable (b : Backend) (h : SameSources (fun _ => false) R)

include h

/-- A backend tries its shell in the same way wherever it is. -/
theorem inStep_prepare : b.prepare.InStep R b.prepare := by
  unfold prepare
  split
  · exact Action.InStep.pure _
  · split
    · exact Action.InStep.pure _
    · exact (b.inStep_ask h _ rfl).bind fun _ => Action.InStep.pure _

/-- Bash names the same in related worlds. -/
theorem inStep_compgen (action word : String) (context : Context) :
    (b.compgen action word context).InStep R (b.compgen action word context) := by
  unfold compgen
  split
  · exact (b.inStep_ask h _ rfl).bind fun _ => Action.InStep.pure _
  · exact Action.InStep.pure _

/-- The commands are builtin ones, the programs of the search path, and those that the shell names. -/
theorem inStep_commands (context : Context) :
    (b.commands context).InStep R (b.commands context) := by
  have hnative (stem : String) :
      (b.nativeCommands context stem).InStep R (b.nativeCommands context stem) := by
    unfold nativeCommands
    cases b.family with
    | generic => exact Action.InStep.pure _
    | bash =>
      simp only [pure_bind]
      exact (b.inStep_compgen h _ _ _).bind fun _ => Action.InStep.pure _
    | zsh =>
      simp only [pure_bind]
      split
      · exact (b.inStep_ask h _ rfl).bind fun _ => Action.InStep.pure _
      · exact Action.InStep.pure _
  unfold commands
  -- The search path is read in both worlds; only the disk and the directory enter it.
  refine Action.InStep.get_bind fun w₁ w₂ hw => ?_
  dsimp only
  rw [pathPrograms_congr (h.disk hw) (h.cwd hw)]
  refine (Action.InStep.ofExcept _).bind fun programs => ?_
  exact (hnative _).bind fun _ => Action.InStep.pure _

/-- The directories are those that bash names, or those of the listing. -/
theorem inStep_directories
    (hsearched : ∀ w₁ w₂, R w₁ w₂ → searchedFor w₁ context = searchedFor w₂ context) :
    (b.directories context).InStep R (b.directories context) := by
  unfold directories
  split
  · refine (b.inStep_compgen h _ _ _).bind fun names => ?_
    cases names with
    | none => exact inStep_listDirectory h hsearched true
    | some names => exact Action.InStep.pure _
  · rw [pure_bind]
    exact inStep_listDirectory h hsearched true

/-- **A request comes to the same in related worlds**, if a path leads to the same directory in them. -/
theorem inStep_resolve (context : Context)
    (hhome : ∀ (b : Backend) (w₁ w₂ : World), R w₁ w₂ →
      b.homeFor context w₁ = b.homeFor context w₂)
    (hsearched : context.slot = .path ∨ context.slot = .argument →
      ∀ w₁ w₂, R w₁ w₂ → searchedFor w₁ context = searchedFor w₂ context) :
    (b.resolve context).InStep R (b.resolve context) := by
  refine (b.inStep_prepare h).bind fun b => ?_
  have hself := SameSetting.refl b
  have hslot : (b.candidatesFor context context.slot).InStep R
      (b.candidatesFor context context.slot) := by
    cases hslot : context.slot with
    | «variable» => exact Action.InStep.pure _
    | path => exact inStep_paths h hself (hsearched (.inl hslot))
    | option => exact inStep_options h hself fun _ _ => rfl
    | command => exact b.inStep_commands h context
    | argument =>
      have hsearched := hsearched (.inr hslot)
      exact inStep_arguments h hself (fun _ _ => rfl) hhome (b.inStep_directories h hsearched) hsearched
  -- A slot that fails has no candidates, so nothing behind the trial of the shell can fail.
  exact (Action.InStep.lift (Action.InStep.orElse hslot [])).bind fun _ => Action.InStep.pure _

end

/-! ### What is left after a request -/

variable {v : World} {calls₁ calls₂ : List Call}

/-- The listed path is up to the environment, which no command changes. -/
theorem searchedFor_alongside (context : Context) (w₁ w₂ : World)
    (hw : Alongside hidden v calls₁ calls₂ w₁ w₂) :
    searchedFor w₁ context = searchedFor w₂ context := by
  rw [searchedFor, searchedFor, hw.environment_eq, hw.users_eq]

/-- So is the home directory of a request. -/
theorem homeFor_alongside (context : Context) (b : Backend) (w₁ w₂ : World)
    (hw : Alongside hidden v calls₁ calls₂ w₁ w₂) :
    b.homeFor context w₁ = b.homeFor context w₂ := by
  rw [homeFor, homeFor, hw.environment_eq, hw.users_eq]

/-- Trying its shell, a backend changes nothing but the commands that have been run. -/
theorem onlyRuns_prepare (b : Backend) : OnlyRuns b.prepare.run :=
  OnlyRuns.of_inStep fun _ => b.inStep_prepare (sameSources_alongside _ _ _ _)

/-- Nor does a resolver. -/
theorem onlyRuns_resolved (b : Backend) (kind : ResolverKind) (context : Context) :
    OnlyRuns ((b.resolved kind context).orElse []) := by
  refine OnlyRuns.of_inStep fun _ => Action.InStep.orElse ?_ []
  have h := sameSources_alongside (fun _ => false)
  exact inStep_resolved (h _ _ _) (SameSetting.refl b) (fun _ _ => rfl) (homeFor_alongside context)
    (b.inStep_directories (h _ _ _) (searchedFor_alongside context)) kind

/-- Nor does the answer to a request. -/
theorem onlyRuns_resolve (b : Backend) (context : Context) : OnlyRuns (b.resolve context).run :=
  OnlyRuns.of_inStep fun _ => b.inStep_resolve (sameSources_alongside _ _ _ _) context
    (homeFor_alongside context) fun _ => searchedFor_alongside context

end Backend

end ShellAssist.Completion
