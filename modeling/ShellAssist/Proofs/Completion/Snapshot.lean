import ShellAssist.Completion.Completer
import ShellAssist.Proofs.Completion.SideBySide
import ShellAssist.Proofs.History.Snapshot
import ShellAssist.Proofs.Host.Ambient
import ShellAssist.Proofs.Text.Basic

namespace ShellAssist

/-!
# Completion for a snapshot of an environment

A completer is made for a snapshot of an environment that names a home directory. Variables, the
search path for commands, the history files and the lists of hosts then come from the snapshot. Of
the environment of the process it reads four things only: what a leading tilde stands for in a typed
path, what it stands for in the configured path of the external filter, the directories to look for the
filter in where the snapshot has no search path, and the zone in which old entries of the history are
dated.

* `Completion.Backend.indifferent_resolve`, `Ranker.indifferent_scoreMany`,
  `History.Archive.search_within` — the three sources of an answer;
* `Completion.Completer.Settled` — completers whose answers are the same for two processes;
* `Completion.Completer.Alike` — what two process environments have to agree on;
* `Completion.Completer.answers_create` — that nothing else of them matters.
-/

variable {e₁ e₂ env : Environment} {home : String}

/-- A path text names the same path in both processes, whatever users the system lists. -/
def Environment.SamePath (e₁ e₂ : Environment) (text : String) : Prop :=
  ∀ users, Environment.expandHome e₁ users text = Environment.expandHome e₂ users text

/-! ### Sources -/

namespace Completion

open Line (Context Slot)

variable {context : Context}

/-- The typed word names the same directory in both processes. -/
def SameDirectory (e₁ e₂ : Environment) (context : Context) : Prop :=
  Environment.SamePath e₁ e₂ (TypedPath.ofWord context.typed).directory

/-- Sources do not look at the environment of the process, but for a home directory. -/
theorem sameSources_oneWorld (e₁ e₂ : Environment) :
    SameSources (fun _ => false) (OneWorld e₁ e₂) where
  disk := by
    rintro _ _ ⟨w, rfl, rfl⟩
    rfl
  cwd := by
    rintro _ _ ⟨w, rfl, rfl⟩
    rfl
  processes := by
    rintro _ _ ⟨w, rfl, rfl⟩
    rfl
  nesting := by
    rintro _ _ ⟨w, rfl, rfl⟩
    rfl
  output _ _ _ := indifferent_iff_inStep.mp (indifferent_output _ _ _ _ _)

/-- The listed path is the same if the typed word names the same directory. -/
theorem searchedFor_oneWorld (h : SameDirectory e₁ e₂ context) (w₁ w₂ : World)
    (hw : OneWorld e₁ e₂ w₁ w₂) : searchedFor w₁ context = searchedFor w₂ context := by
  obtain ⟨w, rfl, rfl⟩ := hw
  rw [searchedFor, searchedFor, TypedPath.searched, TypedPath.searched, World.within_environment,
    World.within_environment, World.within_users, World.within_users, h w.users]

namespace Backend

/-- A backend is made for a snapshot. -/
theorem indifferent_create (config : Config) (env : Environment) :
    Indifferent e₁ e₂ (create config env) fun _ => True := by
  unfold create
  dsimp only
  split
  · exact Indifferent.pure trivial
  · split
    · exact Indifferent.pure trivial
    · exact (indifferent_noteMismatch _ _ _).bind fun _ _ => Indifferent.pure trivial

/-- What a backend finds for a request that brings a snapshot with a home directory. The lists of hosts
are those of that directory. -/
theorem indifferent_resolve (b : Backend)
    (henv : context.environment = some env) (hhome : Environment.filled? env "HOME" = some home)
    (h : context.slot = .path ∨ context.slot = .argument → SameDirectory e₁ e₂ context) :
    Indifferent e₁ e₂ (b.resolve context).run fun _ => True := by
  have hhosts (b : Backend) (w : World) : b.homeFor context w = home := by
    rw [homeFor, environmentOf, henv, Option.getD_some, hhome, Option.getD_some]
  refine indifferent_iff_inStep.mpr
    (b.inStep_resolve (sameSources_oneWorld e₁ e₂) context (fun b w₁ w₂ _ => ?_) fun hslot => ?_)
  · rw [hhosts, hhosts]
  · exact searchedFor_oneWorld (h hslot)

end Backend

end Completion

/-! ### Rankers -/

/-- Whether answers are scored by the external filter, if it can be found. -/
def Config.usesFilter (config : Config) : Bool :=
  let name := Text.lower ((config.fuzzyBackend.filter (· ≠ "")).getD "auto")
  config.fuzzySearch && (name = "fzf" || name = "auto")

namespace Filter

/-- The filter is looked for at the same places in both processes. -/
structure Settled (e₁ e₂ : Environment) (f : Filter) : Prop where
  searched : ∃ env home, f.environment = some env ∧ Environment.filled? env "HOME" = some home ∧
    searchPath env e₁ = searchPath env e₂
  configured : ∀ text ∈ f.configuredPath,
    Environment.SamePath e₁ e₂ text

variable {f : Filter}

/-- A program is one for all processes. -/
theorem isProgram_within (w : World) (e : Environment) : isProgram (w.within e) = isProgram w := by
  funext path
  simp only [isProgram, World.within_disk, World.within_cwd]

/-- An installed filter is found in the same search path, or in the snapshot's home directory. -/
theorem findInstalled_within (hhome : Environment.filled? env "HOME" = some home)
    (hsearched : searchPath env e₁ = searchPath env e₂) (w : World) :
    findInstalled (w.within e₂) env = findInstalled (w.within e₁) env := by
  simp only [findInstalled, isProgram_within, World.within_environment, hsearched, hhome,
    Option.getD_some]

/-- The filter is looked for at the configured path first. -/
theorem indifferent_find (h : f.Settled e₁ e₂) : Indifferent e₁ e₂ f.find fun _ => True := by
  obtain ⟨⟨env, home, henv, hhome, hsearched⟩, hconfigured⟩ := h
  unfold find
  simp only [henv, Option.getD_some]
  -- A configured path is expanded first; where it is no program the installed one is looked for.
  cases hpath : f.configuredPath.filter (· ≠ "") with
  | none =>
    refine Indifferent.get_bind (fun w => ?_) fun _ => Indifferent.pure trivial
    simp only [findInstalled_within hhome hsearched w]
  | some configured =>
    have hexpand := hconfigured configured (Option.filter_eq_some_iff.mp hpath).1
    refine Indifferent.get_bind (fun w => ?_) fun w => ?_
    · simp only [World.within_environment, World.within_users, hexpand w.users, isProgram_within,
        findInstalled_within hhome hsearched w]
    · dsimp only
      split
      · exact Indifferent.pure trivial
      · exact (indifferent_note _ _ _).bind fun _ _ => Indifferent.pure trivial

/-- Trying the filter does not change where it is looked for. -/
theorem indifferent_probe (h : f.Settled e₁ e₂) :
    Indifferent e₁ e₂ f.probe fun probed => probed.2.Settled e₁ e₂ := by
  unfold probe
  cases f.available with
  | some known => exact Indifferent.pure h
  | none =>
    refine (indifferent_find h).bind fun path _ => ?_
    -- What the probe finds out is remembered; the settings it was made with stay.
    have hknown (works : Bool) : Indifferent e₁ e₂
        (pure (works, { f with path, available := some works }) : StateM World (Bool × Filter))
        fun probed => probed.2.Settled e₁ e₂ :=
      Indifferent.pure ⟨h.searched, h.configured⟩
    cases path with
    | none => exact hknown false
    | some program =>
      refine Indifferent.bind (P := fun _ => True) ?_ fun answer _ => hknown answer.isSome
      exact Indifferent.orElse (indifferent_output _ _ _ _ _) none

/-- Nor does asking it. -/
theorem indifferent_scoreMany {σ : Type} [Scalar σ] (h : f.Settled e₁ e₂) (query : String)
    (texts : List String) :
    Indifferent e₁ e₂ (f.scoreMany (σ := σ) query texts) fun scored => scored.2.Settled e₁ e₂ := by
  unfold scoreMany
  refine (indifferent_probe h).bind fun probed hprobed => ?_
  obtain ⟨works, f⟩ := probed
  dsimp only
  split
  · split
    · exact Indifferent.pure hprobed
    · refine (indifferent_output _ _ _ _ _).bind fun output _ => ?_
      match output with
      | .error _ => exact Indifferent.pure hprobed
      | .ok none => exact Indifferent.pure ⟨hprobed.searched, hprobed.configured⟩
      | .ok (some _) => exact Indifferent.pure hprobed
  · exact Indifferent.pure hprobed

end Filter

/-- The external filter, where it is the scorer, is looked for at the same places in both
processes. -/
def Scorer.Settled (e₁ e₂ : Environment) : Scorer → Prop
  | .reference _ => True
  | .edits _ => True
  | .filter f => f.Settled e₁ e₂

/-- Only the filter has to be tried. -/
theorem Scorer.indifferent_probe {s : Scorer} (h : s.Settled e₁ e₂) :
    Indifferent e₁ e₂ s.probe fun probed => probed.2.Settled e₁ e₂ := by
  cases s with
  | reference settings => exact Indifferent.pure trivial
  | edits settings => exact Indifferent.pure trivial
  | filter f =>
    exact (Filter.indifferent_probe h).bind fun probed hprobed => Indifferent.pure hprobed

/-- Only the filter looks at the world to score texts. -/
theorem Scorer.indifferent_scoreMany {σ : Type} [Scalar σ] {s : Scorer} (h : s.Settled e₁ e₂)
    (query : String) (texts : List String) :
    Indifferent e₁ e₂ (s.scoreMany (σ := σ) query texts) fun scored =>
      scored.2.Settled e₁ e₂ := by
  cases s with
  | reference settings => exact Indifferent.pure trivial
  | edits settings => exact Indifferent.pure trivial
  | filter f =>
    exact (Filter.indifferent_scoreMany h query texts).bind fun scored hscored =>
      Indifferent.pure hscored

/-- A ranker is made for a snapshot; where it asks the external filter, the configured path and the
search path must be the same. -/
theorem Ranker.indifferent_create {config : Config}
    (hhome : Environment.filled? env "HOME" = some home)
    (hconfigured : config.usesFilter = true → ∀ text ∈ config.fzfPath,
      Environment.SamePath e₁ e₂ text)
    (hsearched : config.usesFilter = true →
      Filter.searchPath env e₁ = Filter.searchPath env e₂) :
    Indifferent e₁ e₂ (Ranker.create config (some env)) fun r =>
      config.fuzzySearch = true → r.primary.Settled e₁ e₂ := by
  unfold Ranker.create
  dsimp only
  cases hscorer : Scorer.create config (some env)
      ((config.fuzzyBackend.filter (· ≠ "")).getD "auto") with
  | ok primary =>
    refine Indifferent.pure fun hfuzzy => ?_
    unfold Scorer.create at hscorer
    dsimp only at hscorer
    split at hscorer
    · rw [← Except.ok.inj hscorer]
      trivial
    -- Only the name of the filter makes a scorer that reads the environment.
    · split at hscorer
      · rw [← Except.ok.inj hscorer]
        trivial
      · split at hscorer
        · rename_i hname
          have hfilter : config.usesFilter = true := by
            rw [Config.usesFilter, hfuzzy, Bool.true_and, hname]
          rw [← Except.ok.inj hscorer]
          exact ⟨⟨env, home, rfl, hhome, hsearched hfilter⟩, hconfigured hfilter⟩
        · cases hscorer
  | error failure =>
    exact (indifferent_noteMismatch _ _ _).bind fun _ _ => Indifferent.pure fun _ => trivial

/-- How texts are scored is up to the world, not to the environment in it. -/
theorem Ranker.indifferent_scoreMany {σ : Type} [Scalar σ] {r : Ranker}
    (h : r.primary.Settled e₁ e₂) (query : String) (texts : List String) :
    Indifferent e₁ e₂ (r.scoreMany (σ := σ) query texts) fun scored =>
      scored.2.primary.Settled e₁ e₂ := by
  unfold Ranker.scoreMany
  refine (Scorer.indifferent_probe h).bind fun probed hprobed => ?_
  obtain ⟨works, primary⟩ := probed
  dsimp only
  split
  · refine (Scorer.indifferent_scoreMany hprobed query texts).bind fun scored hscored => ?_
    obtain ⟨failure | results, primary⟩ := scored
    · exact Indifferent.pure hscored
    · exact Indifferent.pure hscored
  · exact Indifferent.pure hprobed

/-! ### Completers -/

namespace Completion

open Line (Context)

/-- The candidates of a source for a request that brings a snapshot with a home directory. -/
theorem Source.indifferent_resolve (source : Source) {context : Context}
    (henv : context.environment = some env) (hhome : Environment.filled? env "HOME" = some home)
    (h : context.slot = .path ∨ context.slot = .argument → SameDirectory e₁ e₂ context) :
    Indifferent e₁ e₂ (source.resolve context) fun _ => True := by
  cases source with
  | shell backend =>
    refine (backend.indifferent_resolve henv hhome h).bind fun result _ => ?_
    rcases result with failure | ⟨found, backend⟩
    · exact Indifferent.pure trivial
    · exact Indifferent.pure trivial
  | fixed s => exact Indifferent.pure trivial

/-- Entries have the same ages in the same zone. -/
theorem historyCandidates_within (hzone : Environment.get? e₁ "TZ" = Environment.get? e₂ "TZ")
    (w : World) : historyCandidates (w.within e₁) = historyCandidates (w.within e₂) := by
  funext entries
  simp only [historyCandidates, historyCandidate, historyDescription, World.millis,
    World.within_clock, World.within_offset w hzone]

namespace Completer

/-- A completer for a snapshot that finds its history and its filter at the same places in both
processes, and the same local time if it offers the history. -/
structure Settled (env e₁ e₂ : Environment) (c : Completer) : Prop where
  environment : c.environment = some env
  history : c.history.Settled
  ranker : c.config.fuzzySearch = true → c.ranker.primary.Settled e₁ e₂
  zone : c.config.historySuggestions = true →
    Environment.get? e₁ "TZ" = Environment.get? e₂ "TZ"

variable {c : Completer} (word : String) (context : Context)

/-- Asking the source leaves a completer settled. -/
theorem indifferent_sourceCandidates (hc : c.Settled env e₁ e₂)
    (henv : context.environment = some env) (hhome : Environment.filled? env "HOME" = some home)
    (h : context.slot = .path ∨ context.slot = .argument → SameDirectory e₁ e₂ context) :
    Indifferent e₁ e₂ (c.sourceCandidates context) fun found => found.2.Settled env e₁ e₂ := by
  unfold sourceCandidates
  split
  · refine (c.source.indifferent_resolve henv hhome h).bind fun found _ => ?_
    exact Indifferent.pure ⟨hc.environment, hc.history, hc.ranker, hc.zone⟩
  · exact Indifferent.pure hc

/-- The history gives the same candidates. -/
theorem recalled_within (hc : c.Settled env e₁ e₂) (w : World) :
    c.recalled word context (w.within e₁) = c.recalled word context (w.within e₂) := by
  unfold recalled
  split
  · rename_i hasked
    have hzone := hc.zone (Bool.and_eq_true_iff.mp hasked).1
    simp only [History.Archive.search_within hc.history, historyCandidates_within hzone]
  · rfl

/-- Asking the history leaves a completer settled. -/
theorem Settled.recalled (hc : c.Settled env e₁ e₂) (w : World) :
    (c.recalled word context w).2.Settled env e₁ e₂ := by
  unfold Completer.recalled
  split
  · exact ⟨hc.environment, hc.history.search w word (some historyLimit) none, hc.ranker, hc.zone⟩
  · exact hc

/-- So does ordering candidates. -/
theorem indifferent_order (hc : c.Settled env e₁ e₂) (candidates : List Candidate) :
    Indifferent e₁ e₂ (c.order word candidates) fun ordered => ordered.2.Settled env e₁ e₂ := by
  unfold order
  split
  · rename_i hfuzzy
    split
    · exact Indifferent.pure hc
    · have hranker := hc.ranker (Bool.and_eq_true_iff.mp hfuzzy).1
      refine (Ranker.indifferent_scoreMany hranker word _).bind fun scored hscored => ?_
      exact Indifferent.pure ⟨hc.environment, hc.history, fun _ => hscored, hc.zone⟩
  · exact Indifferent.pure hc

/-- What a step on a completer comes to is the same for both processes, and leaves the completer
settled. -/
def StepIndifferent {α : Type} (env e₁ e₂ : Environment) (step : World → Step α) : Prop :=
  ∀ w : World, ∃ (result : Except Failure α) (c' : Completer) (w' : World), c'.Settled env e₁ e₂ ∧
    step (w.within e₁) = (result, c', w'.within e₁) ∧
    step (w.within e₂) = (result, c', w'.within e₂)

/-- An answer that is not in the cache is made of the same parts. -/
theorem indifferent_compute (hc : c.Settled env e₁ e₂) (henv : context.environment = some env)
    (hhome : Environment.filled? env "HOME" = some home)
    (h : context.slot = .path ∨ context.slot = .argument → SameDirectory e₁ e₂ context) :
    StepIndifferent env e₁ e₂ (c.compute word context) := by
  intro w
  -- Source, history, ranking and cache in turn; each hands a settled completer to the next.
  obtain ⟨⟨failure | found, c'⟩, w', hc', hsource₁, hsource₂⟩ :=
    indifferent_sourceCandidates context hc henv hhome h w
  · refine ⟨.error failure, c', w', hc', ?_, ?_⟩
    · rw [compute, hsource₁]
    · rw [compute, hsource₂]
  · have hsame := recalled_within word context hc' w'
    have hc'' := hc'.recalled word context (w'.within e₂)
    rcases hrecalled : c'.recalled word context (w'.within e₂) with ⟨failure | remembered, c''⟩ <;>
      rw [hrecalled] at hc'' hsame
    · refine ⟨.error failure, c'', w', hc'', ?_, ?_⟩
      · simp only [compute, hsource₁, hsame]
      · simp only [compute, hsource₂, hrecalled]
    · obtain ⟨⟨failure | ordered, c₃⟩, w₃, hc₃, horder₁, horder₂⟩ :=
        indifferent_order word hc'' (found ++ remembered) w'
      · refine ⟨.error failure, c₃, w₃, hc₃, ?_, ?_⟩
        · simp only [compute, hsource₁, hsame, horder₁]
        · simp only [compute, hsource₂, hrecalled, horder₂]
      · let answer := truncate c₃.config.maxSuggestions ordered
        let cache := c₃.cache.put w₃.later.clock (CacheKey.ofContext word context) answer
        refine ⟨.ok answer, { c₃ with cache }, w₃.later,
          ⟨hc₃.environment, hc₃.history, hc₃.ranker, hc₃.zone⟩, ?_, ?_⟩
        · simp only [compute, hsource₁, hsame, horder₁, World.within_later, World.within_clock,
            answer, cache]
        · simp only [compute, hsource₂, hrecalled, horder₂, World.within_later, World.within_clock,
            answer, cache]

/-- So is an answer that may be in the cache. -/
theorem indifferent_getCompletions (hc : c.Settled env e₁ e₂)
    (henv : context.environment = some env) (hhome : Environment.filled? env "HOME" = some home)
    (h : context.slot = .path ∨ context.slot = .argument → SameDirectory e₁ e₂ context) :
    StepIndifferent env e₁ e₂ (c.getCompletions word context) := by
  intro w
  unfold getCompletions
  simp only [World.within_clock]
  rcases c.cache.get w.clock (CacheKey.ofContext word context) with ⟨_ | answer, cache⟩
  all_goals
    have hc : ({ c with cache } : Completer).Settled env e₁ e₂ :=
      ⟨hc.environment, hc.history, hc.ranker, hc.zone⟩
  · exact indifferent_compute word context hc henv hhome h w
  · exact ⟨.ok answer, { c with cache }, w, hc, rfl, rfl⟩

/-! ### Requests -/

/-- A request, and the world that it finds apart from the environment of the process. -/
structure Request where
  line : String
  cursor : Option Int
  cwd : Option String
  world : World

/-- What the line and the cursor of a request say. -/
def Request.classified (r : Request) : Context :=
  Line.classify r.line r.cursor "" none

/-- The answers of a completer in a process with this environment. -/
def answers (c : Completer) (e : Environment) : List Request → List (Except Failure (List Candidate))
  | [] => []
  | r :: rest =>
    let (answer, c, _) := c.complete r.line r.cursor r.cwd (r.world.within e)
    answer :: answers c e rest

/-- The process environments agree on what a completer for a snapshot reads of them to answer these
requests. -/
structure Alike (config : Config) (env e₁ e₂ : Environment) (requests : List Request) : Prop where
  /-- What a tilde in front of a path to be listed stands for. -/
  listed : ∀ r ∈ requests, r.classified.slot = .path ∨ r.classified.slot = .argument →
    SameDirectory e₁ e₂ r.classified
  /-- What a tilde in front of the configured path of the filter stands for. -/
  configured : config.usesFilter = true → ∀ text ∈ config.fzfPath,
    Environment.SamePath e₁ e₂ text
  /-- Where the filter is looked for. -/
  searched : config.usesFilter = true → Filter.searchPath env e₁ = Filter.searchPath env e₂
  /-- In which zone the entries of a history are dated. -/
  zone : config.historySuggestions = true → Environment.get? e₁ "TZ" = Environment.get? e₂ "TZ"

variable {config : Config} {requests : List Request}

/-- A completer is made settled. -/
theorem indifferent_create (source : Option Source)
    (hhome : Environment.filled? env "HOME" = some home)
    (hconfigured : config.usesFilter = true → ∀ text ∈ config.fzfPath,
      Environment.SamePath e₁ e₂ text)
    (hsearched : config.usesFilter = true → Filter.searchPath env e₁ = Filter.searchPath env e₂)
    (hzone : config.historySuggestions = true →
      Environment.get? e₁ "TZ" = Environment.get? e₂ "TZ") :
    Indifferent e₁ e₂ (create config (some env) source none) (Settled env e₁ e₂) := by
  -- However the source was come by, the archive and the ranker are made after it.
  have hrest (source : Source) : Indifferent e₁ e₂ (do
      let history ← History.Archive.create config env none
      let ranker ← Ranker.create config (some env)
      return { config, environment := some env, source, history, ranker
               cache := { ttl := config.cacheTtl } }) (Settled env e₁ e₂) := by
    refine (History.Archive.indifferent_create config hhome).bind fun history hhistory => ?_
    refine (Ranker.indifferent_create hhome hconfigured hsearched).bind fun ranker hranker => ?_
    exact Indifferent.pure ⟨rfl, hhistory, hranker, hzone⟩
  unfold create
  simp only [Option.getD_some]
  refine Indifferent.get_bind (fun _ => rfl) fun w => ?_
  cases source with
  | some given =>
    exact Indifferent.bind (P := fun _ => True) (Indifferent.pure trivial) fun source _ =>
      hrest source
  | none =>
    have hbackend : Indifferent e₁ e₂ (Backend.create config env) fun _ => True :=
      Backend.indifferent_create config env
    exact Indifferent.bind (P := fun _ => True) (Indifferent.map hbackend) fun source _ =>
      hrest source

/-- The answers of a settled completer to requests that read the same of both environments. -/
theorem answers_within (hc : c.Settled env e₁ e₂)
    (hhome : Environment.filled? env "HOME" = some home)
    (hlisted : ∀ r ∈ requests, r.classified.slot = .path ∨ r.classified.slot = .argument →
      SameDirectory e₁ e₂ r.classified) :
    c.answers e₁ requests = c.answers e₂ requests := by
  -- Every answer leaves a completer that is settled again, which is what the next request needs.
  induction requests generalizing c with
  | nil => rfl
  | cons r rest ih =>
    have hclassify (e : Environment) : c.classify r.line r.cursor r.cwd (r.world.within e)
        = c.classify r.line r.cursor r.cwd r.world := rfl
    rw [answers, answers, complete, complete, hclassify, hclassify]
    cases hcontext : c.classify r.line r.cursor r.cwd r.world with
    | error failure =>
      exact congrArg (.error failure :: ·) (ih hc fun r hr => hlisted r (List.mem_cons_of_mem _ hr))
    | ok context =>
      obtain ⟨directory, -, hcontext⟩ := bind_ok_iff.mp hcontext
      replace hcontext := Except.ok.inj hcontext
      have henv : context.environment = some env := hcontext ▸ hc.environment
      have hsame : context.slot = .path ∨ context.slot = .argument → SameDirectory e₁ e₂ context :=
        hcontext ▸ hlisted r List.mem_cons_self
      obtain ⟨answer, c', w', hc', h₁, h₂⟩ :=
        indifferent_getCompletions context.word context hc henv hhome hsame r.world
      dsimp only
      rw [h₁, h₂]
      exact congrArg (answer :: ·) (ih hc' fun r hr => hlisted r (List.mem_cons_of_mem _ hr))

/-- Nothing but the zone has to be the same where the snapshot has a search path and no path begins with
a tilde. -/
theorem alike_of_no_tilde {dirs : String} (hpath : Environment.get? env "PATH" = some dirs)
    (hfzf : ∀ text ∈ config.fzfPath, text.toList.head? ≠ some '~')
    (hlines : ∀ r ∈ requests, r.classified.typed.toList.head? ≠ some '~')
    (hzone : Environment.get? e₁ "TZ" = Environment.get? e₂ "TZ") :
    Alike config env e₁ e₂ requests := by
  have hexpand {text : String} (h : text.toList.head? ≠ some '~') :
      Environment.SamePath e₁ e₂ text := by
    have hplain (e : Environment) (users : Users) : Environment.expandHome e users text = text := by
      unfold Environment.expandHome
      split
      · rename_i rest hrest
        exact absurd (congrArg List.head? hrest) h
      · rfl
    intro users
    rw [hplain, hplain]
  refine ⟨fun r hr _ => ?_, fun _ text htext => ?_, fun _ => ?_, fun _ => hzone⟩
  -- A word that does not begin with a tilde names no directory that does.
  · have hdirectory : (TypedPath.ofWord r.classified.typed).directory.toList.head? ≠ some '~' := by
      have hline := hlines r hr
      intro htilde
      rw [TypedPath.ofWord, if_neg fun hlone => hline (by rw [hlone]; rfl)] at htilde
      refine hline ?_
      rw [← Text.throughLast_append_afterLast '/' r.classified.typed, String.toList_append,
        List.head?_append, htilde, Option.some_or]
    exact hexpand hdirectory
  · exact hexpand (hfzf text htext)
  · rw [Filter.searchPath, Filter.searchPath, hpath, Option.some_or, Option.some_or]

/-- The home directory, the search path and the zone are all that has to be the same. -/
theorem alike_of_same_home (hhome : Environment.get? e₁ "HOME" = Environment.get? e₂ "HOME")
    (hpath : Environment.get? e₁ "PATH" = Environment.get? e₂ "PATH")
    (hzone : Environment.get? e₁ "TZ" = Environment.get? e₂ "TZ") (config : Config)
    (env : Environment) (requests : List Request) : Alike config env e₁ e₂ requests := by
  have hexpand (text : String) : Environment.SamePath e₁ e₂ text := by
    intro users
    simp only [Environment.expandHome, Environment.homeOfName?, Environment.homeText, hhome]
  refine ⟨fun _ _ _ => hexpand _, fun _ _ _ => hexpand _, fun _ => ?_, fun _ => hzone⟩
  rw [Filter.searchPath, Filter.searchPath, hpath]

/-- **The snapshot decides, but for a leading tilde, the places where the filter is looked for and the
zone.** Where two process environments agree on what a completer for a snapshot reads of them, its answers to
any requests are the same in both processes. -/
theorem answers_create (source : Option Source)
    (hhome : Environment.filled? env "HOME" = some home) (h : Alike config env e₁ e₂ requests)
    (w : World) :
    (create config (some env) source none (w.within e₁)).1.answers e₁ requests
      = (create config (some env) source none (w.within e₂)).1.answers e₂ requests := by
  obtain ⟨c, w', hc, h₁, h₂⟩ :=
    indifferent_create source hhome h.configured h.searched h.zone w
  rw [h₁, h₂]
  exact answers_within hc hhome h.listed

/-- Two processes with other home directories and search paths, and a command in the directory of the
request. -/
theorem answers_create_of_snapshot :
    let env : Environment := [("HOME", "/a"), ("PATH", "/bin")]
    let e₁ : Environment := [("HOME", "/a"), ("PATH", "/usr/bin")]
    let e₂ : Environment := [("HOME", "/b")]
    let w : World := { disk := { nodes := [(["work"], ⟨.directory false, 1⟩),
      (["work", "fa"], ⟨.file [] false false, 2⟩)] } }
    let requests : List Request := [⟨"l", none, some "/work", w⟩, ⟨"cat ./f", none, some "/work", w⟩]
    Alike {} env e₁ e₂ requests ∧
      (create {} (some env) none none (w.within e₁)).1.answers e₁ requests
        = (create {} (some env) none none (w.within e₂)).1.answers e₂ requests := by
  intro env e₁ e₂ w requests
  have halike : Alike {} env e₁ e₂ requests :=
    alike_of_no_tilde rfl (by simp) (by decide) rfl
  exact ⟨halike, answers_create none rfl halike w⟩

/-- A path behind a tilde is listed in the home directory of the process. -/
theorem answers_create_tilde :
    let config : Config := {
      completionBackend := some "generic", fuzzyBackend := some "subsequence"
      historySuggestions := false }
    let env : Environment := [("HOME", "/a")]
    let w : World := { disk := { nodes := [(["a"], ⟨.directory false, 1⟩),
      (["a", "fa"], ⟨.file [] false false, 2⟩), (["b"], ⟨.directory false, 3⟩),
      (["b", "fb"], ⟨.file [] false false, 4⟩), (["work"], ⟨.directory false, 5⟩)] } }
    let request : Request := ⟨"cat ~/f", none, some "/work", w⟩
    let answers (e : Environment) :=
      (create config (some env) none none (w.within e)).1.answers e [request]
    (answers [("HOME", "/a")]).map (·.map (·.map (·.text))) = [.ok ["~/fa"]] ∧
      (answers [("HOME", "/b")]).map (·.map (·.map (·.text))) = [.ok ["~/fb"]] ∧
      answers [("HOME", "/a")] ≠ answers [("HOME", "/b")] := by
  intro config env w request answers
  have ha : (answers [("HOME", "/a")]).map (·.map (·.map (·.text))) = [.ok ["~/fa"]] := by
    decide +kernel
  have hb : (answers [("HOME", "/b")]).map (·.map (·.map (·.text))) = [.ok ["~/fb"]] := by
    decide +kernel
  refine ⟨ha, hb, fun hsame => ?_⟩
  rw [hsame, hb] at ha
  exact absurd ha (by decide)

end Completer

end Completion

end ShellAssist
