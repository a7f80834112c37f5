import ShellAssist.Proofs.Completion.SideBySide
import ShellAssist.Proofs.Text.Sort

namespace ShellAssist.Completion

/-!
# Shells that cannot be asked

A backend for a shell that does not answer is the generic backend, with more builtin commands: it
tries its shell once, and from then on all its answers are those of the generic backend but for the
names of these commands. Both run the same commands meanwhile, and none of them is a script.

* `SameAnswer` — answers that agree but for the builtin commands of one family;
* `Backend.Unaided` — a backend that has found out that its shell does not answer, and a generic one;
* `Backend.sameAnswer_resolve` — their answers to a request agree;
* `Backend.resolveAll_of_refused` — so do those to any requests, one after the other.
-/

open Line (Context Slot)

/-- Two requests for the same are both answered, and their answers agree. Where a command is completed,
texts that are names of builtin commands of this family alone are left out of both. -/
def SameAnswer (family : Family) (a₁ a₂ : Context × Except Failure (List Candidate)) : Prop :=
  a₁.1 = a₂.1 ∧ ∃ found₁ found₂, a₁.2 = .ok found₁ ∧ a₂.2 = .ok found₂ ∧
    if a₁.1.slot = .command then
      found₁.filter (fun c => c.text ∉ family.extraBuiltins)
        = found₂.filter fun c => c.text ∉ family.extraBuiltins
    else found₁ = found₂

namespace Backend

variable {b g : Backend} {context : Context} {w w₁ w₂ v : World} {calls₁ calls₂ : List Call}

/-! ### Without the shell -/

/-- A bash that does not answer names nothing. -/
theorem compgen_of_native_ne (h : b.native ≠ some true) (action word : String)
    (context : Context) : b.compgen action word context = pure none := by
  rw [compgen, if_neg h]

/-- Only a shell that answers knows commands. -/
theorem nativeCommands_eq_nil (h : b.family = .generic ∨ b.native ≠ some true) (context : Context)
    (stem : String) : b.nativeCommands context stem = pure [] := by
  have hnone : Candidate.ofNames (Text.sort (Text.distinct [])) stem "command" .command 5 = [] := by
    rw [Text.sort, Text.distinct, List.foldl_nil, List.mergeSort_nil]
    rfl
  unfold nativeCommands
  cases hfamily : b.family with
  | generic => simp only [pure_bind, hnone]
  | bash =>
    have hnative := h.resolve_left (by simp [hfamily])
    simp only [compgen_of_native_ne hnative, pure_bind, Option.getD_none, hnone]
  | zsh =>
    have hnative := h.resolve_left (by simp [hfamily])
    simp only [if_neg hnative, pure_bind, hnone]

/-- Directories are looked up on the disk, unless bash answers. -/
theorem directories_eq_listing (h : b.family ≠ .bash ∨ b.native ≠ some true)
    (context : Context) : b.directories context = (do
      let w ← get
      ExceptT.mk (pure (listDirectory w context true))) := by
  unfold directories
  cases hfamily : b.family with
  | generic => simp only [pure_bind]
  | bash =>
    have hnative := h.resolve_left (not_not.mpr hfamily)
    simp only [compgen_of_native_ne hnative, pure_bind]
  | zsh => simp only [pure_bind]

/-- The builtin commands that a typed command can become. -/
def builtinCandidates (family : Family) (context : Context) : List Candidate :=
  Candidate.ofNames (Text.sort (Text.distinct family.builtins)) context.typed "builtin" .command 10

/-- The programs that a typed command can become. -/
def programCandidates (b : Backend) (context : Context) (w : World) :
    Except Failure (List Candidate) :=
  let searchPath := (Environment.get? (b.environmentOf context) "PATH").getD ""
  (pathPrograms w searchPath context.typed).map (·.map fun (name, path) =>
    { text := name, description := "command", category := .command, priority := 5
      metadata := [("path", .str path)] })

/-- Without an answer of the shell, the commands are builtin commands and programs. None are found
if the search path cannot be read. -/
theorem orElse_commands (h : b.family = .generic ∨ b.native ≠ some true) (context : Context)
    (w : World) : (b.commands context).orElse [] w = (match b.programCandidates context w with
      | .ok programs => builtinCandidates b.family context ++ programs
      | .error _ => [], w) := by
  unfold commands programCandidates
  simp only [nativeCommands_eq_nil h, Action.orElse, Action.bind_run, Action.get_run,
    Action.ofExcept_run]
  cases pathPrograms w ((Environment.get? (b.environmentOf context) "PATH").getD "")
      context.typed with
  | error failure => rfl
  | ok programs =>
    refine congrArg (fun found => (found, w)) ?_
    exact List.append_nil _

/-- The search path holds the same programs in worlds alongside each other. -/
theorem programCandidates_eq (h : b.SameSetting g) (context : Context)
    (hw : Alongside isScript v calls₁ calls₂ w₁ w₂) :
    b.programCandidates context w₁ = g.programCandidates context w₂ := by
  have hsources := sameSources_alongside isScript v calls₁ calls₂
  simp only [programCandidates, h.environmentOf_eq,
    pathPrograms_congr (hsources.disk hw) (hsources.cwd hw)]

/-! ### One request -/

/-- The first is a backend that has tried its shell in vain, the second a generic one in the same
setting that has been asked before. -/
structure Unaided (b g : Backend) : Prop where
  setting : b.SameSetting g
  generic : g.family = .generic
  refused : b.native ≠ some true
  tried : b.initialized = true
  ready : g.initialized = true

/-- A backend that has been asked before always answers. -/
theorem resolve_of_initialized (h : b.initialized = true) (context : Context) (w : World) :
    b.resolve context w
      = (.ok (Candidate.distinct ((b.candidatesFor context context.slot).orElse [] w).1, b),
        ((b.candidatesFor context context.slot).orElse [] w).2) := by
  have hprepare : b.prepare = pure b := by rw [prepare, if_pos h]
  rw [resolve, hprepare, pure_bind, Action.bind_run, Action.lift_run]
  rfl

/-- Except for commands, both backends find the same candidates. -/
theorem Unaided.inStep_candidatesFor (h : b.Unaided g) (context : Context) {slot : Slot}
    (hslot : slot ≠ .command) : (b.candidatesFor context slot).InStep
      (Alongside isScript v calls₁ calls₂) (g.candidatesFor context slot) := by
  have hsources := sameSources_alongside isScript v calls₁ calls₂
  have hsearched (w₁ w₂ : World) (hw : Alongside isScript v calls₁ calls₂ w₁ w₂) :
      searchedFor w₁ context = searchedFor w₂ context := searchedFor_alongside context w₁ w₂ hw
  -- A shell that refuses is asked for directories in vain, so both list the disk.
  have hdirectories : (b.directories context).InStep (Alongside isScript v calls₁ calls₂)
      (g.directories context) := by
    rw [directories_eq_listing (.inr h.refused),
      directories_eq_listing (.inl (by rw [h.generic]; nofun))]
    exact inStep_listDirectory hsources hsearched true
  cases slot with
  | command => exact absurd rfl hslot
  | argument =>
    exact inStep_arguments hsources h.setting (fun _ hargs => hargs) (homeFor_alongside context)
      hdirectories hsearched
  | option => exact inStep_options hsources h.setting fun _ hargs => hargs
  | path => exact inStep_paths hsources h.setting hsearched
  | «variable» =>
    show Action.InStep _ (pure (b.variableCandidates context)) (pure (g.variableCandidates context))
    rw [h.setting.variableCandidates_eq]
    exact Action.InStep.pure _

/-- The builtin commands of every shell are listed alike, whatever others stand among them. -/
theorem filter_builtinCandidates (family : Family) (context : Context) :
    (builtinCandidates family context).filter (fun c => c.text ∉ family.extraBuiltins)
      = (builtinCandidates .generic context).filter fun c => c.text ∉ family.extraBuiltins := by
  have hnames (names : List String) : (Candidate.ofNames names context.typed "builtin" .command
      10).filter (fun c => c.text ∉ family.extraBuiltins)
      = Candidate.ofNames (names.filter (· ∉ family.extraBuiltins)) context.typed "builtin" .command
          10 := by
    rw [Candidate.ofNames, Candidate.ofNames, List.filter_map, List.filter_comm]
    rfl
  have hextra : family.extraBuiltins.filter (· ∉ family.extraBuiltins) = [] := by
    rw [List.filter_eq_nil_iff]
    intro name hname
    simpa using hname
  -- The families share a list of builtin names and differ in what they add behind it.
  have hcommon : family.builtins.filter (· ∉ family.extraBuiltins)
      = Family.generic.builtins.filter (· ∉ family.extraBuiltins) := by
    show (Family.commonBuiltins ++ family.extraBuiltins).filter _
      = (Family.commonBuiltins ++ []).filter _
    rw [List.filter_append, hextra, List.append_nil, List.append_nil]
  rw [builtinCandidates, builtinCandidates, hnames, hnames, Text.filter_sort, Text.filter_sort,
    Text.filter_distinct, Text.filter_distinct, hcommon]

/-- **One request**: both backends answer it alike and run the same commands for it. -/
theorem Unaided.resolve (h : b.Unaided g) (context : Context)
    (hw : Alongside isScript v calls₁ calls₂ w₁ w₂) :
    ∃ found₁ found₂ w₁' w₂', b.resolve context w₁ = (.ok (found₁, b), w₁') ∧
      g.resolve context w₂ = (.ok (found₂, g), w₂') ∧
      SameAnswer b.family (context, .ok found₁) (context, .ok found₂) ∧
      Alongside isScript v calls₁ calls₂ w₁' w₂' := by
  refine ⟨_, _, _, _, resolve_of_initialized h.tried context w₁,
    resolve_of_initialized h.ready context w₂, ⟨rfl, _, _, rfl, rfl, ?_⟩, ?_⟩
  · by_cases hslot : context.slot = .command
    · have hkeep := Candidate.filter_distinct fun text => text ∉ b.family.extraBuiltins
      rw [if_pos hslot]
      simp only [hslot, candidatesFor, orElse_commands (.inr h.refused),
        orElse_commands (.inl h.generic), programCandidates_eq h.setting context hw, h.generic]
      refine (hkeep _).trans (Eq.trans (congrArg Candidate.distinct ?_) (hkeep _).symm)
      cases g.programCandidates context w₂ with
      | error failure => rfl
      | ok programs =>
        dsimp only
        rw [List.filter_append, List.filter_append, filter_builtinCandidates b.family]
    · rw [if_neg hslot]
      exact congrArg Candidate.distinct
        (Action.InStep.orElse (h.inStep_candidatesFor context hslot) [] w₁ w₂ hw).1
  · by_cases hslot : context.slot = .command
    · -- Looking up commands leaves both worlds as they are.
      simp only [hslot, candidatesFor, orElse_commands (.inr h.refused),
        orElse_commands (.inl h.generic)]
      exact hw
    · exact (Action.InStep.orElse (h.inStep_candidatesFor context hslot) [] w₁ w₂ hw).2

/-! ### Requests one after the other -/

/-- The answers to requests one after the other. After one without an answer the backend is asked again
as it was. -/
def resolveAll (b : Backend) :
    List Context → StateM World (List (Context × Except Failure (List Candidate)))
  | [] => return []
  | context :: rest => do
    match ← (b.resolve context).run with
    | .ok (found, b) =>
      let answers ← b.resolveAll rest
      return (context, .ok found) :: answers
    | .error failure =>
      let answers ← b.resolveAll rest
      return (context, .error failure) :: answers

/-- A request that is answered stands in front of the others. -/
theorem resolveAll_cons {b' : Backend} {found : List Candidate} {w' : World}
    (h : b.resolve context w = (.ok (found, b'), w')) (rest : List Context) :
    b.resolveAll (context :: rest) w
      = ((context, .ok found) :: (b'.resolveAll rest w').1, (b'.resolveAll rest w').2) := by
  rw [resolveAll, bind_run, ExceptT.run, h]
  rfl

/-- **Any requests**: both backends answer them alike and run the same commands for them. -/
theorem Unaided.resolveAll (h : b.Unaided g) (contexts : List Context)
    (hw : Alongside isScript v calls₁ calls₂ w₁ w₂) :
    List.Forall₂ (SameAnswer b.family) (b.resolveAll contexts w₁).1 (g.resolveAll contexts w₂).1 ∧
      Alongside isScript v calls₁ calls₂ (b.resolveAll contexts w₁).2
        (g.resolveAll contexts w₂).2 := by
  induction contexts generalizing w₁ w₂ with
  | nil => exact ⟨.nil, hw⟩
  | cons context rest ih =>
    obtain ⟨found₁, found₂, w₁', w₂', hb, hg, hfound, hworlds⟩ := h.resolve context hw
    obtain ⟨hanswers, hworlds⟩ := ih hworlds
    rw [resolveAll_cons hb, resolveAll_cons hg]
    exact ⟨.cons hfound hanswers, hworlds⟩

/-! ### Trying the shell -/

/-- The command that a new backend runs before anything else, if its family has a shell to try. -/
def trials (b : Backend) : List Call :=
  b.detection.toList.map fun args => { args, cwd := none, timeout := some b.timeout, input := none }

/-- The shell is tried by a script. -/
theorem isScript_of_detection {args : List String} (h : b.detection = some args) :
    isScript args = true := by
  unfold detection at h
  split at h
  · cases h
  · rw [← Option.some.inj h]
    rfl
  · rw [← Option.some.inj h]
    rfl

/-- A shell that refuses is tried once, which only the calls show. -/
theorem prepare_of_refused (hnew : b.initialized = false) (hnative : b.native = none)
    (hrefused : ∀ args ∈ b.detection, (b.ask none args w).1 = .ok none) :
    ∃ w', b.prepare w
        = (.ok { b with initialized := true, native := b.detection.map fun _ => false }, w') ∧
      Alongside isScript w (b.trials ++ w.calls) w.calls w' w := by
  unfold prepare trials
  rw [if_neg (by rw [hnew]; decide)]
  cases hdetection : b.detection with
  | none =>
    refine ⟨w, ?_, Alongside.refl isScript w⟩
    show (Except.ok { b with initialized := true }, w)
      = (.ok { b with initialized := true, native := none }, w)
    rw [hnative]
  -- The trial is in the log of the calls and nowhere else.
  | some args =>
    refine ⟨(b.ask none args w).2, ?_,
      alongside_output _ _ _ _ _ (isScript_of_detection hdetection) w⟩
    dsimp only
    rw [Action.bind_run, show b.ask none args w = (.ok none, (b.ask none args w).2) from
      Prod.ext (hrefused args hdetection) rfl]
    rfl

/-- The first request is answered by the backend that has tried its shell. -/
theorem resolveAll_of_prepare {b' : Backend} {w' : World} (hprepare : b.prepare w = (.ok b', w'))
    (htried : b'.initialized = true) (context : Context) (rest : List Context) :
    b.resolveAll (context :: rest) w = b'.resolveAll (context :: rest) w' := by
  have hanswer := resolve_of_initialized htried context w'
  have hresolve : b.resolve context w = b'.resolve context w' := by
    rw [hanswer, resolve, Action.bind_run, hprepare]
    rfl
  rw [resolveAll_cons (hresolve.trans hanswer), resolveAll_cons hanswer]

/-- Every request has its answer in its place. -/
theorem map_fst_resolveAll (b : Backend) (contexts : List Context) (w : World) :
    (b.resolveAll contexts w).1.map (·.1) = contexts := by
  induction contexts generalizing b w with
  | nil => rfl
  | cons context rest ih =>
    rw [resolveAll, bind_run, ExceptT.run]
    rcases b.resolve context w with ⟨failure | ⟨found, b'⟩, w'⟩
    · exact congrArg (context :: ·) (ih b w')
    · exact congrArg (context :: ·) (ih b' w')

/-- **Without an answer of its shell a backend is the generic one.** Where the command that tries the
shell gives no output, each of any requests is answered as by a generic backend with the same
configuration, environment and resolvers, but for the builtin commands of the family. The shell is tried
once, before the first request; everything else that is run is run by the generic backend as well, and
no program is handed a script. -/
theorem resolveAll_of_refused (family : Family) (shell₁ shell₂ : String) (config : Config)
    (environment : Environment) (registry : Registry) (contexts : List Context) (w : World)
    (hrefused : ∀ args ∈ (ofFamily family shell₁ config environment).detection,
      (World.output args (some config.commandTimeout) none none [0] w).1 = .ok none) :
    let b := { ofFamily family shell₁ config environment with registry }
    let g := { ofFamily .generic shell₂ config environment with registry }
    (b.resolveAll contexts w).1.map (·.1) = contexts ∧
      List.Forall₂ (SameAnswer family) (b.resolveAll contexts w).1 (g.resolveAll contexts w).1 ∧
      Alongside isScript w (if contexts = [] then w.calls else b.trials ++ w.calls) w.calls
        (b.resolveAll contexts w).2 (g.resolveAll contexts w).2 := by
  intro b g
  refine ⟨b.map_fst_resolveAll contexts w, ?_⟩
  cases contexts with
  | nil => exact ⟨.nil, Alongside.refl isScript w⟩
  | cons context rest =>
    obtain ⟨w', hb, hworlds⟩ := @prepare_of_refused b w rfl rfl hrefused
    have hg : g.prepare w = (.ok { g with initialized := true }, w) := rfl
    -- After its trial the shell is known not to answer, which is all the generic one knows.
    have hunaided : Unaided
        { b with initialized := true, native := b.detection.map fun _ => false }
        { g with initialized := true } := by
      refine ⟨⟨rfl, rfl, rfl⟩, rfl, ?_, rfl, rfl⟩
      cases b.detection <;> nofun
    rw [if_neg (List.cons_ne_nil _ _), resolveAll_of_prepare hb rfl, resolveAll_of_prepare hg rfl]
    exact hunaided.resolveAll (context :: rest) hworlds

/-- A program with the name of a builtin command of bash alone, as a command and as a file. -/
theorem resolveAll_of_refused_history :
    let w : World := { disk := { nodes := [(["bin"], ⟨.directory false, 1⟩),
      (["bin", "history"], ⟨.file [] true false, 2⟩)] } }
    let contexts := [Line.classify "hist" none "/bin" none, Line.classify "cat hist" none "/bin" none]
    let b := { ofFamily .bash "bash" {} [("PATH", "/bin")] with registry := [] }
    let g := { ofFamily .generic "sh" {} [("PATH", "/bin")] with registry := [] }
    (World.answer ["bash", "-c", "compgen -A command ls"] w.commands).1 = .notRunnable ∧
      List.Forall₂ (SameAnswer .bash) (b.resolveAll contexts w).1 (g.resolveAll contexts w).1 ∧
      (b.resolveAll contexts w).1[1]?.map (fun a => a.2.map (·.map (·.text)))
        = some (.ok ["history"]) ∧
      (b.resolveAll contexts w).2.calls.map (·.args) = [["bash", "-c", "compgen -A command ls"]] := by
  intro w contexts b g
  have hrefused : ∀ args ∈ (ofFamily .bash "bash" {} [("PATH", "/bin")]).detection,
      (World.output args (some ({} : Config).commandTimeout) none none [0] w).1 = .ok none := by
    rintro _ ⟨⟩
    decide
  obtain ⟨-, hanswers, -⟩ := resolveAll_of_refused .bash "bash" "sh" {} [("PATH", "/bin")] []
    contexts w hrefused
  exact ⟨rfl, hanswers, by decide +kernel, by decide +kernel⟩

end Backend

end ShellAssist.Completion
