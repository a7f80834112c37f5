import ShellAssist.Proofs.Completion.Sources
import ShellAssist.Proofs.Line.Quoting

namespace ShellAssist.Completion

/-!
# What a backend offers

A backend asks the sources that a slot has and keeps the first candidate of every text. A source
that fails contributes nothing, so there is always an answer, and each of its candidates comes from
one of a few kinds of sources.

* `Offered` — the kinds, each with what is known of its candidates;
* `Backend.finds_resolve` — every candidate of an answer is of one of them.
-/

open Line (Context Slot)

variable {registry : Registry} {b : Backend} {context : Context} {d : Disk} {c : Candidate}

/-! ### Slots by their words -/

/-- The word in the place of a variable begins with its mark. -/
theorem word_of_slot_variable (h : context.slot = .variable) :
    ∃ typed, context.word.toList = '$' :: typed := by
  unfold Context.slot Slot.ofWord at h
  split at h
  · rename_i hmark
    obtain ⟨typed, htyped⟩ := Text.startsWith_iff.mp hmark
    exact ⟨typed, htyped.symm⟩
  · repeat' split at h
    all_goals cases h

/-- The word in the place of an argument has no slash, so it is no path. -/
theorem word_of_slot_argument (h : context.slot = .argument) : '/' ∉ context.word.toList := by
  unfold Context.slot Slot.ofWord at h
  split at h
  · cases h
  · split at h
    · cases h
    · split at h
      · cases h
      · rename_i hpath
        rw [Bool.or_eq_true, not_or, Text.contains_iff, show "/".toList = ['/'] from rfl,
          List.singleton_infix_iff] at hpath
        exact hpath.1

/-! ### Kinds of sources -/

/-- The command's resolver always gives this candidate. -/
def Registry.Supplies (registry : Registry) (context : Context) (c : Candidate) : Prop :=
  ∃ resolver candidates, registry.find? context.commandName = some resolver ∧
    resolver.kind = .fixed candidates ∧ c ∈ candidates

/-- A registry without candidates of its own supplies none. -/
theorem Registry.not_supplies
    (h : ∀ resolver ∈ registry, ∀ candidates, resolver.kind ≠ .fixed candidates) :
    ¬ registry.Supplies context c := by
  rintro ⟨resolver, candidates, hfind, hkind, -⟩
  obtain ⟨written, -, hfind⟩ := Option.bind_eq_some_iff.mp hfind
  exact h resolver (List.mem_of_find?_eq_some hfind) candidates hkind

/-- Where a candidate for a request can come from. -/
inductive Offered (registry : Registry) (context : Context) : Candidate → Prop
  /-- A variable whose mark and name begin as the word does. -/
  | variable {c : Candidate} (hslot : context.slot = .variable)
      (hbegins : Text.startsWith c.text context.word = true) (htext : c.text ≠ "")
      (hcategory : c.category = .variable) : Offered registry context c
  /-- The name of something other than a file. -/
  | name {c : Candidate} (hslot : context.slot ≠ .variable) (hnames : c.Names context.typed) :
      Offered registry context c
  /-- An entry of the directory that the word names. -/
  | entry (hslot : context.slot ≠ .variable) (searched name : String) (isDirectory : Bool)
      (hname : name ≠ "") (hoffers : (TypedPath.ofWord context.typed).offers name = true) :
      Offered registry context (entryCandidate context.openingQuote
        (TypedPath.ofWord context.typed) searched name isDirectory)
  /-- A directory that the shell itself names. -/
  | directory (hslot : context.slot = .argument) (name : String)
      (hbegins : Text.startsWith name context.typed = true) :
      Offered registry context (Backend.nativeDirectory context.openingQuote name)
  /-- A changed file. -/
  | changed {c : Candidate} (hslot : context.slot = .argument)
      (hchanged : c.Changed context.typed) : Offered registry context c
  /-- A candidate that the command's resolver always gives. -/
  | fixed {c : Candidate} (hslot : context.slot = .argument)
      (hsupplies : registry.Supplies context c) : Offered registry context c

/-! ### Sources -/

/-- The entries of a directory. -/
theorem offered_of_mem_listDirectory {w : World} (hd : w.disk.Named)
    (hslot : context.slot ≠ .variable) {directoriesOnly : Bool} {found : List Candidate}
    (h : listDirectory w context directoriesOnly = .ok found) :
    ∀ c ∈ found, Offered registry context c := by
  obtain ⟨entries, hentries, hfound⟩ := bind_ok_iff.mp h
  intro c hc
  rw [← Except.ok.inj hfound, List.mem_filterMap] at hc
  obtain ⟨⟨name, node⟩, he, hc⟩ := hc
  simp only [Option.ite_none_right_eq_some, Option.some.injEq, Bool.and_eq_true] at hc
  obtain ⟨⟨hoffers, -⟩, rfl⟩ := hc
  exact .entry hslot _ name _ (name_ne_of_mem_sortedEntries hd hentries _ he) hoffers

namespace Backend

/-- A command is run on the disk of the request. -/
theorem finds_ask (b : Backend) (cwd : Option String) (args : List String) :
    (b.ask cwd args).Finds d fun _ => True :=
  finds_output _ _ _ _ _

/-- Trying the shell only tells whether it can be asked. -/
theorem finds_prepare (b : Backend) :
    b.prepare.Finds d fun b' => b'.registry = b.registry ∧ b'.family = b.family := by
  unfold prepare
  split
  · exact Action.Finds.pure ⟨rfl, rfl⟩
  · split
    · exact Action.Finds.pure ⟨rfl, rfl⟩
    · exact (b.finds_ask _ _).bind fun _ _ => Action.Finds.pure ⟨rfl, rfl⟩

/-- The names that bash answers with are not empty. -/
theorem finds_compgen (b : Backend) (action word : String) (context : Context) :
    (b.compgen action word context).Finds d fun names =>
      ∀ found, names = some found → ∀ name ∈ found, name ≠ "" := by
  unfold compgen
  split
  · refine (b.finds_ask _ _).bind fun answer _ => Action.Finds.pure fun found hfound => ?_
    obtain ⟨text, -, rfl⟩ := Option.map_eq_some_iff.mp hfound
    exact fun name hname => ne_of_mem_answerLines hname
  · exact Action.Finds.pure nofun

/-- The commands that the shell itself knows are the names that it answers with. -/
theorem finds_nativeNames (b : Backend) (context : Context) (stem : String) :
    (b.nativeCommands context stem).Finds d fun found => ∃ names : List String,
      (∀ name ∈ names, name ≠ "") ∧
        found = Candidate.ofNames (Text.sort (Text.distinct names)) stem "command" .command 5 := by
  -- Whatever the shell named is sorted and offered in one way; only empty names must be kept out.
  have hoffered (names : List String) (hnames : ∀ name ∈ names, name ≠ "") :
      Action.Finds d (pure (Candidate.ofNames (Text.sort (Text.distinct names)) stem "command" .command 5))
        fun found => ∃ names : List String, (∀ name ∈ names, name ≠ "") ∧
          found = Candidate.ofNames (Text.sort (Text.distinct names)) stem "command" .command 5 :=
    Action.Finds.pure ⟨names, hnames, rfl⟩
  unfold nativeCommands
  dsimp only
  split
  · exact (Action.Finds.pure nofun).bind hoffered
  · refine (b.finds_compgen _ _ _).bind fun names hnames => (Action.Finds.pure ?_).bind hoffered
    cases names with
    | none => nofun
    | some names => exact hnames names rfl
  · split
    · exact (b.finds_ask _ _).bind fun answer _ =>
        (Action.Finds.pure fun _ hname => ne_of_mem_answerLines hname).bind hoffered
    · exact (Action.Finds.pure nofun).bind hoffered

/-- The commands that the shell itself knows. -/
theorem finds_nativeCommands (b : Backend) (context : Context) (stem : String) :
    (b.nativeCommands context stem).Finds d fun found => ∀ c ∈ found, c.Names stem := by
  refine (b.finds_nativeNames context stem).mono ?_
  rintro _ ⟨names, hnames, rfl⟩ c hc
  refine Candidate.names_of_mem_ofNames (fun name hname => ?_) (by decide) (by decide) hc
  exact hnames name (Text.mem_distinct.mp (Text.mem_sort.mp hname))

/-- Reading the disk for entries of a directory. -/
theorem finds_listDirectory (hd : d.Named) (hslot : context.slot ≠ .variable)
    (directoriesOnly : Bool) :
    Action.Finds d (do
      let w ← get
      ExceptT.mk (pure (listDirectory w context directoriesOnly)))
      fun found => ∀ c ∈ found, Offered registry context c :=
  Action.Finds.get.bind fun _ hw => Action.Finds.ofExcept fun _ h =>
    offered_of_mem_listDirectory (hw ▸ hd) hslot h

/-- The directories that the typed word can become. -/
theorem finds_directories (b : Backend) (hd : d.Named) (hslot : context.slot = .argument) :
    (b.directories context).Finds d fun found => ∀ c ∈ found, Offered registry context c := by
  have hvariable : context.slot ≠ .variable := ne_of_eq_of_ne hslot nofun
  -- The names the shell gives are filtered by what was typed before they are offered.
  have hnamed (names : List String) : ∀ c ∈ ((Text.sort (Text.distinct names)).filter fun name =>
      Text.startsWith name context.typed &&
        (!Text.startsWith name "." || Text.startsWith context.typed ".")).map
          (nativeDirectory context.openingQuote), Offered registry context c := by
    intro c hc
    obtain ⟨name, hname, rfl⟩ := List.mem_map.mp hc
    rw [List.mem_filter, Bool.and_eq_true] at hname
    exact .directory hslot name hname.2.1
  unfold directories
  split
  · refine (b.finds_compgen _ _ _).bind fun names _ => ?_
    cases names with
    | none => exact finds_listDirectory hd hvariable true
    | some names => exact Action.Finds.pure (hnamed names)
  · refine (Action.Finds.pure (P := fun _ => True) trivial).bind fun names _ => ?_
    cases names with
    | none => exact finds_listDirectory hd hvariable true
    | some names => exact Action.Finds.pure (hnamed names)

/-! ### Slots -/

/-- The variables. -/
theorem offered_of_mem_variableCandidates (hslot : context.slot = .variable)
    (hc : c ∈ b.variableCandidates context) : Offered registry context c := by
  obtain ⟨typed, hword⟩ := word_of_slot_variable hslot
  have hdrop : context.word.toList.drop 1 = typed := by rw [hword, List.drop_one, List.tail_cons]
  unfold variableCandidates at hc
  dsimp only at hc
  rw [hdrop, List.mem_map] at hc
  obtain ⟨⟨name, value⟩, hname, rfl⟩ := hc
  replace hname := Text.startsWith_iff.mp (List.mem_filter.mp hname).2
  rw [String.toList_ofList] at hname
  -- A brace after the dollar is kept in front of the name and closed behind it.
  by_cases hbraced : typed.head? = some '\x7b'
  · rw [if_pos hbraced] at hname
    obtain ⟨stem, rfl⟩ := List.head?_eq_some_iff.mp hbraced
    obtain ⟨rest, hrest⟩ := hname
    rw [List.drop_one, List.tail_cons] at hrest
    refine .variable hslot (Text.startsWith_iff.mpr ⟨rest ++ ['\x7d'], ?_⟩) ?_ rfl
    · simp [hword, hbraced, ← hrest]
    · simp [hbraced]
  · rw [if_neg hbraced] at hname
    obtain ⟨rest, hrest⟩ := hname
    refine .variable hslot (Text.startsWith_iff.mpr ⟨rest, ?_⟩) ?_ rfl
    · simp [hword, hbraced, ← hrest]
    · simp [hbraced]

/-- The commands. -/
theorem finds_commands (b : Backend) (hd : d.Named) (hslot : context.slot ≠ .variable) :
    (b.commands context).Finds d fun found => ∀ c ∈ found, Offered registry context c := by
  unfold commands
  refine Action.Finds.get.bind fun w hw => ?_
  refine (Action.Finds.ofExcept fun _ h => mem_pathPrograms (hw ▸ hd) h).bind
    fun programs hprograms => ?_
  refine (b.finds_nativeCommands context context.typed).bind
    fun known hknown => Action.Finds.pure fun c hc => .name hslot ?_
  -- Builtins, programs on the path, and what the shell itself knows.
  rcases List.mem_append.mp hc with hc | hc
  · rcases List.mem_append.mp hc with hc | hc
    · refine Candidate.names_of_mem_ofNames (fun name hname => ?_) (by decide) (by decide) hc
      have hfilled : ∀ family : Family, ∀ name ∈ family.builtins, name ≠ "" := by
        intro family
        cases family <;> decide
      exact hfilled b.family name (Text.mem_distinct.mp (Text.mem_sort.mp hname))
    · obtain ⟨p, hp, rfl⟩ := List.mem_map.mp hc
      exact ⟨(hprograms p hp).1, (hprograms p hp).2, nofun, nofun⟩
  · exact hknown c hc

/-- The options. -/
theorem finds_options (b : Backend) (hslot : context.slot ≠ .variable) :
    (b.options context).Finds d fun found => ∀ c ∈ found, Offered registry context c := by
  -- Without a command there is no program whose help could be asked for.
  have hhelp : (b.helpOptions context context.typed).Finds d fun found =>
      ∀ c ∈ found, c.Names context.typed := by
    unfold helpOptions
    dsimp only
    split
    · exact Action.Finds.pure nofun
    · exact (b.finds_ask _ _).bind fun _ _ =>
        Action.Finds.pure fun _ hc => Help.names_of_mem_candidates hc
  unfold options
  split
  · exact Action.Finds.pure nofun
  · refine hhelp.bind fun found hfound => Action.Finds.pure fun c hc => .name hslot ?_
    split at hc
    · exact Help.names_of_mem_commonCandidates hc
    · exact hfound c hc

/-- The arguments that a resolver finds. -/
theorem finds_resolved (b : Backend) (hd : d.Named) (hslot : context.slot = .argument)
    {resolver : Resolver} (hresolver : registry.find? context.commandName = some resolver) :
    (b.resolved resolver.kind context).Finds d fun found =>
      ∀ c ∈ found, Offered registry context c := by
  have hvariable : context.slot ≠ .variable := ne_of_eq_of_ne hslot nofun
  have hask := b.finds_ask (d := d) (some context.cwd)
  unfold resolved
  refine Action.Finds.get.bind fun w hw => ?_
  -- One case for each kind of resolver; most of them offer names that complete the word.
  cases hkind : resolver.kind with
  | git =>
    refine (Git.finds_candidates hask).mono fun found hfound c hc => ?_
    rcases hfound c hc with hc | hc
    · exact .name hvariable hc
    · exact .changed hslot hc
  | npm =>
    refine Action.Finds.ofExcept fun found h c hc => .name hvariable ?_
    exact Npm.names_of_mem_candidates h c hc
  | docker =>
    refine (Docker.finds_candidates hask).mono fun found hfound c hc => ?_
    exact .name hvariable (hfound c hc)
  | processes =>
    exact Action.Finds.pure fun c hc => .name hvariable (names_of_mem_processCandidates hc)
  | hosts =>
    refine Action.Finds.ofExcept fun found h c hc => .name hvariable ?_
    exact Hosts.names_of_mem_candidates h c hc
  | directories => exact b.finds_directories hd hslot
  | fixed candidates =>
    exact Action.Finds.pure fun c hc => .fixed hslot ⟨resolver, candidates, hresolver, hkind, hc⟩
  | failing => exact Action.Finds.throw _

/-- The arguments. -/
theorem finds_arguments (b : Backend) (hd : d.Named) (hslot : context.slot = .argument) :
    (b.arguments context).Finds d fun found => ∀ c ∈ found, Offered b.registry context c := by
  have hvariable : context.slot ≠ .variable := ne_of_eq_of_ne hslot nofun
  unfold arguments
  dsimp only
  split
  · exact finds_listDirectory hd hvariable false
  -- A resolver that fails gives nothing, and the files come behind what it found.
  · rename_i resolver hresolver
    refine (Action.Finds.lift (Action.Finds.orElse (b.finds_resolved hd hslot hresolver)
      (by simp))).bind fun found hfound => ?_
    split
    · refine (@finds_listDirectory b.registry context d hd hvariable false).bind
        fun files hfiles => Action.Finds.pure fun c hc => ?_
      rcases List.mem_append.mp hc with hc | hc
      · exact hfound c hc
      · exact hfiles c hc
    · exact Action.Finds.pure hfound

/-- The candidates of every slot. -/
theorem finds_candidatesFor (b : Backend) (hd : d.Named) (context : Context) :
    (b.candidatesFor context context.slot).Finds d fun found =>
      ∀ c ∈ found, Offered b.registry context c := by
  unfold candidatesFor
  match hslot : context.slot with
  | .variable => exact Action.Finds.pure fun c hc => offered_of_mem_variableCandidates hslot hc
  | .path =>
    exact finds_listDirectory hd (ne_of_eq_of_ne hslot nofun) _
  | .option =>
    exact b.finds_options (ne_of_eq_of_ne hslot nofun)
  | .command =>
    exact b.finds_commands hd (ne_of_eq_of_ne hslot nofun)
  | .argument => exact b.finds_arguments hd hslot

/-- **Every candidate of an answer comes from one of the sources**, and no two have the same
text. -/
theorem finds_resolve (b : Backend) (hd : d.Named) (context : Context) :
    (b.resolve context).Finds d fun found =>
      (found.1.map (·.text)).Nodup ∧ ∀ c ∈ found.1, Offered b.registry context c := by
  unfold resolve
  refine b.finds_prepare.bind fun b' hb' => ?_
  refine (Action.Finds.lift (Action.Finds.orElse (b'.finds_candidatesFor hd context)
    (by simp))).bind fun found hfound => ?_
  refine Action.Finds.pure ⟨Candidate.distinct_nodup found, fun c hc => ?_⟩
  rw [← hb'.1]
  exact hfound c (Candidate.mem_of_mem_distinct hc)

end Backend

end ShellAssist.Completion
