import ShellAssist.Proofs.Completion.Contract
import ShellAssist.Proofs.Completion.WithoutShell
import ShellAssist.Proofs.Host.Entries

namespace ShellAssist.Completion

/-!
# Programs of a search path

A program is found in the first directory of the search path that holds it. A directory that cannot be
listed holds nothing, and neither a file that may not be executed nor anything else of the same name
stands in its way.

* `Holds`, `FoundAt` — where a program is found;
* `mem_firstOfEachName_iff` — of each name the first pair is kept;
* `ListsPrograms`, `exists_listsPrograms` — all programs of a search path are listed;
* `Backend.lists_commands` — where the generic backend puts them among its commands.
-/

open Line (Context)

variable {w : World} {directory name path searchPath stem : String} {directories seen : List String}
  {pairs : List (String × String)}

/-! ### Directories -/

/-- A directory can be listed, and has a file of this name that may be executed. -/
def Holds (w : World) (directory name : String) : Prop :=
  ∃ entries, w.disk.entries w.cwd directory = .ok entries ∧
    ∃ content unreadable, (name, Node.file content true unreadable) ∈ entries

/-- The programs of a directory; none if it cannot be listed. -/
def programsIn (w : World) (directory : String) : List (String × String) :=
  (directoryPrograms w directory).toOption.getD []

/-- A program is a file that may be executed. -/
theorem isProgramNode_iff {node : Node} :
    isProgramNode node = true ↔ ∃ content unreadable, node = .file content true unreadable := by
  cases node <;> simp [isProgramNode]

/-- Listed are the programs that the directory holds, each with its path. -/
theorem mem_programsIn_iff : (name, path) ∈ programsIn w directory ↔
    Holds w directory name ∧ path = Path.entryOf directory name := by
  unfold programsIn directoryPrograms Holds
  cases hentries : w.disk.entries w.cwd directory with
  | error refusal =>
    -- A directory that cannot be listed has no programs, whatever the reason.
    have hnone : (name, path) ∉ ([] : List (String × String)) := List.not_mem_nil
    cases refusal <;> exact iff_of_false hnone fun h => by simpa using h.1
  | ok entries =>
    show (name, path) ∈ (entries.filter fun e => isProgramNode e.2).map _ ↔ _
    rw [List.mem_map]
    constructor
    · rintro ⟨⟨name', node⟩, hentry, hpair⟩
      obtain ⟨rfl, rfl⟩ := Prod.mk.inj hpair
      obtain ⟨hentry, hprogram⟩ := List.mem_filter.mp hentry
      obtain ⟨content, unreadable, rfl⟩ := isProgramNode_iff.mp hprogram
      exact ⟨⟨entries, rfl, content, unreadable, hentry⟩, rfl⟩
    · rintro ⟨⟨_, hsame, content, unreadable, hentry⟩, rfl⟩
      rw [← Except.ok.inj hsame] at hentry
      exact ⟨_, List.mem_filter.mpr ⟨hentry, rfl⟩, rfl⟩

/-- A directory can be searched if its path has no NUL character. -/
theorem directoryPrograms_eq (h : '\x00' ∉ directory.toList) :
    directoryPrograms w directory = .ok (programsIn w directory) := by
  have hnul := mt (Disk.entries_eq_nul_iff w.disk w.cwd directory).mp h
  unfold programsIn directoryPrograms
  split
  · rfl
  · rfl
  · rename_i hentries
    exact absurd hentries hnul

/-! ### Search paths -/

/-- The directories of a search path, in the order in which they are searched. -/
def searched (searchPath : String) : List String :=
  (Text.splitOn ':' searchPath).filter (· ≠ "")

/-- The first of the directories that holds a program of this name does so under this path. -/
def FoundAt (w : World) (directories : List String) (name path : String) : Prop :=
  ∃ before directory behind, directories = before ++ directory :: behind ∧
    (∀ d ∈ before, ¬ Holds w d name) ∧ Holds w directory name ∧ path = Path.entryOf directory name

/-- A program is found in the first directory, or else in the others. -/
theorem foundAt_cons_iff : FoundAt w (directory :: directories) name path ↔
    Holds w directory name ∧ path = Path.entryOf directory name ∨
      ¬ Holds w directory name ∧ FoundAt w directories name path := by
  constructor
  · rintro ⟨before, d, behind, hdirectories, hbefore, hholds, hpath⟩
    -- Either the first directory is the one that holds it or the search goes on behind it.
    cases before with
    | nil =>
      obtain ⟨rfl, -⟩ := List.cons.inj hdirectories
      exact .inl ⟨hholds, hpath⟩
    | cons first before =>
      obtain ⟨rfl, rfl⟩ := List.cons.inj hdirectories
      obtain ⟨hfirst, hbefore⟩ := List.forall_mem_cons.mp hbefore
      exact .inr ⟨hfirst, before, d, behind, rfl, hbefore, hholds, hpath⟩
  · rintro (⟨hholds, hpath⟩ | ⟨hnot, before, d, behind, rfl, hbefore, hholds, hpath⟩)
    · exact ⟨[], directory, directories, rfl, nofun, hholds, hpath⟩
    · exact ⟨directory :: before, d, behind, rfl, List.forall_mem_cons.mpr ⟨hnot, hbefore⟩, hholds,
        hpath⟩

/-- A name is looked up as the program that the directory holds. -/
theorem lookup_programsIn_iff : (programsIn w directory).lookup name = some path ↔
    Holds w directory name ∧ path = Path.entryOf directory name := by
  rw [← mem_programsIn_iff]
  constructor
  · intro h
    obtain ⟨before, behind, hpairs, -⟩ := List.lookup_eq_some_iff.mp h
    rw [hpairs]
    exact List.mem_append_right _ List.mem_cons_self
  · intro h
    -- There are no two paths for one name, so the pair that is looked up is this one.
    obtain ⟨path', hlookup⟩ := Option.isSome_iff_exists.mp
      (List.lookup_isSome_iff.mpr ⟨(name, path), h, BEq.rfl⟩)
    obtain ⟨before, behind, hpairs, -⟩ := List.lookup_eq_some_iff.mp hlookup
    have hmem : (name, path') ∈ programsIn w directory :=
      hpairs ▸ List.mem_append_right _ List.mem_cons_self
    rw [hlookup, (mem_programsIn_iff.mp h).2, (mem_programsIn_iff.mp hmem).2]

/-- **Among the programs of several directories the first one of a name is the one that is found.** -/
theorem lookup_flatMap_programsIn_iff :
    (directories.flatMap (programsIn w)).lookup name = some path ↔ FoundAt w directories name path := by
  induction directories with
  | nil => exact ⟨nofun, fun ⟨_, _, _, h, _⟩ => absurd h (by simp)⟩
  | cons directory rest ih =>
    have hnone : (programsIn w directory).lookup name = none ↔ ¬ Holds w directory name := by
      rw [Option.eq_none_iff_forall_ne_some]
      simp only [ne_eq, lookup_programsIn_iff, not_and]
      exact ⟨fun h hholds => h _ hholds rfl, fun h _ hholds => absurd hholds h⟩
    rw [List.flatMap_cons, List.lookup_append, Option.or_eq_some_iff, lookup_programsIn_iff, hnone, ih,
      foundAt_cons_iff]

/-! ### The first of each name -/

/-- Of each name that is not seen the first one is kept. -/
theorem mem_firstOfEachName_iff : (name, path) ∈ firstOfEachName seen pairs ↔
    name ∉ seen ∧ pairs.lookup name = some path := by
  induction pairs generalizing seen with
  | nil => simp [firstOfEachName]
  | cons pair rest ih =>
    obtain ⟨first, target⟩ := pair
    rw [firstOfEachName, List.lookup_cons]
    by_cases hname : name = first
    · subst hname
      by_cases hseen : name ∈ seen <;> simp [hseen, ih, eq_comm]
    · have hother : (name == first) = false := beq_eq_false_iff_ne.mpr hname
      by_cases hseen : first ∈ seen <;> simp [hseen, ih, hname, hother]

/-- No name is kept twice. -/
theorem firstOfEachName_nodup (seen : List String) (pairs : List (String × String)) :
    ((firstOfEachName seen pairs).map Prod.fst).Nodup := by
  induction pairs generalizing seen with
  | nil => exact List.nodup_nil
  | cons pair rest ih =>
    obtain ⟨first, target⟩ := pair
    rw [firstOfEachName]
    split
    · exact ih seen
    · rw [List.map_cons, List.nodup_cons]
      refine ⟨fun hmem => ?_, ih (first :: seen)⟩
      obtain ⟨⟨name, path⟩, hpair, rfl⟩ := List.mem_map.mp hmem
      exact (mem_firstOfEachName_iff.mp hpair).1 List.mem_cons_self

/-- Names that are left out are not found. -/
theorem lookup_filter_name (keep : String → Bool) (name : String) (pairs : List (String × String)) :
    (pairs.filter fun p => keep p.1).lookup name = if keep name then pairs.lookup name else none := by
  induction pairs with
  | nil => simp
  | cons pair rest ih =>
    obtain ⟨first, target⟩ := pair
    by_cases hname : name = first
    · subst hname
      cases hkeep : keep name <;> simp [hkeep, ih]
    · have hother : (name == first) = false := beq_eq_false_iff_ne.mpr hname
      cases hkeep : keep first <;> simp [hkeep, ih, List.lookup_cons, hother]

/-! ### Lists of programs -/

/-- The programs that are found in a search path and whose names begin with `stem`, in the order of
their names and without repeats, each with its path. -/
structure ListsPrograms (w : World) (searchPath stem : String) (found : List (String × String)) :
    Prop where
  ascending : (found.map Prod.fst).Pairwise (· < ·)
  mem_iff : ∀ name path, (name, path) ∈ found ↔
    Text.startsWith name stem = true ∧ FoundAt w (searched searchPath) name path

/-- There is only one such list. -/
theorem ListsPrograms.unique {found found' : List (String × String)}
    (h : ListsPrograms w searchPath stem found) (h' : ListsPrograms w searchPath stem found') :
    found = found' := by
  have hnodup {programs : List (String × String)} (h : ListsPrograms w searchPath stem programs) :
      programs.Nodup := .of_map Prod.fst (h.ascending.imp ne_of_lt)
  refine List.Perm.eq_of_pairwise (fun _ _ _ _ hab hba => absurd hab (lt_asymm hba))
    (List.pairwise_map.mp h.ascending) (List.pairwise_map.mp h'.ascending) ?_
  rw [List.perm_ext_iff_of_nodup (hnodup h) (hnodup h')]
  exact fun program => (h.mem_iff program.1 program.2).trans (h'.mem_iff program.1 program.2).symm

/-- The directories of a search path without NUL have none. -/
theorem not_nul_of_mem_searched (h : '\x00' ∉ searchPath.toList) :
    ∀ directory ∈ searched searchPath, '\x00' ∉ directory.toList := by
  intro directory hdirectory
  obtain ⟨piece, hpiece, rfl⟩ := List.mem_map.mp (List.mem_filter.mp hdirectory).1
  rw [String.toList_ofList]
  exact fun hnul => h (Chars.mem_of_mem_splitOn piece hpiece hnul)

/-- The programs of a search path are the first of each name, sorted by name. -/
theorem pathPrograms_eq (h : '\x00' ∉ searchPath.toList) (stem : String) :
    pathPrograms w searchPath stem = .ok ((firstOfEachName []
      (((searched searchPath).flatMap (programsIn w)).filter fun p => Text.startsWith p.1 stem)).mergeSort
        fun a b => Text.le a.1 b.1) := by
  have hfound : (searched searchPath).mapM (directoryPrograms w)
      = .ok ((searched searchPath).map (programsIn w)) := by
    rw [mapM_ok_iff, List.forall₂_map_right_iff, List.forall₂_same]
    exact fun d hd => directoryPrograms_eq (not_nul_of_mem_searched h d hd)
  rw [pathPrograms, ← searched, hfound, List.flatMap_def]
  rfl

/-- **The programs of a search path are listed**, unless the search path has a NUL character. -/
theorem exists_listsPrograms (h : '\x00' ∉ searchPath.toList) (stem : String) :
    ∃ found, pathPrograms w searchPath stem = .ok found ∧ ListsPrograms w searchPath stem found := by
  refine ⟨_, pathPrograms_eq h stem, ?_, fun name path => ?_⟩
  · have hsort := Text.isStableSort_by Prod.fst (firstOfEachName []
      (((searched searchPath).flatMap (programsIn w)).filter fun p => Text.startsWith p.1 stem))
    have hnodup := (hsort.perm.map Prod.fst).nodup_iff.mpr (firstOfEachName_nodup _ _)
    have hsorted := List.pairwise_map.mpr hsort.sorted
    exact (hsorted.and hnodup).imp fun hab => lt_of_le_of_ne hab.1 hab.2
  · rw [List.mem_mergeSort, mem_firstOfEachName_iff, lookup_filter_name (Text.startsWith · stem),
      ← lookup_flatMap_programsIn_iff]
    simp

/-! ### Commands -/

namespace Backend

variable {b : Backend} {context : Context}

/-- The search path of a request. -/
def searchPathOf (b : Backend) (context : Context) : String :=
  (Environment.get? (b.environmentOf context) "PATH").getD ""

/-- The candidate of a builtin command. -/
def builtinCandidate (name : String) : Candidate :=
  { text := name, description := "builtin", category := .command, priority := 10 }

/-- The candidate of a program. -/
def programCandidate (program : String × String) : Candidate :=
  { text := program.1, description := "command", category := .command, priority := 5
    metadata := [("path", .str program.2)] }

/-- A generic backend has no shell to try. -/
theorem prepare_generic (hfamily : b.family = .generic) (w : World) :
    b.prepare w = (.ok { b with initialized := true }, w) := by
  rw [prepare]
  split
  · rename_i htried
    exact congrArg (Except.ok ·, w) (htried ▸ rfl)
  · rw [detection, hfamily]
    rfl

/-- Builtin commands stand in front; among the programs those that have their names are left out. -/
theorem distinct_commands {programs : List (String × String)} {builtins : List String}
    (hbuiltins : builtins.Nodup) (hprograms : (programs.map Prod.fst).Nodup) :
    Candidate.distinct (builtins.map builtinCandidate ++ programs.map programCandidate)
      = builtins.map builtinCandidate
        ++ (programs.filter fun p => p.1 ∉ builtins).map programCandidate := by
  have htexts : (builtins.map builtinCandidate).map (·.text) = builtins := by
    rw [List.map_map]
    exact List.map_id builtins
  have hnames : ((programs.map programCandidate).map (·.text)) = programs.map Prod.fst := by
    rw [List.map_map]
    rfl
  rw [Candidate.distinct_append_of_nodup _ (hnames ▸ hprograms),
    Candidate.distinct_of_nodup (htexts.symm ▸ hbuiltins), htexts, List.filter_map]
  rfl

/-- The builtin commands that begin as typed, in order. -/
def builtinsFrom (stem : String) : List String :=
  (Text.sort (Text.distinct Family.commonBuiltins)).filter fun name => Text.startsWith name stem

/-- No builtin command is offered twice. -/
theorem builtinsFrom_ascending (stem : String) : (builtinsFrom stem).Pairwise (· < ·) :=
  (Text.sort_distinct_ascending Family.commonBuiltins).filter _

/-- Exactly those that begin as typed are offered. -/
theorem mem_builtinsFrom_iff : name ∈ builtinsFrom stem ↔
    name ∈ Family.commonBuiltins ∧ Text.startsWith name stem = true := by
  rw [builtinsFrom, List.mem_filter, Text.mem_sort, Text.mem_distinct]

/-- The commands of a generic backend, before equal ones are left out. -/
theorem commands_generic (hfamily : b.family = .generic) {programs : List (String × String)}
    (hfound : pathPrograms w (b.searchPathOf context) context.typed = .ok programs) :
    (b.commands context).orElse [] w
      = ((builtinsFrom context.typed).map builtinCandidate ++ programs.map programCandidate, w) := by
  have hprograms : b.programCandidates context w = .ok (programs.map programCandidate) := by
    show (pathPrograms w (b.searchPathOf context) context.typed).map _ = _
    rw [hfound]
    rfl
  have hbuiltins : builtinCandidates b.family context
      = (builtinsFrom context.typed).map builtinCandidate := by
    rw [hfamily]
    rfl
  rw [orElse_commands (.inl hfamily), hprograms]
  exact congrArg (· ++ programs.map programCandidate, w) hbuiltins

/-- **The commands of the generic backend** are the builtin commands that begin as typed, in order, and
behind them the programs of the search path that do, in order, but for those that have the name of a
builtin command. -/
theorem lists_commands (w : World) (searchPath : String) (h : '\x00' ∉ searchPath.toList) :
    (∀ stem, ∃ found, pathPrograms w searchPath stem = .ok found ∧
      ListsPrograms w searchPath stem found) ∧
    ∀ (b : Backend) (context : Context), b.family = .generic → context.slot = .command →
      b.searchPathOf context = searchPath →
      ∃ (builtins : List String) (programs : List (String × String)),
        builtins.Pairwise (· < ·) ∧
        (∀ name, name ∈ builtins ↔
          name ∈ Family.commonBuiltins ∧ Text.startsWith name context.typed = true) ∧
        ListsPrograms w searchPath context.typed programs ∧
        b.answer context w = .ok (builtins.map builtinCandidate
          ++ (programs.filter fun p => p.1 ∉ Family.commonBuiltins).map programCandidate) := by
  refine ⟨fun stem => exists_listsPrograms h stem, ?_⟩
  rintro b context hfamily hslot rfl
  obtain ⟨programs, hfound, hlists⟩ := @exists_listsPrograms w _ h context.typed
  have hascending := builtinsFrom_ascending context.typed
  refine ⟨builtinsFrom context.typed, programs, hascending, fun _ => mem_builtinsFrom_iff, hlists, ?_⟩
  have hcommands := @commands_generic w { b with initialized := true } context hfamily programs hfound
  rw [answer_of_prepare (prepare_generic hfamily w), hslot, candidatesFor, hcommands,
    distinct_commands (hascending.imp ne_of_lt) (hlists.ascending.imp ne_of_lt)]
  -- A program that is listed begins as typed, so a builtin command of its name is offered.
  refine congrArg (fun kept => Except.ok (_ ++ kept.map programCandidate)) (List.filter_congr ?_)
  intro program hprogram
  have hbegins := ((hlists.mem_iff program.1 program.2).mp hprogram).1
  rw [decide_eq_decide, mem_builtinsFrom_iff, and_iff_left hbegins]

/-- A file that may not be executed hides no program behind it, and a builtin command hides one of its
name. The search path has a directory twice, one that is missing and one that cannot be read. -/
theorem lists_commands_hidden :
    let w : World := { disk := { nodes := [(["a"], ⟨.directory false, 1⟩),
      (["a", "tool"], ⟨.file [] false false, 2⟩), (["a", "top"], ⟨.loop, 3⟩),
      (["b"], ⟨.directory false, 4⟩), (["b", "test"], ⟨.file [] true false, 5⟩),
      (["b", "tool"], ⟨.file [] true false, 6⟩), (["b", "top"], ⟨.directory false, 7⟩),
      (["c"], ⟨.directory true, 8⟩), (["c", "tar"], ⟨.file [] true false, 9⟩)] } }
    let searchPath := "/a:/c:/b::/nope:/a"
    let b := ofFamily .generic "sh" {} [("PATH", searchPath)]
    let context := Line.classify "t" none "/" none
    '\x00' ∉ searchPath.toList ∧ b.family = .generic ∧ context.slot = .command ∧
      b.searchPathOf context = searchPath ∧
      ListsPrograms w searchPath "t" [("test", "/b/test"), ("tool", "/b/tool")] ∧
      ∃ builtins : List String, (∀ name, name ∈ builtins ↔
          name ∈ Family.commonBuiltins ∧ Text.startsWith name "t" = true) ∧
        b.answer context w
          = .ok (builtins.map builtinCandidate ++ [programCandidate ("tool", "/b/tool")]) := by
  intro w searchPath b context
  have hnul : '\x00' ∉ searchPath.toList := by decide
  have hslot : context.slot = .command := by decide
  have htyped : context.typed = "t" := by decide
  obtain ⟨hprograms, hanswer⟩ := lists_commands w searchPath hnul
  obtain ⟨found, hfound, hlists⟩ := hprograms "t"
  have hknown : pathPrograms w searchPath "t" = .ok [("test", "/b/test"), ("tool", "/b/tool")] := by
    rw [pathPrograms_eq hnul, List.mergeSort_of_pairwise (by decide)]
    decide
  -- What the search finds is known, so the law only has to say which programs those are.
  obtain rfl : found = [("test", "/b/test"), ("tool", "/b/tool")] :=
    Except.ok.inj (hfound.symm.trans hknown)
  obtain ⟨builtins, programs, -, hbuiltins, hlists', hresolve⟩ := hanswer b context rfl hslot rfl
  rw [htyped] at hbuiltins hlists'
  rw [hlists'.unique hlists] at hresolve
  exact ⟨hnul, rfl, hslot, rfl, hlists, builtins, hbuiltins, hresolve⟩

end Backend

end ShellAssist.Completion
