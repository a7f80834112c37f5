import ShellAssist.Completion.Backend
import ShellAssist.Proofs.Failure
import ShellAssist.Proofs.FirstOccurrences
import ShellAssist.Proofs.Host.Action
import ShellAssist.Proofs.Host.Disk
import ShellAssist.Proofs.Number.Digits
import ShellAssist.Proofs.Text.Basic
import Mathlib.Data.List.Induction

namespace ShellAssist

/-!
# What the sources of candidates give

Apart from files, the candidates of a source are names, each inserted as it is: names of commands,
options, subcommands, references, containers, processes and hosts. A source offers those that begin
as typed.

* `Candidate.Names` — a candidate that is such a name;
* `Candidate.Changed` — a changed file, which is inserted as it is as well;
* one statement for each source, that its candidates are of these kinds.
-/

/-! ### Candidates -/

namespace Candidate

/-- A candidate that names something other than a file, by a name that begins as typed. -/
structure Names (stem : String) (c : Candidate) : Prop where
  text_ne : c.text ≠ ""
  begins : Text.startsWith c.text stem = true
  not_file : c.category ≠ .file
  not_directory : c.category ≠ .directory

/-- A file of the list of changed files whose path begins as typed. -/
structure Changed (stem : String) (c : Candidate) : Prop where
  text_ne : c.text ≠ ""
  begins : Text.startsWith c.text stem = true
  category : c.category = .file
  description : c.description = "modified file"

variable {c : Candidate} {cs seen : List Candidate} {stem description : String}
  {category : Category}

/-- What is made of names names what was typed, if no name is empty. -/
theorem names_of_mem_ofNames {names : List String} {priority : Int}
    (hnames : ∀ name ∈ names, name ≠ "") (hfile : category ≠ .file)
    (hdirectory : category ≠ .directory)
    (h : c ∈ ofNames names stem description category priority) : c.Names stem := by
  rw [ofNames, List.mem_map] at h
  obtain ⟨name, hname, rfl⟩ := h
  rw [List.mem_filter] at hname
  exact ⟨hnames name hname.1, hname.2, hfile, hdirectory⟩

/-- And it has the priority that was given. -/
theorem priority_of_mem_ofNames {names : List String} {priority : Int}
    (h : c ∈ ofNames names stem description category priority) : c.priority = priority := by
  obtain ⟨name, -, rfl⟩ := List.mem_map.mp h
  rfl

/-- A checked candidate is the one that was to be checked, up to its label. -/
theorem checked_ok {c' : Candidate} (h : c.checked = .ok c') :
    c.text ≠ "" ∧ c'.text = c.text ∧ c'.category = c.category ∧
      c'.description = c.description := by
  rw [checked] at h
  split at h
  · cases h
  · rename_i htext
    rw [← Except.ok.inj h]
    split <;> exact ⟨htext, rfl, rfl, rfl⟩

/-- Leaving out repeated texts adds no candidate. -/
theorem mem_of_mem_distinctFrom {seen : List String} (h : c ∈ distinctFrom seen cs) : c ∈ cs := by
  induction cs generalizing seen with
  | nil => exact h
  | cons d rest ih =>
    rw [distinctFrom] at h
    split at h
    · exact List.mem_cons_of_mem _ (ih h)
    · rcases List.mem_cons.mp h with rfl | h
      · exact List.mem_cons_self
      · exact List.mem_cons_of_mem _ (ih h)

/-- Leaving out repeated texts adds no candidate. -/
theorem mem_of_mem_distinct (h : c ∈ distinct cs) : c ∈ cs :=
  mem_of_mem_distinctFrom h

/-- No text is kept twice, and none that has been seen. -/
theorem distinctFrom_nodup (seen : List String) (cs : List Candidate) :
    ((distinctFrom seen cs).map (·.text)).Nodup ∧ ∀ c ∈ distinctFrom seen cs, c.text ∉ seen := by
  -- With the texts seen so far general: a kept candidate adds its own to them.
  induction cs generalizing seen with
  | nil => exact ⟨List.nodup_nil, nofun⟩
  | cons d rest ih =>
    rw [distinctFrom]
    by_cases hseen : d.text ∈ seen
    · rw [if_pos (List.contains_iff_mem.mpr hseen)]
      exact ih seen
    · rw [if_neg fun h => hseen (List.contains_iff_mem.mp h)]
      obtain ⟨hnodup, hnew⟩ := ih (d.text :: seen)
      refine ⟨?_, ?_⟩
      · rw [List.map_cons, List.nodup_cons]
        refine ⟨fun hmem => ?_, hnodup⟩
        obtain ⟨e, he, htext⟩ := List.mem_map.mp hmem
        exact List.ne_of_not_mem_cons (hnew e he) htext
      · rintro c hc
        rcases List.mem_cons.mp hc with rfl | hc
        · exact hseen
        · exact List.not_mem_of_not_mem_cons (hnew c hc)

/-- No text is kept twice. -/
theorem distinct_nodup (cs : List Candidate) : ((distinct cs).map (·.text)).Nodup :=
  (distinctFrom_nodup [] cs).1

/-- It does not matter in which order texts have been seen. -/
theorem distinctFrom_congr {seen seen' : List String} (h : ∀ t, t ∈ seen ↔ t ∈ seen')
    (cs : List Candidate) : distinctFrom seen cs = distinctFrom seen' cs := by
  induction cs generalizing seen seen' with
  | nil => rfl
  | cons d rest ih =>
    have hcontains : seen.contains d.text = seen'.contains d.text := by
      rw [Bool.eq_iff_iff, List.contains_iff_mem, List.contains_iff_mem, h]
    have hnext : ∀ t, t ∈ d.text :: seen ↔ t ∈ d.text :: seen' := by
      intro t
      rw [List.mem_cons, List.mem_cons, h]
    rw [distinctFrom, distinctFrom, hcontains, ih h, ih hnext]

/-- Of a list in two parts, the second is rid of what the first has as well. -/
theorem distinctFrom_append (seen : List String) (cs ds : List Candidate) :
    distinctFrom seen (cs ++ ds)
      = distinctFrom seen cs ++ distinctFrom (cs.map (·.text) ++ seen) ds := by
  -- The right end is filtered by what the left one had seen, in another order than it adds it.
  induction cs generalizing seen with
  | nil => rfl
  | cons d rest ih =>
    rw [List.cons_append, distinctFrom, distinctFrom]
    by_cases hseen : d.text ∈ seen
    · rw [if_pos (List.contains_iff_mem.mpr hseen), if_pos (List.contains_iff_mem.mpr hseen), ih]
      refine congrArg _ (distinctFrom_congr (fun t => ?_) ds)
      simp only [List.map_cons, List.mem_cons, List.mem_append, List.cons_append]
      grind
    · rw [if_neg fun h => hseen (List.contains_iff_mem.mp h),
        if_neg fun h => hseen (List.contains_iff_mem.mp h), ih, List.cons_append]
      refine congrArg _ (congrArg _ (distinctFrom_congr (fun t => ?_) ds))
      simp only [List.map_cons, List.mem_cons, List.mem_append, List.cons_append]
      grind

/-- Of candidates with different texts only those are left out whose texts have been seen. -/
theorem distinctFrom_of_nodup (h : (cs.map (·.text)).Nodup) (seen : List String) :
    distinctFrom seen cs = cs.filter fun c => c.text ∉ seen := by
  induction cs generalizing seen with
  | nil => rfl
  | cons d rest ih =>
    rw [List.map_cons, List.nodup_cons] at h
    rw [distinctFrom, List.filter_cons]
    by_cases hseen : d.text ∈ seen
    · rw [if_pos (List.contains_iff_mem.mpr hseen), if_neg (by simpa using hseen), ih h.2]
    · rw [if_neg fun hmem => hseen (List.contains_iff_mem.mp hmem), if_pos (by simpa using hseen),
        ih h.2]
      refine congrArg _ (List.filter_congr fun c hc => ?_)
      have hne : c.text ≠ d.text := fun heq => h.1 (heq ▸ List.mem_map_of_mem hc)
      simp [hne]

/-- Candidates with different texts are all kept. -/
theorem distinct_of_nodup (h : (cs.map (·.text)).Nodup) : distinct cs = cs := by
  rw [distinct, distinctFrom_of_nodup h]
  simp

/-- Behind others, candidates with different texts are kept but for the texts of those. -/
theorem distinct_append_of_nodup (cs : List Candidate) {ds : List Candidate}
    (h : (ds.map (·.text)).Nodup) :
    distinct (cs ++ ds) = distinct cs ++ ds.filter fun d => d.text ∉ cs.map (·.text) := by
  rw [distinct, distinctFrom_append, distinctFrom_of_nodup h, List.append_nil]
  rfl

/-- Of each text the first one is kept, where it stands. -/
theorem isFirsts_distinct (cs : List Candidate) :
    IsFirsts (cs.map (·.text)) ((distinct cs).map (·.text)) := by
  induction cs using List.reverseRecOn with
  | nil => exact .nil
  | append_singleton cs c ih =>
    have hnodup : ([c].map (·.text)).Nodup := List.nodup_singleton c.text
    rw [distinct_append_of_nodup cs hnodup, List.map_append, List.map_append, List.map_singleton]
    by_cases hc : c.text ∈ cs.map (·.text)
    · rw [List.filter_cons_of_neg (by simpa using hc), List.filter_nil, List.map_nil, List.append_nil]
      exact ih.concat_old hc
    · rw [List.filter_cons_of_pos (by simpa using hc), List.filter_nil, List.map_singleton]
      exact ih.concat_new hc

/-- Texts that are not wanted can be left out before or after. -/
theorem filter_distinctFrom (keep : String → Bool) (seen : List String) (cs : List Candidate) :
    (distinctFrom seen cs).filter (fun c => keep c.text)
      = distinctFrom (seen.filter keep) (cs.filter fun c => keep c.text) := by
  induction cs generalizing seen with
  | nil => rfl
  | cons d rest ih =>
    rw [distinctFrom, List.filter_cons]
    cases hkeep : keep d.text with
    | true =>
      -- A text that is kept has been seen among the kept ones or not at all.
      have hcontains : (seen.filter keep).contains d.text = seen.contains d.text := by
        rw [Bool.eq_iff_iff, List.contains_iff_mem, List.contains_iff_mem, List.mem_filter,
          and_iff_left hkeep]
      rw [if_pos rfl, distinctFrom, hcontains]
      split
      · exact ih seen
      · simp [hkeep, ih]
    | false =>
      rw [if_neg Bool.false_ne_true]
      split
      · exact ih seen
      · simp [hkeep, ih]

/-- Candidates may be left out by their texts before or after repeated ones are. -/
theorem filter_distinct (keep : String → Bool) (cs : List Candidate) :
    (distinct cs).filter (fun c => keep c.text) = distinct (cs.filter fun c => keep c.text) :=
  filter_distinctFrom keep [] cs

end Candidate

namespace Completion

open Line (Context)

variable {w : World} {d : Disk} {context : Context} {stem : String} {c : Candidate}

/-- No entry of a directory has an empty name. -/
theorem name_ne_of_mem_sortedEntries (hd : w.disk.Named) {cwd path : String}
    {found : List (String × Node)} (h : sortedEntries w cwd path = .ok found) :
    ∀ e ∈ found, e.1 ≠ "" := by
  unfold sortedEntries at h
  split at h
  · rename_i entries hentries
    rw [← Except.ok.inj h]
    intro e he
    exact hd.of_mem_entries hentries e (List.mem_mergeSort.mp he)
  · rw [← Except.ok.inj h]
    nofun
  · cases h

/-- So no program of a directory has one. -/
theorem name_ne_of_mem_directoryPrograms (hd : w.disk.Named) {directory : String}
    {found : List (String × String)} (h : directoryPrograms w directory = .ok found) :
    ∀ p ∈ found, p.1 ≠ "" := by
  unfold directoryPrograms at h
  split at h
  · rename_i entries hentries
    rw [← Except.ok.inj h]
    intro p hp
    obtain ⟨e, he, rfl⟩ := List.mem_map.mp hp
    exact hd.of_mem_entries hentries e (List.mem_filter.mp he).1
  · rw [← Except.ok.inj h]
    nofun
  · cases h

/-- The first of each name is one of all. -/
theorem mem_of_mem_firstOfEachName {seen : List String} {pairs : List (String × String)}
    {p : String × String} (h : p ∈ firstOfEachName seen pairs) : p ∈ pairs := by
  induction pairs generalizing seen with
  | nil => exact h
  | cons q rest ih =>
    obtain ⟨name, path⟩ := q
    rw [firstOfEachName] at h
    split at h
    · exact List.mem_cons_of_mem _ (ih h)
    · rcases List.mem_cons.mp h with rfl | h
      · exact List.mem_cons_self
      · exact List.mem_cons_of_mem _ (ih h)

/-- Programs have names, which begin as typed. -/
theorem mem_pathPrograms (hd : w.disk.Named) {searchPath : String}
    {found : List (String × String)} (h : pathPrograms w searchPath stem = .ok found) :
    ∀ p ∈ found, p.1 ≠ "" ∧ Text.startsWith p.1 stem = true := by
  obtain ⟨lists, hlists, hfound⟩ := bind_ok_iff.mp h
  intro p hp
  rw [← Except.ok.inj hfound] at hp
  have hp := mem_of_mem_firstOfEachName (List.mem_mergeSort.mp hp)
  rw [List.mem_filter, List.mem_flatten] at hp
  obtain ⟨⟨list, hlist, hp⟩, hstem⟩ := hp
  obtain ⟨directory, hdirectory⟩ := exists_of_mem_mapM hlists hlist
  exact ⟨name_ne_of_mem_directoryPrograms hd hdirectory p hp, hstem⟩

/-! ### Answers of commands -/

/-- The lines of an answer are not blank. -/
theorem ne_of_mem_answerLines {answer : Option String} {line : String}
    (h : line ∈ answerLines answer) : line ≠ "" := by
  unfold answerLines at h
  cases answer with
  | none => cases h
  | some text =>
    rw [Option.map_some, Option.getD_some, Text.strippedLines, List.mem_map] at h
    obtain ⟨chars, hchars, rfl⟩ := h
    rw [List.mem_filter] at hchars
    simpa using hchars.2

/-- Arguments made of names name what was typed. -/
theorem names_of_mem_argumentsOf {names : List String} {description : String}
    (hnames : ∀ name ∈ names, name ≠ "") (h : c ∈ argumentsOf names stem description) :
    c.Names stem :=
  Candidate.names_of_mem_ofNames hnames (by decide) (by decide) h

namespace Git

variable {ask : Query} (hask : ∀ args, (ask args).Finds d fun _ => True)

include hask

/-- References are names. -/
theorem finds_references :
    (references ask stem).Finds d fun found => ∀ c ∈ found, c.Names stem :=
  (hask _).bind fun _ _ => Action.Finds.pure fun _ hc =>
    names_of_mem_argumentsOf (fun _ hname => ne_of_mem_answerLines hname) hc

/-- The files of the status list are changed ones; one without a name fails. -/
theorem finds_changedFiles :
    (changedFiles ask stem).Finds d fun found => ∀ c ∈ found, c.Changed stem := by
  refine (hask _).bind fun answer _ => Action.Finds.mapM fun file hfile => ?_
  obtain ⟨status, path⟩ := file
  rw [List.mem_filter] at hfile
  refine Action.Finds.ofExcept fun c hc => ?_
  obtain ⟨htext, htext', hcategory, hdescription⟩ := Candidate.checked_ok hc
  refine ⟨htext' ▸ htext, ?_, hcategory, hdescription⟩
  rw [htext', Text.startsWith, String.toList_ofList]
  exact hfile.2

/-- What git finds names what was typed or is a changed file that does. -/
theorem finds_candidates :
    (candidates ask context).Finds d fun found =>
      ∀ c ∈ found, c.Names context.typed ∨ c.Changed context.typed := by
  unfold candidates
  cases context.subcommand with
  | none =>
    refine Action.Finds.pure fun c hc => .inl ?_
    exact names_of_mem_argumentsOf (by decide) hc
  | some subcommand =>
    -- References complete the word, changed files begin with it: the two ends of the disjunction.
    have hfiles (refs : List Candidate) (hrefs : ∀ c ∈ refs, c.Names context.typed)
        (files : List Candidate) (hfiles : ∀ c ∈ files, c.Changed context.typed) :
        Action.Finds d (pure (Candidate.distinct (refs ++ files))) fun found =>
          ∀ c ∈ found, c.Names context.typed ∨ c.Changed context.typed := by
      refine Action.Finds.pure fun c hc => ?_
      rcases List.mem_append.mp (Candidate.mem_of_mem_distinct hc) with hc | hc
      · exact .inl (hrefs c hc)
      · exact .inr (hfiles c hc)
    -- The commands that take no files end with the references alone.
    have hrefs (refs : List Candidate) (hrefs : ∀ c ∈ refs, c.Names context.typed) :
        Action.Finds d (do
          let files ← if fileSubcommands.contains subcommand then changedFiles ask context.typed
            else pure []
          return Candidate.distinct (refs ++ files)) fun found =>
          ∀ c ∈ found, c.Names context.typed ∨ c.Changed context.typed := by
      dsimp only
      split
      · exact (finds_changedFiles hask).bind (hfiles refs hrefs)
      · exact (Action.Finds.pure nofun).bind (hfiles refs hrefs)
    dsimp only
    split
    · exact (finds_references hask).bind hrefs
    · exact (Action.Finds.pure nofun).bind hrefs

end Git

/-! ### Files that name things -/

namespace Npm

/-- The scripts of a package name what was typed. -/
theorem names_of_mem_scriptCandidates {scripts : Members}
    (h : c ∈ scriptCandidates scripts stem) : c.Names stem := by
  rw [scriptCandidates, List.mem_map] at h
  obtain ⟨⟨name, script⟩, hname, rfl⟩ := h
  rw [List.mem_filter, Bool.and_eq_true, decide_eq_true_eq] at hname
  exact ⟨hname.2.1, hname.2.2, nofun, nofun⟩

/-- The subcommands and scripts of npm. -/
theorem names_of_mem_candidates {found : List Candidate} (h : candidates w context = .ok found) :
    ∀ c ∈ found, c.Names context.typed := by
  -- Both commands that offer scripts read them from the same file.
  have hscripts {found : List Candidate}
      (h : (scripts w context.cwd).map (scriptCandidates · context.typed) = .ok found) :
      ∀ c ∈ found, c.Names context.typed := by
    obtain ⟨members, -, rfl⟩ := map_ok_iff.mp h
    exact fun c hc => names_of_mem_scriptCandidates hc
  unfold candidates at h
  split at h
  · obtain ⟨found, hfound, rfl⟩ := map_ok_iff.mp h
    intro c hc
    rcases List.mem_append.mp (Candidate.mem_of_mem_distinct hc) with hc | hc
    · exact names_of_mem_argumentsOf (by decide) hc
    · exact hscripts hfound c hc
  · exact hscripts h
  · rw [← Except.ok.inj h]
    nofun

end Npm

namespace Docker

/-- The subcommands, containers and images of docker. -/
theorem finds_candidates {ask : Query} (hask : ∀ args, (ask args).Finds d fun _ => True) :
    (candidates ask context).Finds d fun found => ∀ c ∈ found, c.Names context.typed := by
  unfold candidates
  cases context.subcommand with
  | none => exact Action.Finds.pure fun c hc => names_of_mem_argumentsOf (by decide) hc
  | some subcommand =>
    dsimp only
    split
    -- Containers or images, each a line of an answer; every other subcommand has no list.
    · refine (hask _).bind fun answer _ => Action.Finds.pure fun c hc => ?_
      exact names_of_mem_argumentsOf (fun _ hname => ne_of_mem_answerLines hname)
        (Candidate.mem_of_mem_distinct hc)
    · split
      · refine (hask _).bind fun answer _ => Action.Finds.pure fun c hc => ?_
        refine names_of_mem_argumentsOf (fun name hname => ?_) (Candidate.mem_of_mem_distinct hc)
        exact ne_of_mem_answerLines (List.mem_filter.mp hname).1
      · exact Action.Finds.pure nofun

end Docker

/-- A whole number is written with some digit. -/
theorem ofInt_ne_nil (n : Int) : Number.Decimal.ofInt n ≠ [] := by
  rw [Number.Decimal.ofInt]
  split
  · exact List.cons_ne_nil _ _
  · exact Number.Decimal.ofNat_ne_nil _

/-- Processes name what was typed, by their numbers. -/
theorem names_of_mem_processCandidates {processes : ProcessList}
    (h : c ∈ processCandidates processes stem) : c.Names stem := by
  cases processes with
  | unavailable => cases h
  | running all =>
    obtain ⟨⟨pid, name⟩, -, hc⟩ := List.mem_filterMap.mp (Candidate.mem_of_mem_distinct h)
    simp only [Option.ite_none_right_eq_some, Option.some.injEq] at hc
    obtain ⟨hbegins, rfl⟩ := hc
    refine ⟨?_, hbegins, nofun, nofun⟩
    simpa using ofInt_ne_nil pid

namespace Hosts

/-- No host of a list has an empty name. -/
theorem ne_of_mem_ofText {format : Format} {text host : String} (h : host ∈ ofText format text) :
    host ≠ "" := by
  rw [ofText, List.mem_map] at h
  obtain ⟨chars, hchars, rfl⟩ := h
  have hplain := (List.mem_filter.mp hchars).2
  rintro hempty
  rw [String.ofList_eq_empty_iff] at hempty
  rw [hempty] at hplain
  cases hplain

/-- So no host of a file has one. -/
theorem ne_of_mem_ofFile {format : Format} {path : String} {hosts : List String}
    (h : ofFile format w path = .ok hosts) : ∀ host ∈ hosts, host ≠ "" := by
  unfold ofFile at h
  split at h
  · rw [← Except.ok.inj h]
    exact fun host hhost => ne_of_mem_ofText hhost
  · rw [← Except.ok.inj h]
    nofun
  · cases h

/-- The hosts of all files. -/
theorem names_of_mem_candidates {home : Path} {found : List Candidate}
    (h : candidates w home stem = .ok found) : ∀ c ∈ found, c.Names stem := by
  obtain ⟨known, hknown, h⟩ := bind_ok_iff.mp h
  obtain ⟨configured, hconfigured, h⟩ := bind_ok_iff.mp h
  obtain ⟨listed, hlisted, h⟩ := bind_ok_iff.mp h
  intro c hc
  rw [← Except.ok.inj h] at hc
  -- Three files of hosts, each read by its own rule and offered in the same way.
  have hnames {hosts : List String} (hhosts : ∀ host ∈ hosts, host ≠ "") {description : String}
      {priority : Int} (hc : c ∈ Candidate.ofNames hosts stem description .hostname priority) :
      c.Names stem :=
    Candidate.names_of_mem_ofNames hhosts (by decide) (by decide) hc
  rcases List.mem_append.mp (Candidate.mem_of_mem_distinct hc) with hc | hc
  · rcases List.mem_append.mp hc with hc | hc
    · exact hnames (ne_of_mem_ofFile hknown) hc
    · exact hnames (ne_of_mem_ofFile hconfigured) hc
  · exact hnames (ne_of_mem_ofFile hlisted) hc

end Hosts

/-! ### Options -/

namespace Help

/-- An option has a dash at least. -/
theorem ne_nil_of_option? {text found : List Char} (h : option? text = some found) :
    found ≠ [] := by
  -- An option begins with a hyphen, which can stand in one.
  have hhyphen : text.head? = some '-' := by
    cases text with
    | nil => cases h
    | cons c rest =>
      by_cases hc : c = '-'
      · rw [hc, List.head?_cons]
      · simp [option?, hc] at h
  obtain ⟨rest, rfl⟩ := List.head?_eq_some_iff.mp hhyphen
  have hfound : found = ('-' :: rest).takeWhile isOptionChar := by
    unfold option? at h
    dsimp only at h
    split at h
    · split at h
      · exact (Option.some.inj h).symm
      · cases h
    · cases h
  rw [hfound, List.takeWhile_cons_of_pos (by decide)]
  exact List.cons_ne_nil _ _

/-- So has every option of a text. -/
theorem ne_nil_of_mem_optionsFrom {inside : Bool} {text o : List Char}
    (h : o ∈ optionsFrom inside text) : o ≠ [] := by
  induction text generalizing inside with
  | nil => cases h
  | cons c rest ih =>
    rw [optionsFrom] at h
    split at h
    · exact ih h
    · split at h
      · rename_i found hfound
        rcases List.mem_cons.mp h with rfl | h
        · exact ne_nil_of_option? hfound
        · exact ih h
      · exact ih h

/-- The options of a help text name what was typed. -/
theorem names_of_mem_candidates {text : String} (h : c ∈ candidates text stem) :
    c.Names stem := by
  obtain ⟨line, -, hc⟩ := List.mem_flatMap.mp (Candidate.mem_of_mem_distinct h)
  obtain ⟨o, ho, rfl⟩ := List.mem_map.mp hc
  rw [List.mem_filter] at ho
  refine ⟨?_, ?_, nofun, nofun⟩
  · simpa using ne_nil_of_mem_optionsFrom ho.1
  · rw [Text.startsWith, String.toList_ofList]
    exact ho.2

/-- So do the common ones. -/
theorem names_of_mem_commonCandidates (h : c ∈ commonCandidates stem) : c.Names stem := by
  rw [commonCandidates, List.mem_map] at h
  obtain ⟨o, ho, rfl⟩ := h
  rw [List.mem_filter] at ho
  have hfilled : ∀ o ∈ commonOptions, o.1 ≠ "" := by decide
  exact ⟨hfilled o ho.1, ho.2, nofun, nofun⟩

end Help

end Completion

end ShellAssist
