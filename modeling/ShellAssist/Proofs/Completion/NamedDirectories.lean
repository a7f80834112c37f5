import ShellAssist.Proofs.Completion.Listing
import ShellAssist.Proofs.Text.Lines
import Mathlib.Data.List.Sort

namespace ShellAssist.Completion

/-!
# Directories that bash names

For a command that takes directories bash itself is asked for their names. If it names those of the
working directory that begin as typed, in whatever order and however often, the candidates are the ones
of the listing: the names are put in order and freed of repeats, hidden ones are left out, and each is
inserted as an entry of the listing is.

* `Backend.NamesDirectories` — what such an answer holds;
* `nativeDirectory_eq` — a named directory is inserted as a listed one;
* `Backend.named_eq_listed` — the candidates of both.
-/

open Line (Context Slot escapeName)

variable {w : World} {context : Context} {b g : Backend} {entries : List (String × Node)}
  {output : String}

/-! ### The word of an argument -/

/-- The word of an argument names no directory to look in. -/
theorem TypedPath.ofWord_of_argument (hslot : context.slot = .argument)
    (htilde : context.typed ≠ "~") :
    TypedPath.ofWord context.typed = { directory := "", base := context.typed } := by
  have hslash := not_slash_mem_typed hslot
  simp only [ofWord, if_neg htilde, Text.throughLast, Text.afterLast,
    Chars.throughLast_of_not_mem hslash, Chars.afterLast_of_not_mem hslash, String.ofList_toList,
    String.ofList_nil]

/-- The working directory is listed for it. -/
theorem entries_of_argument (hslot : context.slot = .argument) (htilde : context.typed ≠ "~")
    (h : w.disk.entries w.cwd context.cwd = .ok entries) :
    w.disk.entries w.cwd (searchedFor w context) = .ok entries := by
  rw [searchedFor, TypedPath.ofWord_of_argument hslot htilde, TypedPath.searched, if_pos rfl]
  exact Disk.entries_joinRaw_dot h

/-! ### Inserted names -/

/-- A directory that bash names is inserted as it would be from the listing. -/
theorem nativeDirectory_eq {name : String} (hslash : '/' ∉ name.toList) (quote base searched : String) :
    Backend.nativeDirectory quote name
      = { entryCandidate quote { directory := "", base } searched name true with metadata := [] } := by
  have hpath : Environment.dropSlashes name = name := by
    have hkept := Chars.prefix_dropEndWhile (p := (· = '/')) (List.prefix_refl name.toList)
      fun c hc => decide_eq_false fun heq => hslash (heq ▸ hc)
    rw [Environment.dropSlashes, ← hkept.eq_of_length_le (Chars.dropEndWhile_prefix _ _).length_le,
      String.ofList_toList]
  have hdisplay : Text.afterLast '/' name = name := by
    rw [Text.afterLast, Chars.afterLast_of_not_mem hslash, String.ofList_toList]
  have hnothing : escapeName "" = "" := by decide
  unfold Backend.nativeDirectory entryCandidate
  simp only [hpath, hdisplay, hnothing, if_true, ite_self, String.append_empty]

/-! ### The answer of bash -/

namespace Backend

/-- The command that asks bash for the directories that begin as typed. -/
def directoryQuestion (b : Backend) (typed : String) : List String :=
  [b.shellPath, "-c", "compgen -A \"$1\" -- \"$2\"", "bash", "directory", typed]

/-- Bash answers a request for directories with the names of those in the working directory that begin as
typed, a line each, in any order and any number of times. -/
structure NamesDirectories (b : Backend) (context : Context) (w : World)
    (entries : List (String × Node)) (output : String) : Prop where
  answered : (b.ask (some context.cwd) (b.directoryQuestion context.typed) w).1 = .ok (some output)
  mem_iff : ∀ name, name ∈ Text.lines output ↔ ∃ node, (name, node) ∈ entries ∧
    isDirectoryNode node = true ∧ Text.startsWith name context.typed = true
  /-- No name has white space around it. -/
  stripped : ∀ name ∈ Text.lines output, Chars.strip name.toList = name.toList

/-- The directories of an answer, in order and without repeats. -/
theorem directories_of_answer (hbash : b.family = .bash) (hnative : b.native = some true)
    (h : (b.ask (some context.cwd) (b.directoryQuestion context.typed) w).1 = .ok (some output)) :
    (b.directories context w).1 = .ok (((Text.sort (Text.distinct (Text.strippedLines output))).filter
      (TypedPath.offers { directory := "", base := context.typed })).map
        (nativeDirectory context.openingQuote)) := by
  rw [directoryQuestion] at h
  unfold directories compgen
  simp only [hbash, if_pos hnative, Action.bind_run]
  rcases hanswer : b.ask (some context.cwd) [b.shellPath, "-c", "compgen -A \"$1\" -- \"$2\"",
    "bash", "directory", context.typed] w with ⟨failure | answer, w'⟩
  · rw [hanswer] at h
    cases h
  · rw [hanswer] at h
    obtain rfl := Except.ok.inj h
    rfl

/-- Lines without white space around them are left as they are. -/
theorem strippedLines_eq_lines (h : ∀ name ∈ Text.lines output,
    name ≠ "" ∧ Chars.strip name.toList = name.toList) :
    Text.strippedLines output = Text.lines output := by
  have hline : ∀ line ∈ Chars.lines output.toList, line ≠ [] ∧ Chars.strip line = line := by
    intro line hline
    have hname := h (String.ofList line) (List.mem_map_of_mem hline)
    rw [String.toList_ofList] at hname
    refine ⟨?_, hname.2⟩
    rintro rfl
    exact hname.1 rfl
  have hstrip : (Chars.lines output.toList).map Chars.strip = Chars.lines output.toList := by
    rw [List.map_congr_left fun line hmem => (hline line hmem).2, List.map_id']
  rw [Text.strippedLines, Text.lines, hstrip, List.filter_eq_self.mpr]
  exact fun line hmem => decide_eq_true (hline line hmem).1

/-- What is left of the answer are the names of the listed entries. -/
theorem NamesDirectories.names_eq {offered : List (String × Node)}
    (h : b.NamesDirectories context w entries output)
    (hselects : TypedPath.Selects { directory := "", base := context.typed } true entries offered) :
    (Text.sort (Text.distinct (Text.lines output))).filter
      (TypedPath.offers { directory := "", base := context.typed }) = offered.map Prod.fst := by
  -- Both lists stand in strict order, so their members decide.
  refine List.Pairwise.eq_of_mem_iff ((Text.sort_distinct_ascending _).filter _)
    (List.pairwise_map.mpr hselects.ascending) fun name => ?_
  rw [List.mem_filter, Text.mem_sort, Text.mem_distinct, h.mem_iff, TypedPath.offers_iff,
    List.mem_map]
  constructor
  · rintro ⟨⟨node, hmem, hdirectory, hbegins⟩, -, hhidden⟩
    exact ⟨(name, node), (hselects.mem_iff _).mpr ⟨hmem, hbegins, hhidden, fun _ => hdirectory⟩, rfl⟩
  · rintro ⟨e, he, rfl⟩
    obtain ⟨hmem, hbegins, hhidden, hdirectory⟩ := (hselects.mem_iff e).mp he
    exact ⟨⟨e.2, hmem, hdirectory rfl, hbegins⟩, hbegins, hhidden⟩

/-- **Bash and the listing offer the same directories.** For an argument that is not a tilde, if bash
names the directories of the working directory that begin as typed, in any order and any number of
times, and no name has white space around it, a backend that asks bash and one that lists the directory
find the same candidates, in the same order; only those of the listing have metadata. -/
theorem named_eq_listed (b g : Backend) (context : Context) (w : World)
    (hbash : b.family = .bash) (hnative : b.native = some true) (hgeneric : g.family = .generic)
    (hdisk : w.disk.WellFormed) (hnamed : w.disk.Named) (hslot : context.slot = .argument)
    (htilde : context.typed ≠ "~") (entries : List (String × Node))
    (hentries : w.disk.entries w.cwd context.cwd = .ok entries) (output : String)
    (h : b.NamesDirectories context w entries output) :
    ∃ named listed, (b.directories context w).1 = .ok named ∧
      (g.directories context w).1 = .ok listed ∧
      named = listed.map fun c => { c with metadata := [] } := by
  have htyped := TypedPath.ofWord_of_argument hslot htilde
  have hsearched := entries_of_argument hslot htilde hentries
  obtain ⟨offered, hselects, hlisted⟩ := listDirectory_selects hdisk true hsearched
  rw [htyped] at hselects
  -- Names are not empty, so no line of the answer is lost.
  have hlines : Text.strippedLines output = Text.lines output := by
    refine strippedLines_eq_lines fun name hname => ⟨?_, h.stripped name hname⟩
    obtain ⟨node, hmem, -, -⟩ := (h.mem_iff name).mp hname
    exact hnamed.of_mem_entries hentries _ hmem
  refine ⟨_, offered.map (listedCandidate w context),
    directories_of_answer hbash hnative h.answered, ?_, ?_⟩
  · rw [directories_eq_listing (.inl (by rw [hgeneric]; decide))]
    exact hlisted
  · rw [hlines, h.names_eq hselects, List.map_map, List.map_map]
    refine List.map_congr_left fun e he => ?_
    obtain ⟨hmem, -, -, hdirectory⟩ := (hselects.mem_iff e).mp he
    have hslash := hdisk.not_slash_mem hentries e hmem
    rw [Function.comp_apply, Function.comp_apply, listedCandidate, htyped, hdirectory rfl]
    exact nativeDirectory_eq hslash _ _ _

/-- Bash names a directory twice, where a file and another directory stand beside it. -/
theorem named_eq_listed_repeated :
    let w : World := {
      disk := { nodes := [(["work"], ⟨.directory false, 1⟩), (["work", "src"], ⟨.directory false, 2⟩),
        (["work", "my docs"], ⟨.directory false, 3⟩), (["work", "my diary"], ⟨.file [] false false, 4⟩)] }
      commands := [(["bash", "-c", "compgen -A \"$1\" -- \"$2\"", "bash", "directory", "my d"],
        .finished "my docs\nmy docs\n" 0)] }
    let context := Line.classify "cd my\\ d" none "/work" none
    let b := { ofFamily .bash "bash" {} [] with native := some true }
    let g := ofFamily .generic "sh" {} []
    w.disk.WellFormed ∧ w.disk.Named ∧ context.slot = .argument ∧ context.typed ≠ "~" ∧
      ∃ named listed, (b.directories context w).1 = .ok named ∧
        (g.directories context w).1 = .ok listed ∧
        named = listed.map (fun c => { c with metadata := [] }) ∧
        named.map (·.text) = ["my\\ docs/"] := by
  intro w context b g
  have hdisk : w.disk.WellFormed := by decide
  have hnamed : w.disk.Named := by decide
  have hslot : context.slot = .argument := by decide
  have htilde : context.typed ≠ "~" := by decide
  have hentries : w.disk.entries w.cwd context.cwd = .ok [("src", .directory false),
      ("my docs", .directory false), ("my diary", .file [] false false)] := by decide
  have hlines : Text.lines "my docs\nmy docs\n" = ["my docs", "my docs"] := by decide
  have htyped : context.typed = "my d" := by decide
  have hnames : b.NamesDirectories context w [("src", .directory false),
      ("my docs", .directory false), ("my diary", .file [] false false)] "my docs\nmy docs\n" := by
    refine ⟨by decide, fun name => ?_, by rw [hlines]; decide⟩
    rw [hlines, htyped]
    simp only [List.mem_cons, List.not_mem_nil, or_false, or_self, Prod.mk.injEq]
    constructor
    · rintro rfl
      exact ⟨.directory false, by decide⟩
    · rintro ⟨node, ⟨rfl, -⟩ | ⟨rfl, -⟩ | ⟨-, rfl⟩, hdirectory, hbegins⟩
      · exact absurd hbegins (by decide)
      · rfl
      · cases hdirectory
  obtain ⟨named, listed, hnames, hlisted, heq⟩ := named_eq_listed b g context w rfl rfl rfl hdisk
    hnamed hslot htilde _ hentries _ hnames
  have htexts : (b.directories context w).1.map (·.map (·.text)) = .ok ["my\\ docs/"] := by
    decide +kernel
  rw [hnames] at htexts
  exact ⟨hdisk, hnamed, hslot, htilde, named, listed, hnames, hlisted, heq, Except.ok.inj htexts⟩

end Backend

end ShellAssist.Completion
