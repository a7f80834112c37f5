import ShellAssist.Proofs.Completion.Contract
import ShellAssist.Proofs.Completion.Unanswered
import ShellAssist.Proofs.Completion.WithoutShell
import ShellAssist.Proofs.Host.Entries

namespace ShellAssist.Completion

/-!
# Completing paths

A typed path is cut behind its last slash. The directory that the first part names is listed, and every
entry whose name goes on from the second part becomes one candidate. Taking the quoting off its text
gives the path of the entry as it would have been typed, if the word opens no quote; behind an opening
quote it does if the path does not hold that quote.

* `TypedPath.Cuts`, `TypedPath.Selects` — how a path is cut, and which entries complete it;
* `listDirectory_selects` — that a listing gives these;
* `Backend.Shows` — how a backend's answer is made up of a listing;
* `listDirectory_completes`, `listDirectory_quoted_iff` — completing a path without a quote and behind
  one.
-/

open Line (Context escapeName unquote)

variable {w : World} {context : Context} {directoriesOnly : Bool}
  {entries offered : List (String × Node)} {b : Backend} {listed : List Candidate}

/-! ### Typed paths -/

/-- The path is cut behind its last slash. -/
structure TypedPath.Cuts (p : TypedPath) (path : String) : Prop where
  whole : p.directory ++ p.base = path
  base : '/' ∉ p.base.toList
  directory : p.directory = "" ∨ Text.endsWith p.directory "/" = true

/-- A typed word is cut behind its last slash; a tilde alone is read with one. -/
theorem TypedPath.ofWord_cuts (word : String) :
    (ofWord word).Cuts (if word = "~" then "~/" else word) where
  whole := Text.throughLast_append_afterLast _ _
  base := by
    rw [ofWord, Text.afterLast, String.toList_ofList]
    exact Chars.not_mem_afterLast _ _
  directory := by
    rw [Text.endsWith, List.isSuffixOf_iff_suffix, ← String.toList_eq_nil_iff, ofWord,
      Text.throughLast, String.toList_ofList]
    exact Chars.throughLast_eq_nil_or _ _

/-- A path that cannot be looked up was not typed so, unless the word holds a NUL character. -/
theorem nul_of_searchedFor (h : '\x00' ∈ (searchedFor w context).toList)
    (hword : '\x00' ∉ context.word.toList) : '\x00' ∈ context.cwd.toList ∨
      ∃ home, Environment.get? w.environment "HOME" = some home ∧ '\x00' ∈ home.toList := by
  -- The directory typed is a part of the word with its quotes taken away.
  have htyped : '\x00' ∉ (TypedPath.ofWord context.typed).directory.toList := by
    intro hmem
    have hpath := congrArg String.toList (TypedPath.ofWord_cuts context.typed).whole
    rw [String.toList_append] at hpath
    have hmem := hpath ▸ List.mem_append_left _ hmem
    split at hmem
    · simp at hmem
    · exact hword ((Line.unquote_sublist context.word).mem hmem)
  rw [searchedFor, TypedPath.searched] at h
  rcases Path.nul_of_joinRaw h with h | h
  · exact .inl h
  · split at h
    · simp at h
    · exact .inr ((Environment.nul_of_expandHome h).resolve_left htyped)

/-! ### Listed entries -/

/-- The entries of a directory that complete a typed path, in the order of their names. -/
structure TypedPath.Selects (p : TypedPath) (directoriesOnly : Bool)
    (entries offered : List (String × Node)) : Prop where
  mem_iff : ∀ e, e ∈ offered ↔ e ∈ entries ∧ Text.startsWith e.1 p.base = true ∧
    (Text.startsWith e.1 "." = true → Text.startsWith p.base "." = true) ∧
    (directoriesOnly = true → isDirectoryNode e.2 = true)
  ascending : offered.Pairwise fun a b => a.1 < b.1

/-- The candidate of an entry. -/
def listedCandidate (w : World) (context : Context) (e : String × Node) : Candidate :=
  entryCandidate context.openingQuote (TypedPath.ofWord context.typed) (searchedFor w context) e.1
    (isDirectoryNode e.2)

/-- The path of an entry as it would have been typed. -/
def listedPath (context : Context) (e : String × Node) : String :=
  (TypedPath.ofWord context.typed).directory ++ e.1 ++ directoryMark (isDirectoryNode e.2)

/-- An entry is inserted by its path. -/
theorem text_listedCandidate (w : World) (context : Context) (e : String × Node) :
    (listedCandidate w context e).text = context.insert (listedPath context e) :=
  text_entryCandidate context _ _ e.1 _

/-- Whether an entry completes a typed path. -/
def TypedPath.wants (p : TypedPath) (directoriesOnly : Bool) (e : String × Node) : Bool :=
  p.offers e.1 && (isDirectoryNode e.2 || !directoriesOnly)

theorem TypedPath.offers_iff (p : TypedPath) (name : String) :
    p.offers name = true ↔ Text.startsWith name p.base = true ∧
      (Text.startsWith name "." = true → Text.startsWith p.base "." = true) := by
  rw [offers, Bool.and_eq_true]
  refine and_congr_right fun _ => ?_
  cases Text.startsWith name "." <;> simp

theorem TypedPath.wants_iff (p : TypedPath) (e : String × Node) :
    p.wants directoriesOnly e = true ↔ Text.startsWith e.1 p.base = true ∧
      (Text.startsWith e.1 "." = true → Text.startsWith p.base "." = true) ∧
      (directoriesOnly = true → isDirectoryNode e.2 = true) := by
  rw [wants, Bool.and_eq_true, offers_iff, and_assoc]
  refine and_congr_right fun _ => and_congr_right fun _ => ?_
  cases directoriesOnly <;> simp

theorem listDirectory_eq (w : World) (context : Context) (directoriesOnly : Bool) :
    listDirectory w context directoriesOnly
      = (sortedEntries w w.cwd (searchedFor w context)).map fun entries =>
          (entries.filter ((TypedPath.ofWord context.typed).wants directoriesOnly)).map
            (listedCandidate w context) := by
  -- The loop filters and maps in one pass; the law wants the two apart.
  have hfilter (entries : List (String × Node)) :
      (entries.filter ((TypedPath.ofWord context.typed).wants directoriesOnly)).map
        (listedCandidate w context) = entries.filterMap fun e =>
          if (TypedPath.ofWord context.typed).wants directoriesOnly e = true then
            some (listedCandidate w context e) else none := by
    rw [← List.filterMap_eq_map, List.filterMap_filter]
    rfl
  simp only [hfilter]
  unfold listDirectory
  cases hentries : sortedEntries w w.cwd (searchedFor w context) with
  | error failure =>
    rw [searchedFor] at hentries
    simp only [hentries]
    rfl
  | ok entries =>
    rw [searchedFor] at hentries
    simp only [hentries]
    rfl

/-- **A listing gives the entries that complete the typed path**, in the order of their names. -/
theorem listDirectory_selects (hdisk : w.disk.WellFormed) (directoriesOnly : Bool)
    (h : w.disk.entries w.cwd (searchedFor w context) = .ok entries) :
    ∃ offered, (TypedPath.ofWord context.typed).Selects directoriesOnly entries offered ∧
      listDirectory w context directoriesOnly = .ok (offered.map (listedCandidate w context)) := by
  have hsort := Text.isStableSort_by Prod.fst entries
  refine ⟨(entries.mergeSort fun a b => Text.le a.1 b.1).filter
    ((TypedPath.ofWord context.typed).wants directoriesOnly), ⟨fun e => ?_, ?_⟩, ?_⟩
  · rw [List.mem_filter, hsort.mem_iff, TypedPath.wants_iff]
  · have hnames := (hsort.perm.map Prod.fst).nodup_iff.mpr (hdisk.names_nodup h)
    have hstrict := hsort.sorted.and (List.pairwise_map.mp hnames)
    exact (hstrict.imp fun hab => lt_of_le_of_ne hab.1 hab.2).filter _
  · rw [listDirectory_eq, sortedEntries, h]
    rfl

/-! ### Inserted texts -/

/-- The path of a selected entry goes on from the typed one. -/
theorem TypedPath.Selects.startsWith {e : String × Node}
    (h : (ofWord context.typed).Selects directoriesOnly entries offered) (he : e ∈ offered) :
    Text.startsWith (listedPath context e)
      ((ofWord context.typed).directory ++ (ofWord context.typed).base) = true := by
  obtain ⟨-, hbase, -⟩ := (h.mem_iff e).mp he
  rw [listedPath]
  refine Text.startsWith_append ?_ _
  rw [Text.startsWith_iff, String.toList_append, String.toList_append, List.prefix_append_right_inj]
  exact Text.startsWith_iff.mp hbase

theorem insert_injective (context : Context) : Function.Injective context.insert := by
  intro path path' h
  rw [Context.insert, Context.insert] at h
  split at h
  · rw [← Line.unquote_escapeName path, h, Line.unquote_escapeName]
  · simpa using h

/-- A name without slashes is told from the mark behind it. -/
theorem eq_of_append_directoryMark {name name' : String} (hname : '/' ∉ name.toList)
    (hname' : '/' ∉ name'.toList) {isDirectory isDirectory' : Bool}
    (h : name ++ directoryMark isDirectory = name' ++ directoryMark isDirectory') :
    name = name' := by
  -- Only a name that ends in a slash could be taken for a directory, and no name does.
  cases isDirectory with
  | true =>
    cases isDirectory' with
    | true => simpa [directoryMark] using h
    | false =>
      refine absurd ?_ hname'
      rw [show name' = name ++ "/" by simpa [directoryMark] using h.symm, String.toList_append]
      exact List.mem_append_right _ (by decide)
  | false =>
    cases isDirectory' with
    | true =>
      refine absurd ?_ hname
      rw [show name = name' ++ "/" by simpa [directoryMark] using h, String.toList_append]
      exact List.mem_append_right _ (by decide)
    | false => simpa [directoryMark] using h

/-- No two entries are inserted alike. -/
theorem TypedPath.Selects.texts_nodup {p : TypedPath} (h : p.Selects directoriesOnly entries offered)
    (hslash : ∀ e ∈ entries, '/' ∉ e.1.toList) (w : World) (context : Context) :
    ((offered.map (listedCandidate w context)).map (·.text)).Nodup := by
  have hentry {e : String × Node} (he : e ∈ offered) : '/' ∉ e.1.toList :=
    hslash e ((h.mem_iff e).mp he).1
  rw [List.map_map, List.Nodup, List.pairwise_map]
  refine h.ascending.imp_of_mem fun {a b} ha hb hlt heq => hlt.ne ?_
  have hpath : listedPath context a = listedPath context b := by
    refine insert_injective context ?_
    rw [← text_listedCandidate w, ← text_listedCandidate w]
    exact heq
  rw [listedPath, listedPath, String.append_assoc, String.append_assoc] at hpath
  exact eq_of_append_directoryMark (hentry ha) (hentry hb) (by simpa using hpath)

/-! ### Listings in answers -/

/-- Running commands leaves a listing as it is. -/
theorem listDirectory_of_onlyRuns {α : Type} {step : StateM World α} (hstep : OnlyRuns step)
    (h : listDirectory w context directoriesOnly = .ok listed) :
    listDirectory (step w).2 context directoriesOnly = .ok listed := by
  obtain ⟨commands, calls, hworld⟩ := hstep w
  have hdisk : (step w).2.disk = w.disk := by rw [hworld]
  have hcwd : (step w).2.cwd = w.cwd := by rw [hworld]
  have hsearched : searchedFor (step w).2 context = searchedFor w context := by
    rw [searchedFor, searchedFor, hworld]
  exact (listDirectory_congr hdisk hcwd hsearched directoriesOnly).trans h

namespace Backend

theorem orElse_listing (h : listDirectory w context directoriesOnly = .ok listed) :
    Action.orElse (do
      let w ← get
      ExceptT.mk (pure (listDirectory w context directoriesOnly))) [] w = (listed, w) := by
  simp only [Action.orElse, Action.bind_run, Action.get_run, Action.ofExcept_run, h]

/-- What the command's resolver gives for a request. -/
def supplied (b : Backend) (context : Context) (w : World) : List Candidate :=
  match b.registry.find? context.commandName with
  | none => []
  | some resolver => ((b.resolved resolver.kind context).orElse [] w).1

/-- The files stand behind what the command's resolver gives, if it leaves room for them. -/
theorem fst_orElse_arguments (h : listDirectory w context false = .ok listed)
    (hfiles : ∀ resolver, b.registry.find? context.commandName = some resolver →
      resolver.includeFiles = true) :
    ((b.arguments context).orElse [] w).1 = b.supplied context w ++ listed := by
  cases hresolver : b.registry.find? context.commandName with
  | none =>
    simp only [arguments, supplied, hresolver]
    rw [orElse_listing h, List.nil_append]
  | some resolver =>
    -- The resolver ran programs only, so the listing behind it is that of the world before.
    have hlater := listDirectory_of_onlyRuns (b.onlyRuns_resolved resolver.kind context) h
    have harguments : b.arguments context w
        = (.ok (((b.resolved resolver.kind context).orElse [] w).1 ++ listed),
          ((b.resolved resolver.kind context).orElse [] w).2) := by
      simp only [arguments, hresolver, hfiles resolver hresolver, if_true, Action.bind_run,
        Action.lift_run, Action.get_run, Action.ofExcept_run, hlater]
      rfl
    simp only [supplied, hresolver]
    rw [Action.orElse, harguments]

/-- Where a command takes directories only, and bash does not name them, the listing is all. -/
theorem orElse_arguments_of_directories (h : listDirectory w context true = .ok listed)
    {resolver : Resolver} (hresolver : b.registry.find? context.commandName = some resolver)
    (hkind : resolver.kind = .directories) (hexcludes : resolver.includeFiles = false)
    (hnative : b.family ≠ .bash ∨ b.native ≠ some true) :
    ((b.arguments context).orElse [] w).1 = listed := by
  have hresolved : (b.resolved resolver.kind context).orElse [] w = (listed, w) := by
    rw [hkind]
    show (b.directories context).orElse [] w = _
    rw [directories_eq_listing hnative, orElse_listing h]
  have harguments : b.arguments context w = (.ok listed, w) := by
    simp only [arguments, hresolver, hexcludes, Action.bind_run, Action.lift_run, hresolved,
      Bool.false_eq_true, if_false]
    rfl
  rw [Action.orElse, harguments]

/-- How an answer is made up of a listing, once the shell has been tried. A path is answered by the
listing alone, and so are the directories of a command that takes no other arguments, unless bash names
them itself. For any other argument the files stand behind what the command's resolver gives, but for
those whose text it gives as well. -/
structure Shows (b b' : Backend) (context : Context) (w w' : World) (directoriesOnly : Bool)
    (listed : List Candidate) : Prop where
  path : context.slot = .path →
    (b.registry.find? context.commandName).any (fun r => !r.includeFiles) = directoriesOnly →
    b.answer context w = .ok listed
  argument : context.slot = .argument → directoriesOnly = false →
    (∀ resolver, b.registry.find? context.commandName = some resolver →
      resolver.includeFiles = true) →
    let supplied := b'.supplied context w'
    b.answer context w
      = .ok (Candidate.distinct supplied ++ listed.filter fun c => c.text ∉ supplied.map (·.text))
  directories : context.slot = .argument → directoriesOnly = true →
    ∀ resolver, b.registry.find? context.commandName = some resolver →
      resolver.kind = .directories → resolver.includeFiles = false →
      b.family ≠ .bash ∨ b'.native ≠ some true →
      b.answer context w = .ok listed

/-- **An answer loses nothing of a listing** whose texts are different to itself. -/
theorem shows_of_listing {b b' : Backend} {w' : World} (hprepare : b.prepare w = (.ok b', w'))
    (h : listDirectory w context directoriesOnly = .ok listed)
    (hnodup : (listed.map (·.text)).Nodup) : b.Shows b' context w w' directoriesOnly listed := by
  have hprepared : listDirectory w' context directoriesOnly = .ok listed := by
    have hlater := listDirectory_of_onlyRuns b.onlyRuns_prepare h
    rwa [ExceptT.run, hprepare] at hlater
  obtain ⟨hregistry, hfamily⟩ := (b.finds_prepare w rfl).2 b' (congrArg Prod.fst hprepare)
  refine ⟨fun hslot hresolver => ?_, fun hslot hfiles hresolver => ?_,
    fun hslot honly resolver hresolver hkind hexcludes hnative => ?_⟩
  -- Paths, arguments with files, and arguments that are directories only.
  · rw [answer_of_prepare hprepare, hslot, candidatesFor, paths, hregistry, hresolver,
      orElse_listing hprepared, Candidate.distinct_of_nodup hnodup]
  · subst hfiles
    rw [answer_of_prepare hprepare, hslot, candidatesFor,
      fst_orElse_arguments hprepared (hregistry ▸ hresolver),
      Candidate.distinct_append_of_nodup _ hnodup]
  · subst honly
    rw [answer_of_prepare hprepare, hslot, candidatesFor,
      orElse_arguments_of_directories hprepared (hregistry ▸ hresolver) hkind hexcludes
        (hfamily ▸ hnative), Candidate.distinct_of_nodup hnodup]

end Backend

/-! ### Without a quote -/

/-- What is inserted without a quote stands for the path itself. -/
theorem unquote_insert (hquote : context.openingQuote = "") (path : String) :
    unquote (context.insert path) = path := by
  rw [Context.insert, if_pos hquote, Line.unquote_escapeName]

/-- A directory that cannot be listed gives no candidates, and a path that cannot be looked up is a
failure. -/
theorem listDirectory_of_error {e : AccessError}
    (h : w.disk.entries w.cwd (searchedFor w context) = .error e) :
    listDirectory w context directoriesOnly
      = match e with
        | .refused => .ok []
        | .nul => .error .embeddedNul := by
  rw [listDirectory_eq, sortedEntries]
  cases e with
  | refused => simp only [h, Except.map, List.filter_nil, List.map_nil]
  | nul => simp only [h, Except.map]

/-- **Completing a path without a quote.** The word is cut behind its last slash, a tilde alone being
read with one. From a directory that can be listed each entry that completes it, and nothing else, gives
one candidate, in the order of the names; its text stands for the path as it would have been typed, which
goes on from the word; no two texts are the same, and no answer loses a candidate to another of them. A
directory that cannot be listed gives none, and there is no answer only if the working directory or the
home directory has a path that nothing can have. -/
theorem listDirectory_completes (w : World) (context : Context) (directoriesOnly : Bool)
    (hdisk : w.disk.WellFormed) (hquote : context.openingQuote = "")
    (hword : '\x00' ∉ context.word.toList) :
    let typed := TypedPath.ofWord context.typed
    typed.Cuts (if context.typed = "~" then "~/" else context.typed) ∧
      (∀ entries, w.disk.entries w.cwd (searchedFor w context) = .ok entries →
        ∃ offered, typed.Selects directoriesOnly entries offered ∧
          listDirectory w context directoriesOnly = .ok (offered.map (listedCandidate w context)) ∧
          (∀ e ∈ offered, unquote (listedCandidate w context e).text = listedPath context e ∧
            Text.startsWith (listedPath context e) (typed.directory ++ typed.base) = true) ∧
          ((offered.map (listedCandidate w context)).map (·.text)).Nodup ∧
          ∀ b b' : Backend, ∀ w', b.prepare w = (.ok b', w') →
            b.Shows b' context w w' directoriesOnly (offered.map (listedCandidate w context))) ∧
      (w.disk.entries w.cwd (searchedFor w context) = .error .refused →
        listDirectory w context directoriesOnly = .ok []) ∧
      (w.disk.entries w.cwd (searchedFor w context) = .error .nul →
        listDirectory w context directoriesOnly = .error .embeddedNul ∧
          ('\x00' ∈ context.cwd.toList ∨ ∃ home,
            Environment.get? w.environment "HOME" = some home ∧ '\x00' ∈ home.toList)) := by
  intro typed
  refine ⟨TypedPath.ofWord_cuts context.typed, fun entries hentries => ?_, listDirectory_of_error,
    fun hnul => ⟨listDirectory_of_error hnul, ?_⟩⟩
  · obtain ⟨offered, hselects, hlisted⟩ := listDirectory_selects hdisk directoriesOnly hentries
    have hnodup := hselects.texts_nodup (hdisk.not_slash_mem hentries) w context
    refine ⟨offered, hselects, hlisted, fun e he => ⟨?_, hselects.startsWith he⟩, hnodup,
      fun b b' w' hprepare => Backend.shows_of_listing hprepare hlisted hnodup⟩
    rw [text_listedCandidate, unquote_insert hquote]
  · exact nul_of_searchedFor ((Disk.entries_eq_nul_iff _ _ _).mp hnul) hword

/-- A directory with a blank in its name, for a command that takes directories only. -/
theorem listDirectory_completes_blank :
    let w : World := { disk := { nodes := [(["work"], ⟨.directory false, 1⟩),
      (["work", "my docs"], ⟨.directory false, 2⟩)] } }
    let context := Line.classify "cd my\\ d" none "/work" none
    let b := Backend.ofFamily .generic "sh" {} []
    w.disk.WellFormed ∧ context.openingQuote = "" ∧ '\x00' ∉ context.word.toList ∧
      ∃ listed, listDirectory w context true = .ok listed ∧ b.answer context w = .ok listed ∧
        listed.map (fun c => (c.text, unquote c.text)) = [("my\\ docs/", "my docs/")] := by
  intro w context b
  have hdisk : w.disk.WellFormed := by decide
  have hquote : context.openingQuote = "" := by decide
  have hword : '\x00' ∉ context.word.toList := by decide
  have hslot : context.slot = .argument := by decide
  have hresolver : b.registry.find? context.commandName
      = some { name := "cd", kind := .directories, includeFiles := false } := rfl
  have hentries : w.disk.entries w.cwd (searchedFor w context)
      = .ok [("my docs", .directory false)] := by decide
  have htexts : (listDirectory w context true).map (·.map fun c => (c.text, unquote c.text))
      = .ok [("my\\ docs/", "my docs/")] := by decide +kernel
  have hfamily : b.family ≠ .bash := nofun
  -- The blank is escaped in the text offered and comes back when the quotes are read.
  obtain ⟨-, hcompletes, -, -⟩ := listDirectory_completes w context true hdisk hquote hword
  obtain ⟨offered, -, hlisted, -, -, hshows⟩ := hcompletes _ hentries
  rw [hlisted] at htexts
  refine ⟨hdisk, hquote, hword, _, hlisted, ?_, Except.ok.inj htexts⟩
  exact (hshows b { b with initialized := true } w rfl).directories hslot rfl _ hresolver rfl rfl
    (.inl hfamily)

/-- A changed file that git has named already is not listed again. -/
theorem listDirectory_dropped :
    let w : World := {
      disk := { nodes := [(["work"], ⟨.directory false, 1⟩), (["work", "foo"],
        ⟨.file [] false false, 2⟩)] }
      commands := [(["git", "status", "--porcelain"], .finished " M foo\n" 0)] }
    let context := Line.classify "git add fo" none "/work" none
    let b := Backend.ofFamily .generic "sh" {} []
    let shown (found : List Candidate) := found.map fun c => (c.text, c.description)
    (listDirectory w context false).map shown = .ok [("foo", "file")] ∧
      (b.answer context w).map shown = .ok [("foo", "modified file")] := by
  decide +kernel

/-! ### Behind a quote -/

/-- The quote that a word begins with is carried over. -/
theorem openingQuote_of_head? {quote : Char} (hword : context.word.toList.head? = some quote)
    (hquote : Line.isQuote quote = true) : context.openingQuote = String.ofList [quote] := by
  obtain ⟨rest, hrest⟩ := List.head?_eq_some_iff.mp hword
  unfold Context.openingQuote
  rw [hrest]
  exact if_pos hquote

/-- Behind an opening quote a path is kept exactly if it does not hold that quote. -/
theorem unquote_listedCandidate_iff {quote : Char} (hword : context.word.toList.head? = some quote)
    (hquote : Line.isQuote quote = true) (e : String × Node) :
    unquote (listedCandidate w context e).text = listedPath context e
      ↔ quote ∉ ((TypedPath.ofWord context.typed).directory ++ e.1).toList := by
  have hopening := openingQuote_of_head? hword hquote
  have hmark : quote ∉ (directoryMark (isDirectoryNode e.2)).toList := by
    have hslash : quote ≠ '/' := by
      rintro rfl
      exact absurd hquote (by decide)
    cases isDirectoryNode e.2 <;> simp [directoryMark, hslash]
  rw [text_listedCandidate, Context.insert, hopening, if_neg (by simp),
    Line.unquote_quoted_eq_iff hquote, listedPath, String.toList_append, List.mem_append,
    or_iff_left hmark]

/-- **Completing a path behind a quote.** The entries are the same ones, in the same order. The text of
one stands for its path exactly if neither the directory as typed nor the name holds the quote that the
word opens; a text that does loses the quotes in it. -/
theorem listDirectory_quoted_iff (w : World) (context : Context) (directoriesOnly : Bool)
    (hdisk : w.disk.WellFormed) (quote : Char) (hword : context.word.toList.head? = some quote)
    (hquote : Line.isQuote quote = true) :
    let typed := TypedPath.ofWord context.typed
    typed.Cuts (if context.typed = "~" then "~/" else context.typed) ∧
      (∀ entries, w.disk.entries w.cwd (searchedFor w context) = .ok entries →
        ∃ offered, typed.Selects directoriesOnly entries offered ∧
          listDirectory w context directoriesOnly = .ok (offered.map (listedCandidate w context)) ∧
          ∀ e ∈ offered, unquote (listedCandidate w context e).text = listedPath context e
            ↔ quote ∉ (typed.directory ++ e.1).toList) ∧
      (w.disk.entries w.cwd (searchedFor w context) = .error .refused →
        listDirectory w context directoriesOnly = .ok []) ∧
      (w.disk.entries w.cwd (searchedFor w context) = .error .nul →
        listDirectory w context directoriesOnly = .error .embeddedNul) := by
  intro typed
  refine ⟨TypedPath.ofWord_cuts context.typed, fun entries hentries => ?_, listDirectory_of_error,
    listDirectory_of_error⟩
  obtain ⟨offered, hselects, hlisted⟩ := listDirectory_selects hdisk directoriesOnly hentries
  exact ⟨offered, hselects, hlisted, fun e _ => unquote_listedCandidate_iff hword hquote e⟩

/-- A directory with a blank in its name, behind an apostrophe. -/
theorem listDirectory_quoted_blank :
    let w : World := { disk := { nodes := [(["work"], ⟨.directory false, 1⟩),
      (["work", "my docs"], ⟨.directory false, 2⟩)] } }
    let context := Line.classify "cd 'my d" none "/work" none
    w.disk.WellFormed ∧ context.word.toList.head? = some '\'' ∧ Line.isQuote '\'' = true ∧
      ∃ offered : List (String × Node),
        listDirectory w context true = .ok (offered.map (listedCandidate w context)) ∧
        (offered.map fun e => (listedCandidate w context e).text) = ["'my docs/"] ∧
        ∀ e ∈ offered, unquote (listedCandidate w context e).text = listedPath context e := by
  intro w context
  have hdisk : w.disk.WellFormed := by decide
  have hword : context.word.toList.head? = some '\'' := by decide
  have hentries : w.disk.entries w.cwd (searchedFor w context)
      = .ok [("my docs", .directory false)] := by decide
  obtain ⟨-, hquoted, -, -⟩ := listDirectory_quoted_iff w context true hdisk '\'' hword (by decide)
  -- The name holds no quote, so the one in front of it may stay open.
  obtain ⟨offered, hselects, hlisted, hpath⟩ := hquoted _ hentries
  have htexts : (listDirectory w context true).map (·.map (·.text)) = .ok ["'my docs/"] := by
    decide +kernel
  rw [hlisted] at htexts
  refine ⟨hdisk, hword, rfl, offered, hlisted, ?_, fun e he => (hpath e he).mpr ?_⟩
  · exact List.map_map.symm.trans (Except.ok.inj htexts)
  · obtain rfl := List.mem_singleton.mp ((hselects.mem_iff e).mp he).1
    decide

/-- An apostrophe in a name closes the one that the word opens, and both are lost. -/
theorem listDirectory_quoted_apostrophe :
    let w : World := { disk := { nodes := [(["work"], ⟨.directory false, 1⟩),
      (["work", "it's"], ⟨.file [] false false, 2⟩)] } }
    let context := Line.classify "cat 'it" none "/work" none
    context.word.toList.head? = some '\'' ∧
      (listDirectory w context false).map (·.map fun c => (c.text, unquote c.text))
        = .ok [("'it's", "its")] := by
  decide +kernel

end ShellAssist.Completion
