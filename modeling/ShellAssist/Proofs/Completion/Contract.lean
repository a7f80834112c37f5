import ShellAssist.Proofs.Completion.Offers

namespace ShellAssist

/-!
# What a backend promises

An answer has no empty text and no text twice, and all of it goes on from the word under the cursor:
a variable from the word as written, everything else from the word without its quoting. A resolver
that fails costs the answer its own candidates and no others.

* `Context.Completes` — going on from the word;
* `Context.InsertsFrom` — doing so as the path of a file;
* `Offered.completes` — every source keeps to it;
* `Backend.answer_eq_error_iff` — when a request is not answered;
* `Backend.resolve_completes` — so does every answer.
-/

namespace Line.Context

/-- Whether a text goes on from the word under the cursor: a variable from the word as written;
anything else, as it is, behind the word's opening quote or without its quoting, from the word
without its quoting. -/
def Completes (context : Context) (text : String) : Prop :=
  if context.slot = .variable then Text.startsWith text context.word = true
  else
    Text.startsWith text context.typed = true ∨
      (∃ rest, text = context.openingQuote ++ rest ∧ Text.startsWith rest context.typed = true) ∨
      Text.startsWith (unquote text) context.typed = true

/-- A path as it is put into the line: behind the opening quote of the word under the cursor as it
is, without one escaped. -/
def insert (context : Context) (path : String) : String :=
  if context.openingQuote = "" then escapeName path else context.openingQuote ++ path

/-- A text is that of a path that begins as typed. -/
def InsertsFrom (context : Context) (text : String) : Prop :=
  ∃ path, path ≠ "" ∧ Text.startsWith path context.typed = true ∧ text = context.insert path

end Line.Context

namespace Completion

open Line (Context Slot escapeName unquote)

variable {context : Context} {text : String}

/-! ### Paths cut and put together -/

/-- A typed path and an entry that begins as its last component go on from the word. -/
theorem TypedPath.startsWith_of_offers {word name : String}
    (h : (ofWord word).offers name = true) :
    Text.startsWith ((ofWord word).directory ++ name) word = true := by
  rw [offers, Bool.and_eq_true] at h
  obtain ⟨rest, hrest⟩ := Text.startsWith_iff.mp h.1
  have hword : word.toList <+: ((ofWord word).directory ++ (ofWord word).base).toList := by
    unfold ofWord
    dsimp only
    rw [Text.throughLast_append_afterLast]
    -- Only the home directory's short form grows, by its slash.
    split
    · rename_i htilde
      rw [htilde]
      decide
    · exact List.prefix_refl _
  rw [Text.startsWith_iff]
  refine hword.trans ⟨rest, ?_⟩
  rw [String.toList_append, String.toList_append, List.append_assoc, hrest]

/-- What is put behind a directory's name. -/
def directoryMark (isDirectory : Bool) : String :=
  if isDirectory then "/" else ""

theorem escapeName_directoryMark (isDirectory : Bool) :
    escapeName (directoryMark isDirectory) = directoryMark isDirectory := by
  cases isDirectory <;> decide

/-- An entry is inserted with its directory as typed. -/
theorem text_entryCandidate (context : Context) (typed : TypedPath) (searched name : String)
    (isDirectory : Bool) :
    (entryCandidate context.openingQuote typed searched name isDirectory).text
      = context.insert (typed.directory ++ name ++ directoryMark isDirectory) := by
  rw [Context.insert]
  split
  · rename_i hquote
    rw [hquote, Line.escapeName_append, Line.escapeName_append, escapeName_directoryMark]
    simp [entryCandidate, directoryMark]
  · rename_i hquote
    simp [entryCandidate, hquote, directoryMark, String.append_assoc]

/-- A directory that the shell names is inserted with one slash behind it. -/
theorem text_nativeDirectory (context : Context) (name : String) :
    (Backend.nativeDirectory context.openingQuote name).text
      = context.insert (Environment.dropSlashes name ++ directoryMark true) := by
  rw [Context.insert]
  split
  · rename_i hquote
    rw [hquote, Line.escapeName_append, escapeName_directoryMark]
    simp [Backend.nativeDirectory, directoryMark]
  · rename_i hquote
    simp [Backend.nativeDirectory, hquote, directoryMark, String.append_assoc]

/-- A directory that begins as typed does so without its slashes. -/
theorem startsWith_dropSlashes {name typed : String} (h : Text.startsWith name typed = true)
    (htyped : '/' ∉ typed.toList) :
    Text.startsWith (Environment.dropSlashes name) typed = true := by
  rw [Text.startsWith_iff, Environment.dropSlashes, String.toList_ofList]
  refine Chars.prefix_dropEndWhile (Text.startsWith_iff.mp h) fun c hc => ?_
  rw [decide_eq_false_iff_not]
  rintro rfl
  exact htyped hc

/-! ### Going on from the word -/

theorem completes_of_begins (hslot : context.slot ≠ .variable)
    (h : Text.startsWith text context.typed = true) : context.Completes text := by
  rw [Context.Completes, if_neg hslot]
  exact .inl h

/-- An entry of the directory that the word names goes on from it. -/
theorem insertsFrom_entry {name : String} (hname : name ≠ "")
    (hoffers : (TypedPath.ofWord context.typed).offers name = true) (searched : String)
    (isDirectory : Bool) :
    context.InsertsFrom (entryCandidate context.openingQuote (TypedPath.ofWord context.typed)
      searched name isDirectory).text := by
  refine ⟨_, ?_, ?_, text_entryCandidate context _ searched name isDirectory⟩
  · simp [String.append_eq_empty_iff, hname]
  · exact Text.startsWith_append (TypedPath.startsWith_of_offers hoffers) (directoryMark isDirectory)

theorem not_slash_mem_typed (hslot : context.slot = .argument) : '/' ∉ context.typed.toList :=
  fun hmem => word_of_slot_argument hslot ((Line.unquote_sublist context.word).mem hmem)

/-- So does a directory that the shell names: the word of an argument has no slash to lose. -/
theorem insertsFrom_directory (hslot : context.slot = .argument) {name : String}
    (hbegins : Text.startsWith name context.typed = true) :
    context.InsertsFrom (Backend.nativeDirectory context.openingQuote name).text := by
  refine ⟨_, ?_, ?_, text_nativeDirectory context name⟩
  · simp [String.append_eq_empty_iff, directoryMark]
  · exact Text.startsWith_append (startsWith_dropSlashes hbegins (not_slash_mem_typed hslot))
      (directoryMark true)

theorem completes_of_insertsFrom (hslot : context.slot ≠ .variable)
    (h : context.InsertsFrom text) : text ≠ "" ∧ context.Completes text := by
  obtain ⟨path, hpath, hbegins, rfl⟩ := h
  rw [Context.Completes, if_neg hslot, Context.insert]
  split
  · rw [Line.unquote_escapeName]
    exact ⟨fun hempty => hpath (Line.escapeName_eq_empty_iff.mp hempty), .inr (.inr hbegins)⟩
  · refine ⟨?_, .inr (.inl ⟨path, rfl, hbegins⟩)⟩
    exact fun hempty => hpath (String.append_eq_empty_iff.mp hempty).2

/-- **Every source keeps to the word**: its candidates have a text, which goes on from the word. -/
theorem Offered.completes {registry : Registry} {c : Candidate} (h : Offered registry context c)
    (hown : ¬ registry.Supplies context c) : c.text ≠ "" ∧ context.Completes c.text := by
  cases h with
  | «variable» hslot hbegins htext hcategory =>
    refine ⟨htext, ?_⟩
    rw [Context.Completes, if_pos hslot]
    exact hbegins
  | name hslot hnames => exact ⟨hnames.text_ne, completes_of_begins hslot hnames.begins⟩
  | entry hslot searched name isDirectory hname hoffers =>
    exact completes_of_insertsFrom hslot (insertsFrom_entry hname hoffers searched isDirectory)
  | directory hslot name hbegins =>
    exact completes_of_insertsFrom (ne_of_eq_of_ne hslot nofun) (insertsFrom_directory hslot hbegins)
  | changed hslot hchanged =>
    refine ⟨hchanged.text_ne, completes_of_begins (ne_of_eq_of_ne hslot nofun) hchanged.begins⟩
  | fixed hslot hsupplies => exact absurd hsupplies hown

/-- A file that no resolver supplies is inserted by its path, or is a changed file. -/
theorem Offered.insertsFrom_of_file {registry : Registry} {c : Candidate}
    (h : Offered registry context c) (hkind : c.category = .file ∨ c.category = .directory)
    (hown : ¬ registry.Supplies context c) :
    context.InsertsFrom c.text ∨ c.Changed context.typed := by
  cases h with
  | «variable» hslot hbegins htext hcategory =>
    rw [hcategory] at hkind
    rcases hkind with hkind | hkind <;> cases hkind
  | name hslot hnames =>
    rcases hkind with hkind | hkind
    · exact absurd hkind hnames.not_file
    · exact absurd hkind hnames.not_directory
  | entry hslot searched name isDirectory hname hoffers =>
    exact .inl (insertsFrom_entry hname hoffers searched isDirectory)
  | directory hslot name hbegins => exact .inl (insertsFrom_directory hslot hbegins)
  | changed hslot hchanged => exact .inr hchanged
  | fixed hslot hsupplies => exact absurd hsupplies hown

/-! ### Answers -/

namespace Backend

/-- The candidates of an answer, if there is one. -/
def answer (b : Backend) (context : Context) (w : World) : Except Failure (List Candidate) :=
  (b.resolve context w).1.map Prod.fst

/-- Once the shell has been tried, a request is answered. -/
theorem answer_of_prepare {b b' : Backend} {w w' : World} (h : b.prepare w = (.ok b', w'))
    (context : Context) : b.answer context w
      = .ok (Candidate.distinct ((b'.candidatesFor context context.slot).orElse [] w').1) := by
  rw [answer, resolve, Action.bind_run, h]
  rfl

/-- There is an answer just if the shell could be tried, and it is the one given then. -/
theorem answer_eq_ok_iff {b : Backend} {w : World} {found : List Candidate} :
    b.answer context w = .ok found ↔ ∃ b' w', b.prepare w = (.ok b', w') ∧
      found = Candidate.distinct ((b'.candidatesFor context context.slot).orElse [] w').1 := by
  constructor
  · intro h
    rcases hprepare : b.prepare w with ⟨failure | b', w'⟩
    · rw [answer, resolve, Action.bind_run, hprepare] at h
      cases h
    · rw [answer_of_prepare hprepare] at h
      exact ⟨b', w', rfl, (Except.ok.inj h).symm⟩
  · rintro ⟨b', w', hprepare, rfl⟩
    exact answer_of_prepare hprepare context

/-- **When a request is not answered**: where the shell is tried for the first time, and is started
with a time limit for which the system does not wait. -/
theorem answer_eq_error_iff {b : Backend} {w : World} {failure : Failure} :
    b.answer context w = .error failure ↔ b.initialized = false ∧
      World.waitFailure? (some b.timeout) = some failure ∧
      ∃ args ∈ b.detection, (World.answer args w.commands).1.isStarted = true := by
  have hanswer : b.answer context w = .error failure ↔ (b.prepare w).1 = .error failure := by
    rw [answer, resolve, Action.bind_run]
    rcases b.prepare w with ⟨failure' | b', w'⟩
    · exact ⟨fun h => congrArg Except.error (Except.error.inj h), fun h => Except.error.inj h ▸ rfl⟩
    · exact iff_of_false nofun nofun
  -- All that can fail is the one call that finds the shell out, and only the first time.
  rw [hanswer, prepare]
  cases hinitialized : b.initialized with
  | true => exact iff_of_false nofun fun h => Bool.noConfusion h.1
  | false =>
    rw [if_neg Bool.false_ne_true]
    cases b.detection with
    | none => exact iff_of_false nofun (by simp)
    | some args =>
      dsimp only
      have hasked : (World.output args (some b.timeout) none none [0] w).1 = .error failure ↔ _ :=
        output_eq_error_iff _ _ _ _ _
      rw [Action.bind_run]
      simp only [true_and, Option.mem_def, Option.some.injEq, exists_eq_left']
      rw [← hasked, ask]
      rcases World.output args (some b.timeout) none none [0] w with ⟨failure' | answer, w'⟩
      · exact ⟨fun h => congrArg Except.error (Except.error.inj h),
          fun h => congrArg Except.error (Except.error.inj h)⟩
      · exact iff_of_false nofun nofun

/-- Every candidate of an answer comes from one of the sources. -/
theorem offered_of_mem_answer {b : Backend} {w : World} {found : List Candidate}
    (hdisk : w.disk.Named) (h : b.answer context w = .ok found) :
    (found.map (·.text)).Nodup ∧ ∀ c ∈ found, Offered b.registry context c := by
  rcases hresolve : (b.resolve context w).1 with failure | ⟨found', b'⟩
  · rw [answer, hresolve] at h
    cases h
  · rw [answer, hresolve] at h
    obtain rfl : found' = found := Except.ok.inj h
    exact (b.finds_resolve hdisk context w rfl).2 _ hresolve

end Backend

end Completion

end ShellAssist
