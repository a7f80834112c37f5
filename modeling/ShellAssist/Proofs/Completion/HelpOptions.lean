import ShellAssist.Proofs.Completion.Sources
import ShellAssist.Proofs.FirstOccurrences

namespace ShellAssist.Completion

/-!
# Options in help texts, block by block

A line of a help text is cut at all characters that cannot stand in an option. The blocks between them
are options or they are not, as a whole: what begins inside a block is never one.

* `Help.blocks`, `Help.mem_blocks_iff` — the blocks of a line;
* `Help.optionsFrom_eq` — the options of a line are those of its blocks that are options;
* `Help.offered` — the options of a help text, each time that it names one;
* `Backend.options_of_help` — what is offered for a request.
-/

open Line (Context)

variable {line run rest block : List Char}

namespace Help

/-! ### Blocks -/

/-- Whether all characters can stand inside an option. -/
def Solid (run : List Char) : Prop :=
  ∀ c ∈ run, isOptionChar c = true

/-- The blocks of characters that can stand inside an option. -/
def blocks (line : List Char) : List (List Char) :=
  (line.splitOnP fun c => !isOptionChar c).filter fun block => block ≠ []

/-- A block of a line: nothing that can stand inside an option is next to it. -/
structure IsBlock (line block : List Char) : Prop where
  ne_nil : block ≠ []
  solid : Solid block
  maximal : ∃ before behind, line = before ++ block ++ behind ∧
    (∀ c ∈ before.getLast?, isOptionChar c = false) ∧ ∀ c ∈ behind.head?, isOptionChar c = false

/-- A text is a run of characters that can stand inside an option, and goes on with another character if
it goes on. -/
theorem exists_run (text : List Char) :
    ∃ run rest, text = run ++ rest ∧ Solid run ∧ ∀ c ∈ rest.head?, isOptionChar c = false := by
  refine ⟨text.takeWhile isOptionChar, text.dropWhile isOptionChar,
    List.takeWhile_append_dropWhile.symm, fun c hc => List.mem_takeWhile_imp hc, fun c hc => ?_⟩
  have hhead := List.head?_dropWhile_not isOptionChar text
  rw [hc] at hhead
  exact hhead

/-- A run is a piece up to the character that ends it. -/
theorem splitOnP_run (hrun : Solid run) {c : Char} (hc : isOptionChar c = false) (rest : List Char) :
    (run ++ c :: rest).splitOnP (fun c => !isOptionChar c)
      = run :: rest.splitOnP fun c => !isOptionChar c :=
  List.splitOnP_append_cons_of_forall_mem (fun d hd => by rw [hrun d hd, Bool.not_true]) c
    (by rw [hc, Bool.not_false]) rest

/-- A run alone is the only piece. -/
theorem splitOnP_solid (hrun : Solid run) : run.splitOnP (fun c => !isOptionChar c) = [run] :=
  List.splitOnP_eq_singleton fun d hd => by rw [hrun d hd, Bool.not_true]

/-- **The blocks of a line are its runs of such characters, as far as they go.** -/
theorem mem_blocks_iff : block ∈ blocks line ↔ IsBlock line block := by
  rw [blocks, List.mem_filter, decide_eq_true_eq]
  constructor
  · rintro ⟨hblock, hne⟩
    -- A line is its first run, alone or with a shorter line behind a character that ends the run.
    induction hn : line.length using Nat.strong_induction_on generalizing line with
    | _ n ih =>
      obtain ⟨run, rest, rfl, hrun, hrest⟩ := exists_run line
      cases rest with
      | nil =>
        rw [List.append_nil, splitOnP_solid hrun, List.mem_singleton] at hblock
        exact ⟨hne, hblock ▸ hrun, [], [], by simp [hblock], nofun, nofun⟩
      | cons c rest =>
        have hc := hrest c rfl
        rw [splitOnP_run hrun hc, List.mem_cons] at hblock
        rcases hblock with rfl | hblock
        · exact ⟨hne, hrun, [], c :: rest, rfl, nofun, hrest⟩
        · have hlength : rest.length < n := by
            rw [← hn, List.length_append, List.length_cons]
            omega
          obtain ⟨-, hsolid, before, behind, rfl, hbefore, hbehind⟩ := ih _ hlength hblock rfl
          refine ⟨hne, hsolid, run ++ c :: before, behind, by simp, fun d hd => ?_, hbehind⟩
          rw [List.getLast?_append_cons] at hd
          cases before with
          | nil => exact Option.some.inj hd ▸ hc
          | cons b before => exact hbefore d (List.getLast?_cons_cons ▸ hd)
  · rintro ⟨hne, hsolid, before, behind, rfl, hbefore, hbehind⟩
    refine ⟨?_, hne⟩
    have hfirst : block ∈ (block ++ behind).splitOnP fun c => !isOptionChar c := by
      cases behind with
      | nil =>
        rw [List.append_nil, splitOnP_solid hsolid]
        exact List.mem_singleton_self _
      | cons c behind =>
        rw [splitOnP_run hsolid (hbehind c rfl)]
        exact List.mem_cons_self
    rcases List.eq_nil_or_concat before with rfl | ⟨before, c, rfl⟩
    · exact hfirst
    · have hc : isOptionChar c = false := hbefore c (by simp)
      rw [List.concat_eq_append, List.append_assoc, List.append_assoc, List.singleton_append,
        List.splitOnP_append_cons before (block ++ behind) (by rw [hc, Bool.not_false])]
      exact List.mem_append_right _ hfirst

/-! ### Options -/

/-- Whether a block is one or two hyphens, an ASCII letter or digit, and any more of its characters. -/
def isOption : List Char → Bool
  | '-' :: '-' :: c :: _ => c.isAlphanum
  | '-' :: c :: _ => c.isAlphanum
  | _ => false

/-- Letters and digits can stand in options. -/
theorem isOptionChar_of_isAlphanum {c : Char} (h : c.isAlphanum = true) : isOptionChar c = true := by
  have hascii : c.toNat < 0x80 := by
    have hranges : (decide (c.val ≥ 'A'.val ∧ c.val ≤ 'Z'.val)
        || (decide (c.val ≥ 'a'.val) && decide (c.val ≤ 'z'.val))
        || (decide (c.val ≥ '0'.val) && decide (c.val ≤ '9'.val))) = true := h
    simp only [Bool.or_eq_true, Bool.and_eq_true, decide_eq_true_eq, ge_iff_le,
      UInt32.le_iff_toNat_le] at hranges
    show c.val.toNat < 0x80
    have hZ : 'Z'.val.toNat = 90 := rfl
    have hz : 'z'.val.toNat = 122 := rfl
    have h9 : '9'.val.toNat = 57 := rfl
    omega
  rw [isOptionChar, Chars.isWordChar, if_pos hascii, h, Bool.true_or, Bool.true_or]

/-- What cannot is neither a dash nor a letter or digit. -/
theorem ne_of_not_isOptionChar {c : Char} (hc : isOptionChar c = false) :
    c ≠ '-' ∧ c.isAlphanum = false := by
  refine ⟨fun heq => ?_, Bool.eq_false_iff.mpr fun h => ?_⟩
  · rw [heq] at hc
    exact absurd hc (by decide)
  · rw [isOptionChar_of_isAlphanum h] at hc
    cases hc

/-- A run is taken as a whole. -/
theorem takeWhile_run (hrun : Solid run) (hrest : ∀ c ∈ rest.head?, isOptionChar c = false) :
    (run ++ rest).takeWhile isOptionChar = run := by
  rw [List.takeWhile_append_of_pos hrun]
  cases rest with
  | nil => rw [List.takeWhile_nil, List.append_nil]
  | cons c rest => rw [List.takeWhile_cons_of_neg (by rw [hrest c rfl]; decide), List.append_nil]

/-- A run is found as an option if it is one, whatever stands behind it. -/
theorem option?_run (hrun : Solid run) (hrest : ∀ c ∈ rest.head?, isOptionChar c = false) :
    option? (run ++ rest) = if isOption run then some run else none := by
  have hwhole := takeWhile_run hrun hrest
  have hend : ∀ c more, rest = c :: more → c ≠ '-' ∧ c.isAlphanum = false := fun c more h =>
    ne_of_not_isOptionChar (hrest c (h ▸ rfl))
  -- Where the run ends within the first three characters, none of what stands behind it is taken for one.
  rcases run with _ | ⟨a, run⟩
  · rcases rest with _ | ⟨c, rest⟩
    · rfl
    · simp [option?, isOption, hend c rest rfl]
  by_cases ha : a = '-'
  · subst ha
    rcases run with _ | ⟨b, run⟩
    · rcases rest with _ | ⟨c, rest⟩
      · rfl
      · simp [option?, isOption, hend c rest rfl]
    by_cases hb : b = '-'
    · subst hb
      rcases run with _ | ⟨c, run⟩
      · rcases rest with _ | ⟨c, rest⟩
        · rfl
        · simp [option?, isOption, hend c rest rfl]
      · show (if c.isAlphanum then some _ else none) = if c.isAlphanum then _ else none
        rw [hwhole]
    · have hbody : option? ('-' :: b :: run ++ rest)
          = if b.isAlphanum then some (('-' :: b :: run ++ rest).takeWhile isOptionChar) else none := by
        simp [option?, hb]
      rw [hbody, hwhole]
      simp [isOption, hb]
  · simp [option?, isOption, ha]

/-- Within a run nothing begins. -/
theorem optionsFrom_inside (hrun : Solid run) (rest : List Char) :
    optionsFrom true (run ++ rest) = optionsFrom true rest := by
  induction run with
  | nil => rfl
  | cons c run ih =>
    obtain ⟨hc, hrun⟩ := List.forall_mem_cons.mp hrun
    rw [List.cons_append, optionsFrom, if_pos rfl, hc, ih hrun]

/-- Behind what ends a run one can begin. -/
theorem optionsFrom_other {c : Char} (hc : isOptionChar c = false) (inside : Bool) (rest : List Char) :
    optionsFrom inside (c :: rest) = optionsFrom false rest := by
  have hnone : option? (c :: rest) = none := by
    have hempty : option? ([] ++ c :: rest) = _ := option?_run nofun fun d hd => Option.some.inj hd ▸ hc
    exact hempty
  rw [optionsFrom, hnone, hc]
  split <;> rfl

/-- A run is an option as a whole, or holds none. -/
theorem optionsFrom_run (hrun : Solid run) (hrest : ∀ c ∈ rest.head?, isOptionChar c = false) :
    optionsFrom false (run ++ rest) = (if isOption run then [run] else []) ++ optionsFrom true rest := by
  cases run with
  | nil =>
    cases rest with
    | nil => rfl
    | cons c rest =>
      rw [List.nil_append, optionsFrom_other (hrest c rfl), optionsFrom_other (hrest c rfl)]
      rfl
  | cons d run =>
    obtain ⟨hd, hrest'⟩ := List.forall_mem_cons.mp hrun
    have hfound := option?_run hrun hrest
    rw [List.cons_append] at hfound
    rw [List.cons_append, optionsFrom, if_neg Bool.false_ne_true, hd, optionsFrom_inside hrest', hfound]
    cases isOption (d :: run) <;> rfl

/-- **The options of a line are those of its blocks that are options.** -/
theorem optionsFrom_eq (line : List Char) : optionsFrom false line = (blocks line).filter isOption := by
  -- An option is never empty, so the empty blocks that the cut leaves make no difference.
  have hblocks (line : List Char) : (blocks line).filter isOption
      = (line.splitOnP fun c => !isOptionChar c).filter isOption := by
    rw [blocks, List.filter_filter]
    refine List.filter_congr fun block _ => ?_
    cases block <;> simp [isOption]
  rw [hblocks]
  -- By length: the scan consumes one whole run and the character that ended it.
  induction hn : line.length using Nat.strong_induction_on generalizing line with
  | _ n ih =>
    obtain ⟨run, rest, rfl, hrun, hrest⟩ := exists_run line
    rw [optionsFrom_run hrun hrest]
    cases rest with
    | nil =>
      rw [List.append_nil, splitOnP_solid hrun, List.filter_singleton]
      cases isOption run <;> rfl
    | cons c rest =>
      have hc := hrest c rfl
      have hlength : rest.length < n := by
        rw [← hn, List.length_append, List.length_cons]
        omega
      rw [splitOnP_run hrun hc, optionsFrom_other hc, ih _ hlength rest rfl, List.filter_cons]
      split <;> rfl

/-- Hyphens in front of an option or in a word, and a letter that is not ASCII. -/
example : optionsFrom false "-v --a= ---x a-b -é -1é".toList
    = ["-v".toList, "--a".toList, "-1é".toList] := by
  decide

/-! ### Help texts -/

/-- The lines of a help text that are read: the first twenty whose first character other than white space
is a hyphen. -/
def describing (text : List Char) : List (List Char) :=
  ((Chars.lines text).filter fun line => line.find? (fun c => !Chars.isBlank c) = some '-').take 20

/-- The lines that describe options are found. -/
theorem optionLines_eq (text : List Char) : optionLines text = describing text := by
  rw [optionLines, describing, maxLines]
  simp only [List.find?_eq_head?_dropWhile_not, Bool.not_not]

/-- The options of a help text that begin with `stem`, in order, each time that it names one. -/
def offered (text stem : String) : List String :=
  ((describing text.toList).flatMap fun line => (blocks line).filter fun block =>
    isOption block && stem.toList.isPrefixOf block).map String.ofList

/-- Offered are the blocks of describing lines that are options and start as typed. -/
theorem mem_offered_iff {text stem option : String} : option ∈ offered text stem ↔
    Text.startsWith option stem = true ∧ isOption option.toList = true ∧
      ∃ line ∈ describing text.toList, IsBlock line option.toList := by
  rw [offered, List.mem_map]
  constructor
  · rintro ⟨block, hblock, rfl⟩
    obtain ⟨line, hline, hblock⟩ := List.mem_flatMap.mp hblock
    obtain ⟨hblock, hkept⟩ := List.mem_filter.mp hblock
    rw [Bool.and_eq_true] at hkept
    rw [Text.startsWith, String.toList_ofList]
    exact ⟨hkept.2, hkept.1, line, hline, mem_blocks_iff.mp hblock⟩
  · rintro ⟨hstem, hoption, line, hline, hblock⟩
    refine ⟨option.toList, List.mem_flatMap.mpr ⟨line, hline, ?_⟩, String.ofList_toList⟩
    rw [List.mem_filter, Bool.and_eq_true]
    exact ⟨mem_blocks_iff.mpr hblock, hoption, hstem⟩

/-- Each option is offered once, where the help text names it first, and described by that line. -/
theorem candidates_eq (text stem : String) : candidates text stem = Candidate.distinct
    ((describing text.toList).flatMap fun line =>
      ((blocks line).filter fun block => isOption block && stem.toList.isPrefixOf block).map fun block =>
        { text := String.ofList block, description := String.ofList (description line)
          category := .option, priority := 6 }) := by
  rw [candidates, optionLines_eq]
  simp only [optionsFrom_eq, List.filter_filter, Bool.and_comm]

/-- Each option is offered once, at its first place. -/
theorem isFirsts_candidates (text stem : String) :
    IsFirsts (offered text stem) ((candidates text stem).map (·.text)) := by
  rw [candidates_eq]
  refine Eq.mp (congrArg (IsFirsts · _) ?_) (Candidate.isFirsts_distinct _)
  rw [offered, List.map_flatMap, List.map_flatMap]
  simp only [List.map_map]
  rfl

end Help

/-! ### Requests -/

namespace Backend

/-- The help text of the command of a request; empty if there is no command or it gives none. It is
not to be had if the system does not wait for the command. -/
def helpText (b : Backend) (context : Context) (w : World) : Except Failure String :=
  let command := Line.unquote (context.commandName.getD "")
  if command = "" then .ok ""
  else ((b.ask (some context.cwd) [command, "--help"]) w).1.map (·.getD "")

/-- The options of a help text are read off it alone. -/
theorem helpOptions_eq (b : Backend) (context : Context) (stem : String) (w : World) :
    ((b.helpOptions context stem) w).1
      = (b.helpText context w).map fun help => Help.candidates help stem := by
  unfold helpOptions helpText
  dsimp only
  split
  · -- A request without a command has an empty help text, in which nothing is found.
    rfl
  · rw [Action.bind_run]
    rcases b.ask (some context.cwd) [Line.unquote (context.commandName.getD ""), "--help"] w
      with ⟨failure | answer, w'⟩ <;> rfl

/-- The options of a request with a command are those of its help text, or else the common ones. -/
theorem options_eq {b : Backend} {context : Context} (hcommand : context.commandName.isNone = false)
    (w : World) :
    (b.options context w).1 = (b.helpOptions context context.typed w).1.map fun found =>
      if found.isEmpty then Help.commonCandidates context.typed else found := by
  unfold options
  rw [hcommand, if_neg Bool.false_ne_true, Action.bind_run]
  rcases b.helpOptions context context.typed w with ⟨failure | found, w'⟩ <;> rfl

/-- **The options of a help text are whole blocks.** What is offered, in the order in which the help text
names it first and without repeats, are the blocks that are options and begin as typed, of the first
lines that begin with a hyphen. Where there are none, and only there, the common options are offered
that begin as typed. There is no answer just if the help text is not to be had. -/
theorem options_of_help (b : Backend) (context : Context) (w : World) :
    (∀ help, b.helpText context w = .ok help →
      (∀ stem, ∃ found, (b.helpOptions context stem w).1 = .ok found ∧
        IsFirsts (Help.offered help stem) (found.map (·.text))) ∧
      (∀ stem option, option ∈ Help.offered help stem ↔
        Text.startsWith option stem = true ∧ Help.isOption option.toList = true ∧
          ∃ line ∈ Help.describing help.toList, Help.IsBlock line option.toList) ∧
      (b.options context w).1 =
        if context.commandName.isNone then .ok []
        else if Help.offered help context.typed = [] then .ok (Help.commonCandidates context.typed)
        else (b.helpOptions context context.typed w).1) ∧
    ∀ failure, b.helpText context w = .error failure →
      (∀ stem, (b.helpOptions context stem w).1 = .error failure) ∧
      (b.options context w).1 = if context.commandName.isNone then .ok [] else .error failure := by
  refine ⟨fun help hhelp => ?_, fun failure hfailure => ?_⟩
  -- The help was read: the options it describes, or the common ones where there are none.
  · have hfound (stem : String) :
        (b.helpOptions context stem w).1 = .ok (Help.candidates help stem) := by
      rw [helpOptions_eq, hhelp]
      rfl
    have hnone : (Help.candidates help context.typed).isEmpty = true ↔
        Help.offered help context.typed = [] := by
      rw [List.isEmpty_iff, ← (Help.isFirsts_candidates help context.typed).eq_nil_iff,
        List.map_eq_nil_iff]
    refine ⟨fun stem => ⟨_, hfound stem, Help.isFirsts_candidates help stem⟩,
      fun stem option => Help.mem_offered_iff, ?_⟩
    cases hcommand : context.commandName.isNone with
    | true =>
      unfold options
      rw [hcommand]
      rfl
    | false =>
      rw [options_eq hcommand, hfound, if_neg Bool.false_ne_true]
      simp only [← hnone]
      exact apply_ite Except.ok _ _ _
  -- The call for it failed, and nothing behind it catches that.
  · have hfailed (stem : String) : (b.helpOptions context stem w).1 = .error failure := by
      rw [helpOptions_eq, hfailure]
      rfl
    refine ⟨hfailed, ?_⟩
    cases hcommand : context.commandName.isNone with
    | true =>
      unfold options
      rw [hcommand]
      rfl
    | false =>
      rw [options_eq hcommand, hfailed]
      rfl

end Backend

end ShellAssist.Completion
