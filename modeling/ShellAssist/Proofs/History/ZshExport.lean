import ShellAssist.Proofs.History.ZshUntimed
import ShellAssist.Proofs.History.ZshWriting

namespace ShellAssist.History.Zsh

open Chars (Unbroken)
open Bash (continued?)

/-!
# The zsh export, read back

Reading an export adds nothing, so if it is read back in full nothing was lost at any line: neither a
line that was read as a head, nor a backslash, nor an empty line.

* `unheaded_of_reads` — no line is read as a head by mistake;
* `split_of_reads` — the entries without times come first;
* `parse_export_iff` — an export is read as the entries that it was made from just if these are read back.
-/

variable {e : Entry} {es : List Entry} {ls : List (List Char)}

/-! ### Exports that are read back -/

/-- The lines of an entry that are written without a head. -/
def plainLines (e : Entry) : List (List Char) :=
  if e.timestamp.isSome then (blockOf e).more else commandLines e

/-- The leading entries are written without heads. -/
theorem unheaded_leading (h : ∀ e ∈ es, ∀ l ∈ plainLines e, head? l = none) :
    ∀ l ∈ (leading es).flatMap linesOf, head? l = none := by
  intro l hl
  obtain ⟨e, he, hl⟩ := List.mem_flatMap.mp hl
  refine h e (mem_of_mem_leading he) l ?_
  rw [linesOf, timestamp_of_mem_leading he] at hl
  rw [plainLines, timestamp_of_mem_leading he]
  exact hl

/-- A zsh history tells all of the commands. -/
theorem commandsOf_map_asZsh (es : List Entry) : commandsOf (es.map asZsh) = commandsOf es := by
  rw [commandsOf, List.map_map]
  rfl

/-- Commands are as long as their lines. -/
theorem size_commandsOf (h : ∀ e ∈ es, Exportable e) :
    size (commandsOf es) = (es.map fun e => size (commandLines e)).sum := by
  rw [size_eq_sum, commandsOf, List.map_map]
  refine congrArg List.sum (List.map_congr_left fun e he => ?_)
  rw [size, ← Chars.length_joinLines (h e he).commandLines_ne_nil, (h e he).joinLines_commandLines]
  rfl

/-- The lines of an entry are no longer than the command, and as long only if none is read as a head by
mistake. -/
theorem size_body_linesOf (h : Exportable e) :
    size ((linesOf e).map body) ≤ size (commandLines e) ∧
      (size (commandLines e) ≤ size ((linesOf e).map body) → ∀ l ∈ plainLines e, head? l = none) := by
  rw [linesOf, plainLines]
  split
  · rw [← h.blockOf_lines, Block.fileLines, List.map_cons, body_of_head? (head?_headText _ _ _),
      size_cons, size_cons, Nat.add_le_add_iff_left, Nat.add_le_add_iff_left]
    exact size_map_body _
  · exact size_map_body _

/-- A command of an export that is read back holds no line that is read as a head. -/
theorem unheaded_of_reads (hes : ∀ e ∈ es, Exportable e)
    (h : entriesFrom {} (es.flatMap linesOf) = .ok (es.map asZsh)) :
    ∀ e ∈ es, ∀ l ∈ plainLines e, head? l = none := by
  have hsize := size_entriesFrom_le h
  rw [size_nil, Nat.zero_add, commandsOf_map_asZsh, size_commandsOf hes, List.map_flatMap,
    size_flatMap] at hsize
  exact fun e he => (size_body_linesOf (hes e he)).2
    (ge_of_sum_ge (fun e he => (size_body_linesOf (hes e he)).1) hsize e he)

/-- A list is cut where a property ends. -/
theorem takeWhile_append_eq {α : Type} {q : α → Bool} {before after : List α}
    (hbefore : ∀ x ∈ before, q x = true) (hafter : ∀ x ∈ after.head?, q x = false) :
    (before ++ after).takeWhile q = before ∧ (before ++ after).dropWhile q = after := by
  rw [List.takeWhile_append_of_pos hbefore, List.dropWhile_append_of_pos hbefore]
  cases after with
  | nil => simp
  | cons x after => simp [hafter x rfl]

/-- From a head on, all that is read has a time. -/
theorem timed_of_startsRecord {out : List Entry} (hls : StartsRecord ls)
    (h : entriesFrom {} ls = .ok out) : ∀ e ∈ out, e.timestamp.isSome = true := by
  cases ls with
  | nil =>
    cases h
    exact nofun
  | cons line ls =>
    have hhead := hls line rfl
    cases entriesFrom_cons_ok h with
    | head _ hrest hout =>
      rw [hout, finish_empty, List.nil_append]
      exact timed_of_entriesFrom (List.cons_ne_nil _ _) rfl hrest
    | joined hnone => simp [hnone] at hhead
    | skipped hnone => simp [hnone] at hhead
    | bare hnone => simp [hnone] at hhead

/-- An export that is read back holds the entries without times first, and is read in two parts. -/
theorem split_of_reads (hheads : ∀ e ∈ es, ∀ l ∈ plainLines e, head? l = none)
    (h : entriesFrom {} (es.flatMap linesOf) = .ok (es.map asZsh)) :
    entriesFrom {} ((leading es).flatMap linesOf) = .ok ((leading es).map asZsh) ∧
      entriesFrom {} ((following es).flatMap linesOf) = .ok ((following es).map asZsh) ∧
      ∀ e ∈ following es, e.timestamp.isSome = true := by
  have hstarts := startsRecord_following es
  have hparts := h
  rw [← leading_append_following es, List.flatMap_append, entriesFrom_append hstarts] at hparts
  obtain ⟨bare, hbare, hparts⟩ := bind_ok_iff.mp hparts
  obtain ⟨timed, htimed, hparts⟩ := bind_ok_iff.mp hparts
  have hsplit : bare ++ timed = (leading es).map asZsh ++ (following es).map asZsh := by
    rw [Except.ok.inj hparts, ← List.map_append]
  -- The two parts are told apart by their times, in what is read as in what was written.
  have hbares : ∀ e ∈ bare, e.timestamp.isNone = true := fun e he =>
    Option.isNone_iff_eq_none.mpr (untimed_of_entriesFrom (unheaded_leading hheads) rfl hbare e he)
  have htimeds := timed_of_startsRecord hstarts htimed
  have hleading : ∀ e ∈ (leading es).map asZsh, e.timestamp.isNone = true := by
    refine List.forall_mem_map.mpr fun e he => ?_
    rw [asZsh, timestamp_of_mem_leading he]
    rfl
  have hfollowing : ∀ e ∈ ((following es).map asZsh).head?, e.timestamp.isNone = false := by
    intro e he
    rw [List.head?_map, Option.mem_map] at he
    obtain ⟨e, he, rfl⟩ := he
    simpa [asZsh] using following_head es e he
  obtain ⟨htake, hdrop⟩ := takeWhile_append_eq hbares fun e he => by
    simpa using htimeds e (List.mem_of_mem_head? he)
  obtain ⟨htake', hdrop'⟩ := takeWhile_append_eq hleading hfollowing
  rw [hsplit, htake'] at htake
  rw [hsplit, hdrop'] at hdrop
  refine ⟨htake ▸ hbare, hdrop ▸ htimed, fun e he => ?_⟩
  have hsome := htimeds (asZsh e) (hdrop ▸ List.mem_map_of_mem he)
  rwa [asZsh, Option.isSome_map] at hsome

/-- In an export that is read back the leading entries are bare commands. -/
theorem bare_of_reads (hheads : ∀ e ∈ es, ∀ l ∈ plainLines e, head? l = none)
    (hes : ∀ e ∈ es, Exportable e)
    (h : entriesFrom {} ((leading es).flatMap linesOf) = .ok ((leading es).map asZsh)) :
    (∀ e ∈ leading es, IsBare e.command.toList) ∧
      ∀ e ∈ (leading es).dropLast, continued? e.command.toList = none := by
  have hlines : (leading es).flatMap linesOf = (leading es).flatMap commandLines :=
    List.flatMap_congr fun e he => linesOf_of_untimed (timestamp_of_mem_leading he)
  have hunheaded := unheaded_leading hheads
  have hunbroken : ∀ l ∈ (leading es).flatMap commandLines, Unbroken l := by
    intro l hl
    obtain ⟨e, -, hl⟩ := List.mem_flatMap.mp hl
    exact Chars.unbroken_of_mem_lines hl
  rw [hlines] at h hunheaded
  have hsize : size ((leading es).flatMap commandLines)
      ≤ size (commandsOf ((leading es).map asZsh)) := by
    rw [commandsOf_map_asZsh, size_commandsOf fun e he => hes e (mem_of_mem_leading he),
      size_flatMap]
  obtain ⟨hfilled, hends⟩ := bare_of_size hunheaded h hsize
  have hbare : ∀ l ∈ (leading es).flatMap commandLines, IsBare l := fun l hl =>
    ⟨hunbroken l hl, hfilled l hl, hunheaded l hl⟩
  -- Each line is a command, so each command is a line.
  have hcommands : commandsOf (leading es) = (leading es).flatMap commandLines := by
    rw [entriesFrom_bare hbare hends] at h
    have hsame := congrArg commandsOf (Except.ok.inj h)
    rw [commandsOf_map_asZsh] at hsame
    rw [← hsame, commandsOf, List.map_map]
    simp [Function.comp_def, bareEntry]
  rw [← hcommands] at hbare hends
  refine ⟨fun e he => hbare _ (List.mem_map_of_mem he), fun e he => hends _ ?_⟩
  rw [commandsOf, ← List.map_dropLast]
  exact List.mem_map_of_mem he

/-- And those that follow keep their lines. -/
theorem keepsLines_of_reads (hheads : ∀ e ∈ es, ∀ l ∈ plainLines e, head? l = none)
    (hes : ∀ e ∈ es, Exportable e) (hw : ∀ e ∈ es, Writable e)
    (htimed : ∀ e ∈ following es, e.timestamp.isSome = true)
    (h : entriesFrom {} ((following es).flatMap linesOf) = .ok ((following es).map asZsh)) :
    ∀ e ∈ following es, KeepsLines e := by
  have hmem : ∀ e ∈ following es, e ∈ es := fun e he => mem_of_mem_following he
  have hblock : ∀ e ∈ following es, (blockOf e).WellFormed := by
    intro e he
    obtain ⟨hseconds, hduration⟩ := hw e (hmem e he) (htimed e he)
    refine ⟨hseconds, hduration, fun l hl => hheads e (hmem e he) l ?_⟩
    rw [plainLines, htimed e he]
    exact hl
  have hread : (following es).flatMap (fun e => (blockOf e).pending.finish)
      = (following es).map asZsh :=
    Except.ok.inj ((entriesFrom_linesOf_timed htimed hblock).symm.trans h)
  have hle : ∀ e ∈ following es, size (commandsOf (blockOf e).pending.finish)
      ≤ size (unescapeLines (commandLines e)) := fun e he =>
    (hes e (hmem e he)).lines_pending ▸ size_finish_le (blockOf e).pending
  have hsum : ((following es).map fun e => size (commandsOf (blockOf e).pending.finish)).sum
      = ((following es).map fun e => size (commandLines e)).sum := by
    have hsize : size (commandsOf ((following es).flatMap fun e => (blockOf e).pending.finish))
        = size (commandsOf ((following es).map asZsh)) := by rw [hread]
    rwa [commandsOf_map_asZsh, size_commandsOf fun e he => hes e (hmem e he), commandsOf,
      List.map_flatMap, size_flatMap] at hsize
  -- No entry gains anything, and all together lose nothing, so none of them loses anything.
  intro e he
  have hkept := ge_of_sum_ge (fun e he => (hle e he).trans (size_unescapeLines _).1) hsum.ge e he
  exact ⟨htimed e he, hblock e he, (size_unescapeLines _).2 (hkept.trans (hle e he))⟩

/-- **An export for zsh is read back** as the entries that it was made from, just if those without
times come first, on one line each, and no line is read as a head or as going on with the next one
that was not written so. -/
theorem parse_export_iff (nesting : Nat) (hes : ∀ e ∈ es, Exportable e) :
    exportOwned nesting es "zsh" >>= parse = .ok (es.map asZsh) ↔ ReadsBack es := by
  have hparse : (∀ e ∈ es, Writable e) →
      exportOwned nesting es "zsh" >>= parse = entriesFrom {} (es.flatMap linesOf) := by
    intro hw
    rw [exportOwned_of_writable _ hes hw]
    show entriesFrom {} (Chars.lines (String.ofList _).toList) = _
    rw [String.toList_ofList, lines_joinLines_linesOf hes]
  constructor
  · -- Reading adds nothing, so what is read back in full has lost nothing at any line.
    intro h
    have hw : ∀ e ∈ es, Writable e := by
      by_contra hw
      obtain ⟨failure, hfails⟩ := fails_exportOwned nesting hes hw
      rw [hfails] at h
      cases h
    rw [hparse hw] at h
    have hheads := unheaded_of_reads hes h
    obtain ⟨hleading, hfollowing, htimed⟩ := split_of_reads hheads h
    obtain ⟨hbare, hends⟩ := bare_of_reads hheads hes hleading
    exact ⟨hbare, hends, keepsLines_of_reads hheads hes hw htimed hfollowing⟩
  · intro h
    rw [hparse h.writable, h.entriesFrom_linesOf hes]

/-- A command without a time that ends in a backslash, and one with a time of four lines. -/
def backslashed : List Entry :=
  [{ command := "ls \\" },
   { command := "\necho a\n\nb \\", timestamp := some 1999, duration := some 2500 }]

/-- A backslash at the end of a command is kept, as are empty lines within it. -/
theorem parse_export_backslashed : (∀ e ∈ backslashed, Exportable e) ∧
    exportOwned 985 backslashed "zsh" >>= parse
      = .ok [{ command := "ls \\", source := "zsh" },
             { command := "\necho a\n\nb \\", timestamp := some 1000, duration := some 2000,
               source := "zsh" }] := by
  have hes : ∀ e ∈ backslashed, Exportable e := by
    rw [backslashed, List.forall_mem_cons, List.forall_mem_singleton]
    exact ⟨⟨by decide, by decide, by decide, by decide, by decide⟩,
      ⟨by decide, by decide, by decide, by decide, by decide⟩⟩
  have hback : ReadsBack backslashed := by
    refine ⟨List.forall_mem_singleton.mpr ⟨by decide, by decide, by decide⟩, by decide, ?_⟩
    exact List.forall_mem_singleton.mpr
      ⟨rfl, ⟨by decide +kernel, by decide +kernel, by decide⟩, by decide⟩
  exact ⟨hes, (parse_export_iff 985 hes).mpr hback⟩

/-- A command with a time of two lines, the first of which ends in a backslash, and one without a
time behind it. -/
def runTogether : List Entry :=
  [{ command := "echo a \\\nb", timestamp := some 1000 }, { command := "pwd" }]

/-- The backslash is dropped, and what stands behind is taken for a line of the command. -/
theorem parse_export_runTogether : (∀ e ∈ runTogether, Exportable e) ∧
    exportOwned 985 runTogether "zsh" >>= parse
      = .ok [{ command := "echo a \nb\npwd", timestamp := some 1000, duration := some 0,
               source := "zsh" }] ∧
    exportOwned 985 runTogether "zsh" >>= parse ≠ .ok (runTogether.map asZsh) := by
  have hes : ∀ e ∈ runTogether, Exportable e := by
    rw [runTogether, List.forall_mem_cons, List.forall_mem_singleton]
    exact ⟨⟨by decide, by decide, by decide, by decide, by decide⟩,
      ⟨by decide, by decide, by decide, by decide, by decide⟩⟩
  have hw : ∀ e ∈ runTogether, Writable e := by
    rw [runTogether, List.forall_mem_cons, List.forall_mem_singleton]
    exact ⟨fun _ => ⟨by decide +kernel, by decide +kernel⟩, nofun⟩
  -- The backslash before the newline is lost, and the entry without a time runs on behind the
  -- other.
  have hexport : exportOwned 985 runTogether "zsh" = .ok ": 1:0;echo a \\\nb\npwd" := by
    rw [exportOwned_of_writable _ hes hw]
    rfl
  have hread : exportOwned 985 runTogether "zsh" >>= parse
      = .ok [{ command := "echo a \nb\npwd", timestamp := some 1000, duration := some 0,
               source := "zsh" }] := by
    rw [hexport]
    rfl
  refine ⟨hes, hread, fun h => ?_⟩
  rw [hread] at h
  have hcount := congrArg List.length (Except.ok.inj h)
  exact absurd hcount (by decide)

end ShellAssist.History.Zsh
