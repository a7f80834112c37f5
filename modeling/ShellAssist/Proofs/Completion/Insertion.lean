import ShellAssist.Completion.Completer
import ShellAssist.Proofs.Completion.Contract

namespace ShellAssist.Completion

/-!
# File names put into a line

A file that is offered for a word without an opening quote is one word of the line if all white
space in its text is protected. An entry of a directory, and a directory that the shell names, is
escaped, which protects blanks, tabs and line feeds and no other white space. A changed file is
inserted as it is, which protects none.

* `Backend.tokenize_text_iff` — which files are read back as one word;
* `Completer.insertions_replaceWord` — what an editor makes of an insertion.
-/

open Line (Context escapeName unquote tokenize)

namespace Backend

/-- **Which files are read back as one word.** The text of a file that is offered for a word without
an opening quote, and that no resolver supplies, is either its path escaped, and one word exactly if
the path has no white space but blanks, tabs and line feeds; or it is the path of a changed file as
it is, and one word exactly if the path itself protects all its white space. -/
theorem tokenize_text_iff (b : Backend) (context : Context) (w : World) (hdisk : w.disk.Named)
    (hquote : context.openingQuote = "") {found : List Candidate}
    (hfound : b.answer context w = .ok found) {c : Candidate} (hc : c ∈ found)
    (hkind : c.category = .file ∨ c.category = .directory)
    (hown : ¬ b.registry.Supplies context c) :
    (c.text = escapeName (unquote c.text) ∧ (tokenize c.text = [c.text] ↔
        ∀ x ∈ (unquote c.text).toList, Chars.isBlank x = true → x = ' ' ∨ x = '\t' ∨ x = '\n')) ∨
      (c.description = "modified file" ∧ (tokenize c.text = [c.text] ↔
        Line.hasFreeBlank .free c.text.toList = false)) := by
  have hoffered := (offered_of_mem_answer hdisk hfound).2 c hc
  rcases hoffered.insertsFrom_of_file hkind hown with ⟨path, hpath, -, htext⟩ | hchanged
  · rw [htext, Context.insert, if_pos hquote, Line.unquote_escapeName,
      Line.tokenize_escapeName_iff]
    exact .inl ⟨rfl, and_iff_right hpath⟩
  · rw [Line.tokenize_eq_singleton_iff]
    exact .inr ⟨hchanged.description, and_iff_right hchanged.text_ne⟩

/-- A file with a blank in its name, escaped. -/
theorem tokenize_text_escaped :
    let b : Backend :=
      { family := .generic, shellPath := "", environment := [], timeout := 1 }
    let context := Line.classify "cat my" none "/work" none
    let w : World := { disk := { nodes := [(["work"], ⟨.directory false, 1⟩),
      (["work", "my file"], ⟨.file [] false false, 2⟩)] } }
    w.disk.Named ∧ context.openingQuote = "" ∧
      ∃ found, b.answer context w = .ok found ∧ ∃ c ∈ found, c.category = .file ∧
        ¬ b.registry.Supplies context c ∧ c.text = "my\\ file" ∧ tokenize c.text = [c.text] := by
  intro b context w
  have hdisk : w.disk.Named := by decide
  have hquote : context.openingQuote = "" := by decide
  have hshown : (b.answer context w).map (·.map fun c => (c.category, c.description, c.text))
      = .ok [(.file, "file", "my\\ file")] := by decide +kernel
  obtain ⟨found, hfound, hshown⟩ := map_ok_iff.mp hshown
  obtain ⟨c, hc, hsame⟩ := List.mem_map.mp (hshown ▸ List.mem_singleton_self _)
  obtain ⟨hkind, hdescription, htext⟩ : c.category = .file ∧ c.description = "file" ∧
      c.text = "my\\ file" := by simpa using hsame
  have hown : ¬ b.registry.Supplies context c :=
    Registry.not_supplies (by simp [b, Registry.builtin])
  refine ⟨hdisk, hquote, found, hfound, c, hc, hkind, hown, htext, ?_⟩
  -- Of the two ways to be unescaped, the one by git needs a description this file does not have.
  rcases tokenize_text_iff b context w hdisk hquote hfound hc (.inl hkind) hown with
    ⟨-, hword⟩ | ⟨hchanged, -⟩
  · have hblanks : (unquote "my\\ file").toList.filter Chars.isBlank = [' '] := by decide
    rw [hword, htext]
    intro x hx hblank
    have hmem := List.mem_filter.mpr ⟨hx, hblank⟩
    rw [hblanks] at hmem
    exact .inl (List.mem_singleton.mp hmem)
  · exact absurd (hdescription.symm.trans hchanged) (by decide)

/-- A changed file with a blank in its name, and a file with a blank that does not break. -/
theorem text_two_words :
    let b : Backend :=
      { family := .generic, shellPath := "", environment := [], timeout := 1 }
    let context := Line.classify "git add my" none "/work" none
    let w : World := {
      disk := { nodes := [(["work"], ⟨.directory false, 1⟩),
        (["work", "my\u00a0file"], ⟨.file [] false false, 2⟩)] }
      commands := [(["git", "status", "--porcelain"], .finished "?? \"my file\"\n" 0)] }
    context.openingQuote = "" ∧
      (b.answer context w).map (·.map fun c => (c.category, c.text, tokenize c.text)) =
        .ok [(.file, "my file", ["my", "file"]), (.file, "my\u00a0file", ["my", "file"])] := by
  decide +kernel

end Backend

/-! ### In an editor -/

namespace Completer

/-- What an editor makes of an insertion is the edited text before the cursor with the word under the
cursor replaced. -/
theorem insertions_replaceWord (c : Completer) {line before : String} {cursor : Option Int}
    {cwd : Option String} {context : Context} {w : World} {found : List Insertion}
    (hbefore : editedText line cursor = .ok before)
    (hcontext : c.classify before none cwd w = Except.ok context)
    (hfound : (c.insertions line cursor cwd w).1 = .ok found) :
    ∀ i ∈ found, Text.take (before.length + i.start).toNat before ++ i.text
      = context.replaceWord i.text := by
  -- The text up to the cursor was classified without a cursor, so all of it is kept.
  have hall : context.before = before := by
    obtain ⟨directory, -, hclassified⟩ := bind_ok_iff.mp hcontext
    rw [← Except.ok.inj hclassified]
    show Text.take before.toList.length before = before
    rw [Text.take, List.take_length, String.ofList_toList]
  unfold insertions at hfound
  rw [hbefore] at hfound
  simp only [bind, Except.bind, hcontext] at hfound
  obtain ⟨candidates, -, rfl⟩ := map_ok_iff.mp hfound
  intro i hi
  obtain ⟨candidate, -, rfl⟩ := List.mem_map.mp hi
  have hlength (n m : Nat) : ((n : Int) + -(m : Int)).toNat = n - m := by omega
  rw [Context.replaceWord, hall]
  simp only [hlength]

end Completer

end ShellAssist.Completion
