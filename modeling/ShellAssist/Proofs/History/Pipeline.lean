import ShellAssist.Proofs.History.Mirror
import ShellAssist.Proofs.History.Truncation
import ShellAssist.Proofs.Text.Basic

namespace ShellAssist.History

/-!
# Searches as pipelines

A search goes through a log once and ends when it has enough. It finds what the steps find that it is
made of, one after the other: the entries newest first, those of them that match, the newest of each
command, and so many of these. A zsh log does one of the steps when it is read.

* `firstOfEach` — the entries before which none of the same command stands;
* `dedupe_eq_firstOfEach`, `dedupe_filter` — that is what deduplication leaves, before or after matching;
* `pipeline` — a search step by step;
* `search_eq_pipeline` — searches, and what a zsh log lists.
-/

/-! ### The first of each command -/

/-- Whether no entry of the same command stands before the one at a place. -/
def isFirst (entries : List Entry) (placed : Entry × Nat) : Bool :=
  (entries.take placed.2).all fun e => e.command ≠ placed.1.command

/-- The entries before which no entry of the same command stands. -/
def firstOfEach (entries : List Entry) : List Entry :=
  (entries.zipIdx.filter (isFirst entries)).map (·.1)

section Dedupe

variable {seen seen' : List String} {entries : List Entry}

/-- Which commands have been seen matters only for those that come. -/
theorem dedupeFrom_congr (h : ∀ e ∈ entries, e.command ∈ seen ↔ e.command ∈ seen') :
    dedupeFrom seen entries = dedupeFrom seen' entries := by
  induction entries generalizing seen seen' with
  | nil => rfl
  | cons e entries ih =>
    obtain ⟨hfirst, hrest⟩ := List.forall_mem_cons.mp h
    have hlonger : ∀ e' ∈ entries, e'.command ∈ e.command :: seen ↔ e'.command ∈ e.command :: seen' :=
      fun e' he' => by rw [List.mem_cons, List.mem_cons, hrest e' he']
    simp only [dedupeFrom, List.contains_iff_mem, hfirst]
    rw [ih hrest, ih hlonger]

theorem isFirst_append (passed : List Entry) (e : Entry) (rest : List Entry) :
    isFirst (passed ++ e :: rest) (e, passed.length) = true ↔ e.command ∉ passed.map (·.command) := by
  rw [isFirst, List.take_left, List.all_eq_true, List.mem_map]
  simp

/-- What is left behind other entries are those before which none of the same command stands. -/
theorem dedupeFrom_eq_filter (passed rest : List Entry) :
    dedupeFrom (passed.map (·.command)) rest
      = ((rest.zipIdx passed.length).filter (isFirst (passed ++ rest))).map (·.1) := by
  induction rest generalizing passed with
  | nil => rfl
  | cons e rest ih =>
    -- The entry just passed joins the ones before it, whether it was kept or not.
    have hrest := ih (passed ++ [e])
    rw [List.length_append, List.length_singleton, List.append_assoc, List.singleton_append] at hrest
    have hpassed (c : String) : c ∈ (passed ++ [e]).map (·.command) ↔
        c ∈ e.command :: passed.map (·.command) := by simp [or_comm]
    rw [List.zipIdx_cons, List.filter_cons, dedupeFrom]
    by_cases hseen : e.command ∈ passed.map (·.command)
    · rw [if_pos (List.contains_iff_mem.mpr hseen), if_neg fun h => (isFirst_append _ _ _).mp h hseen,
        ← hrest]
      refine dedupeFrom_congr fun e' _ => ?_
      rw [hpassed, List.mem_cons, or_iff_right_of_imp fun heq => heq ▸ hseen]
    · rw [if_neg (mt List.contains_iff_mem.mp hseen), if_pos ((isFirst_append _ _ _).mpr hseen),
        List.map_cons, ← hrest]
      exact congrArg (List.cons e) (dedupeFrom_congr fun e' _ => (hpassed _).symm)

/-- **Deduplication leaves the first of each command.** -/
theorem dedupe_eq_firstOfEach (entries : List Entry) : dedupe entries = firstOfEach entries :=
  dedupeFrom_eq_filter [] entries

/-- What is asked of commands alone may be asked before or after deduplication. -/
theorem dedupeFrom_filter (p : String → Bool) (seen : List String) (entries : List Entry) :
    dedupeFrom seen (entries.filter fun e => p e.command)
      = (dedupeFrom seen entries).filter fun e => p e.command := by
  induction entries generalizing seen with
  | nil => rfl
  | cons e entries ih =>
    rw [List.filter_cons, dedupeFrom]
    by_cases hseen : seen.contains e.command = true
    · rw [if_pos hseen, ← ih]
      split
      · rw [dedupeFrom, if_pos hseen]
      · rfl
    · rw [if_neg hseen, List.filter_cons, ← ih]
      split
      · rw [dedupeFrom, if_neg hseen]
      · -- No entry that is left has the command that has been seen on the right only.
        rename_i hp
        refine dedupeFrom_congr fun e' he' => ?_
        rw [List.mem_cons, or_iff_right]
        intro heq
        exact hp (heq ▸ (List.mem_filter.mp he').2)

theorem dedupe_filter (p : String → Bool) (entries : List Entry) :
    dedupe (entries.filter fun e => p e.command) = (dedupe entries).filter fun e => p e.command :=
  dedupeFrom_filter p [] entries

end Dedupe

/-! ### Searches -/

/-- A search step by step: the entries newest first, those whose command contains the query where both
are in lower case, with deduplication the first of each command, and of these so many, or all. -/
def pipeline (entries : List Entry) (query : String) (limit : Nat) (deduplicate : Bool) : List Entry :=
  let matching := entries.reverse.filter fun e => Text.contains (Text.lower query) (Text.lower e.command)
  let found := if deduplicate then firstOfEach matching else matching
  if limit = 0 then found else found.take limit

/-- Without a limit a search finds the matching ones of the entries that are looked at. -/
theorem searchFrom_eq_filter (needle : List Char) (deduplicate : Bool) (seen : List String) (found : Nat)
    (entries : List Entry) :
    searchFrom needle deduplicate 0 seen found entries
      = (if deduplicate then dedupeFrom seen entries else entries).filter (·.containsFolded needle) := by
  induction entries generalizing seen found with
  | nil => cases deduplicate <;> rfl
  | cons e entries ih =>
    have hlimit : ¬ (decide ((0 : Int) ≠ 0) && decide ((0 : Int) ≤ found + 1)) = true := by simp
    rw [searchFrom]
    simp only [if_neg hlimit, ih]
    cases deduplicate with
    | false => simp [List.filter_cons]
    | true =>
      simp only [Bool.true_and, if_true, dedupeFrom]
      split
      · rfl
      · rw [List.filter_cons]

theorem search_eq_filter (entries : List Entry) (query : String) (deduplicate : Bool) :
    search entries query 0 deduplicate = (kept deduplicate entries.reverse).filter
      fun e => Text.contains (Text.lower query) (Text.lower e.command) := by
  rw [search, searchFrom_eq_filter]
  simp only [Entry.containsFolded, Text.contains, Text.lower, String.toList_ofList]
  rfl

/-- **A search is its steps, one after the other.** -/
theorem search_eq_steps (entries : List Entry) (query : String) (limit : Nat) (deduplicate : Bool) :
    search entries query limit deduplicate = pipeline entries query limit deduplicate := by
  have hunlimited : search entries query 0 deduplicate = pipeline entries query 0 deduplicate := by
    rw [search_eq_filter, pipeline, if_pos rfl]
    cases deduplicate with
    | false => rfl
    | true =>
      rw [if_pos rfl, ← dedupe_eq_firstOfEach]
      exact (dedupe_filter (fun c => Text.contains (Text.lower query) (Text.lower c)) _).symm
  rcases Nat.eq_zero_or_pos limit with rfl | hpos
  · exact hunlimited
  · rw [search_eq_take entries query hpos, hunlimited, pipeline, pipeline, if_pos rfl,
      if_neg hpos.ne']

/-- The empty query is contained in every command. -/
theorem search_empty (entries : List Entry) (deduplicate : Bool) :
    search entries "" 0 deduplicate = kept deduplicate entries.reverse := by
  have hempty : Text.lower "" = "" := by decide
  rw [search_eq_filter, hempty, List.filter_eq_self]
  exact fun e _ => Text.contains_iff.mpr List.nil_infix

/-! ### What a zsh log lists -/

section Zsh

variable {config : Config} {env : Environment} {asked : List World} {log : ShellLog}

/-- After any run the listed entries of a zsh log are the newest of each command. -/
theorem LogRun.view_reverse (h : LogRun .zsh config env asked log) :
    (Provider.shellLog log).view.reverse = dedupe log.entries.reverse := by
  have hcreate := ofName?_name .zsh config env {}
  have hmirrors := mirrors_of_run hcreate h
  have hdialect : log.dialect = .zsh := congrArg ShellLog.dialect hmirrors.settings
  rw [Provider.view, if_pos hdialect, hmirrors.unique, ShellLog.newestOfEach, List.reverse_reverse]

theorem LogRun.refresh (h : LogRun .zsh config env asked log) (w : World) :
    LogRun .zsh config env (w :: asked) (log.refresh w).2 :=
  .query h .getAll w (Query.ask_eq _ _ _)

/-- Two questions have the same answer if they have it after every run. -/
theorem LogRun.query_congr (h : LogRun .zsh config env asked log) (w : World)
    {answer answer' : Provider → Except Failure (List Entry)}
    (hsame : ∀ asked' log', LogRun .zsh config env asked' log' →
      answer (.shellLog log') = answer' (.shellLog log')) :
    (Provider.shellLog log).query w answer = (Provider.shellLog log).query w answer' := by
  have hrefreshed := hsame _ _ (h.refresh w)
  rw [Provider.query, Provider.query, Provider.refresh]
  rcases hrefresh : log.refresh w with ⟨result, refreshed⟩
  rw [hrefresh] at hrefreshed
  cases result with
  | error failure => rfl
  | ok _ => exact congrArg (·, Provider.shellLog refreshed) hrefreshed

theorem newest_eq_take (n : Nat) (entries : List Entry) :
    Provider.newest (some (n : Int)) entries = entries.take n := by
  rcases Nat.eq_zero_or_pos n with rfl | hpos
  · rfl
  · have hcut := cut_eq_take hpos entries
    rwa [cut, if_neg (by omega)] at hcut

/-- The newest listed entries are the first of those listed. -/
theorem getRecent_eq_take (p : Provider) (w : World) (n : Nat) :
    p.getRecent w (some n) = ((p.getAll w).1.map (·.take n), (p.getAll w).2) := by
  rw [Provider.getRecent, Provider.getAll, Provider.query, Provider.query]
  simp only [newest_eq_take]
  rcases p.refresh w with ⟨_ | _, _⟩ <;> rfl

end Zsh

/-- **Searches are pipelines, and a zsh log lists what they find.** A provider that has been brought up
to date finds what the steps find, in whatever log it holds. After any run of questions a zsh log lists
what the empty query finds with deduplication, its raw entries are those found without, and its newest
entries are the first of those listed; a question that fails leaves all of them without an answer. -/
theorem search_eq_pipeline :
    (∀ (entries : List Entry) (query : String) (limit : Nat) (deduplicate : Bool),
      search entries query limit deduplicate = pipeline entries query limit deduplicate) ∧
    (∀ (p : Provider) (w : World) (query : String) (limit : Nat) (deduplicate : Bool),
      p.search w query (some limit) (some deduplicate)
        = p.query w fun p => .ok (pipeline p.entries query limit deduplicate)) ∧
    ∀ {config : Config} {env : Environment} {asked : List World} {log : ShellLog},
      LogRun .zsh config env asked log → ∀ w : World,
        let p := Provider.shellLog log
        p.getAll w = p.search w "" (some 0) (some true) ∧
        p.getAllRaw w = p.search w "" (some 0) (some false) ∧
        ∀ n : Nat, p.getRecent w (some n) = ((p.getAll w).1.map (·.take n), (p.getAll w).2) := by
  refine ⟨search_eq_steps, fun p w query limit deduplicate => ?_, fun hrun w => ⟨?_, ?_, ?_⟩⟩
  · simp only [Provider.search, Option.getD_some, search_eq_steps]
  · refine hrun.query_congr w fun asked' log' hrun' => congrArg Except.ok ?_
    rw [hrun'.view_reverse]
    exact (search_empty log'.entries true).symm
  · refine hrun.query_congr w fun asked' log' _ => congrArg Except.ok ?_
    exact (search_empty log'.entries false).symm
  · exact getRecent_eq_take _ w

/-- A zsh history with a command that was run twice. -/
theorem getAll_repeated :
    let p : Provider := .shellLog (heldLog 2)
    let w := withHistory 3 (Text.encode "ls\npwd\nls\n".toList)
    LogRun .zsh {} [("HISTFILE", "/h/hist")] [listed] (heldLog 2) ∧
    (p.getAll w).1.map (·.map (·.command)) = .ok ["ls", "pwd"] ∧
    p.getAll w = p.search w "" (some 0) (some true) ∧
    p.getAllRaw w = p.search w "" (some 0) (some false) ∧
    p.getRecent w (some 1) = ((p.getAll w).1.map (·.take 1), (p.getAll w).2) := by
  intro p w
  obtain ⟨hlisted, hraw, hrecent⟩ := search_eq_pipeline.2.2 heldLog_run w
  exact ⟨heldLog_run, by decide, hlisted, hraw, hrecent 1⟩

end ShellAssist.History
