import ShellAssist.Proofs.History.Import

namespace ShellAssist.History

/-!
# Stores in order of time

A store is held oldest first, and no question looks at its timestamps: what is found is newest first, and
what is dropped is oldest, because of where the entries stand. An import puts its entries behind those
that are held, however old they are.

* `Chronological` — timed entries, oldest first;
* `chronological_drop_append_iff`, `oldest_dropped_iff` — what is left of two such lists, one behind the
  other;
* `Store.importFrom_chronological_iff` — when an import leaves a store in order.
-/

/-- Timed entries, none of them newer than one behind it. -/
structure Chronological (entries : List Entry) : Prop where
  timed : ∀ e ∈ entries, e.timestamp.isSome = true
  ordered : entries.Pairwise fun a b => noOlder b a = true

section Chronological

variable {entries held added : List Entry}

theorem Chronological.sublist (h : Chronological entries) {part : List Entry}
    (hpart : part.Sublist entries) : Chronological part :=
  ⟨fun e he => h.timed e (hpart.subset he), h.ordered.sublist hpart⟩

theorem chronological_append : Chronological (held ++ added) ↔
    Chronological held ∧ Chronological added ∧ ∀ a ∈ held, ∀ b ∈ added, noOlder b a = true := by
  constructor
  · intro h
    exact ⟨h.sublist (List.sublist_append_left _ _), h.sublist (List.sublist_append_right _ _),
      (List.pairwise_append.mp h.ordered).2.2⟩
  · rintro ⟨hheld, hadded, hbetween⟩
    refine ⟨fun e he => ?_, List.pairwise_append.mpr ⟨hheld.ordered, hadded.ordered, hbetween⟩⟩
    exact (List.mem_append.mp he).elim (hheld.timed e) (hadded.timed e)

/-- Oldest first is newest first, read from the end. -/
theorem chronological_iff_newestFirst (h : ∀ e ∈ entries, e.timestamp.isSome = true) :
    Chronological entries ↔ NewestFirst entries.reverse :=
  ⟨fun hentries => List.pairwise_reverse.mpr hentries.ordered,
    fun hreverse => ⟨h, List.pairwise_reverse.mp hreverse⟩⟩

/-- What is left of two lists is in order if no entry that is left of the first is newer than one that
is left of the second. -/
theorem chronological_drop_append_iff (hheld : Chronological held) (hadded : Chronological added)
    (n : Nat) : Chronological ((held ++ added).drop n) ↔
      ∀ a ∈ held.drop n, ∀ b ∈ added.drop (n - held.length), noOlder b a = true := by
  rw [List.drop_append, chronological_append]
  exact ⟨fun h => h.2.2,
    fun h => ⟨hheld.sublist (List.drop_sublist _ _), hadded.sublist (List.drop_sublist _ _), h⟩⟩

/-- What is left is in order and nothing newer has been dropped if no entry at all of the first list is
newer than one that is left of the second. -/
theorem oldest_dropped_iff (hheld : Chronological held) (hadded : Chronological added) (n : Nat) :
    (Chronological ((held ++ added).drop n) ∧
      ∀ a ∈ (held ++ added).take n, ∀ b ∈ (held ++ added).drop n, noOlder b a = true) ↔
      ∀ a ∈ held, ∀ b ∈ added.drop (n - held.length), noOlder b a = true := by
  rw [chronological_drop_append_iff hheld hadded, List.take_append, List.drop_append]
  constructor
  · rintro ⟨hleft, hdropped⟩ a ha b hb
    rw [← List.take_append_drop n held, List.mem_append] at ha
    rcases ha with ha | ha
    · exact hdropped a (List.mem_append_left _ ha) b (List.mem_append_right _ hb)
    · exact hleft a ha b hb
  · intro h
    refine ⟨fun a ha => h a (List.mem_of_mem_drop ha), fun a ha b hb => ?_⟩
    -- Of each list what is dropped stands in front of what is left.
    have hsplit {entries : List Entry} (hentries : Chronological entries) (m : Nat) :
        ∀ a ∈ entries.take m, ∀ b ∈ entries.drop m, noOlder b a = true := by
      rw [← List.take_append_drop m entries, chronological_append] at hentries
      exact hentries.2.2
    rcases List.mem_append.mp ha with ha | ha <;> rcases List.mem_append.mp hb with hb | hb
    · exact hsplit hheld n a ha b hb
    · exact h a (List.mem_of_mem_take ha) b hb
    · -- Where one of the second list is dropped, nothing of the first is left.
      have hlater : 0 < n - held.length := by
        by_contra hzero
        rw [Nat.eq_zero_of_not_pos hzero, List.take_zero] at ha
        cases ha
      rw [List.drop_eq_nil_of_le (by omega)] at hb
      cases hb
    · exact hsplit hadded _ a ha b hb

/-- A zsh log that holds its entries in order lists them in order. -/
theorem LogRun.chronological_view {config : Config} {env : Environment} {asked : List World}
    {log : ShellLog} (hrun : LogRun .zsh config env asked log) (h : Chronological log.entries) :
    Chronological (Provider.shellLog log).view := by
  refine h.sublist ?_
  rw [← List.reverse_sublist, hrun.view_reverse]
  exact dedupeFrom_sublist [] _

end Chronological

namespace Store

variable {s : Store} {w : World}

theorem exists_trim_eq_drop (s : Store) (entries : List Entry) : ∃ n, s.trim entries = entries.drop n := by
  unfold trim Slice.after
  split
  · exact ⟨_, rfl⟩
  · exact ⟨0, rfl⟩

/-- What an import adds to a store, oldest first. -/
def added (s : Store) (looked : List Entry) (deduplicate : Bool) (now : Int) : List Entry :=
  ((choice deduplicate s.entries looked).map (imported now)).reverse

/-- If the entries looked at are in order, so are those added. -/
theorem chronological_added {looked : List Entry} (h : Chronological looked.reverse)
    (deduplicate : Bool) (now : Int) : Chronological (s.added looked deduplicate now) := by
  have hchosen : Chronological (choice deduplicate s.entries looked).reverse := by
    refine h.sublist (List.reverse_sublist.mpr ?_)
    rw [← selection_eq]
    exact Act.selection_sublist _ _ looked
  rw [added, ← List.map_reverse]
  refine ⟨fun copy hcopy => ?_, List.pairwise_map.mpr hchosen.ordered⟩
  obtain ⟨e, he, rfl⟩ := List.mem_map.mp hcopy
  exact hchosen.timed e he

/-- An import puts what it adds behind the entries that are held, and drops some in front. -/
theorem importEntries_drop (s : Store) (looked : List Entry) (deduplicate : Bool) (now : Int)
    (w : World) :
    let after := (s.importEntries looked deduplicate now w).2.1
    after.loaded = s.loaded ∧
      ∃ n, after.entries = (s.entries ++ s.added looked deduplicate now).drop n := by
  intro after
  by_cases hnone : choice deduplicate s.entries looked = []
  · have hafter : after = s := by
      simp only [after, importEntries, selection_eq, if_pos (List.isEmpty_iff.mpr hnone)]
    rw [hafter, added, hnone]
    exact ⟨rfl, 0, by simp⟩
  · simp only [after, importEntries_eq s looked deduplicate now w hnone, (saves_save _ w).store]
    exact ⟨trivial, exists_trim_eq_drop _ _⟩

section Loaded

variable (hloaded : s.loaded = true)

include hloaded

theorem query_of_loaded {α : Type} (w : World) (answer : Provider → Except Failure α) :
    ((Provider.store s).query w answer).1 = answer (.store s) := by
  rw [Provider.query, Provider.refresh, refresh_of_loaded hloaded]

variable (htimed : ∀ e ∈ s.entries, e.timestamp.isSome = true)

include htimed

/-- A store is in order just if it lists its entries newest first. -/
theorem chronological_iff_getAll (w : World) : Chronological s.entries ↔
    ∃ listed, ((Provider.store s).getAll w).1 = .ok listed ∧ NewestFirst listed := by
  rw [Provider.getAll, query_of_loaded hloaded]
  simp only [Except.ok.injEq, exists_eq_left']
  exact chronological_iff_newestFirst htimed

/-- A store is in order just if all searches find entries newest first. -/
theorem chronological_iff_search (w : World) : Chronological s.entries ↔ ∀ query limit deduplicate,
    ∃ found, ((Provider.store s).search w query limit deduplicate).1 = .ok found ∧
      NewestFirst found := by
  simp only [Provider.search, query_of_loaded hloaded, Except.ok.injEq, exists_eq_left']
  rw [chronological_iff_newestFirst htimed]
  constructor
  · exact fun h query limit deduplicate => search_newestFirst h query _ _
  · -- The empty query finds all entries.
    intro h
    have hall := h "" (some 0) (some false)
    rw [Option.getD_some, Option.getD_some, show (Provider.store s).entries = s.entries from rfl,
      search_empty] at hall
    exact hall

end Loaded

/-- **An import leaves a store in order if no entry held is newer than one imported.** It takes a store
and a source that are in order, and drops some entries in front. What is left is in order, so that all
lists and searches are newest first, just if none of the entries that were held and are left is newer
than one of the imported that are left; and what is dropped is no newer than what is left just if that is
so for all entries that were held. -/
theorem importFrom_chronological_iff {r : Store} {source : Provider} {now : Int} {offered : List Entry}
    (deduplicate : Bool) (maxImport : Nat) (hrefresh : s.refresh w = (.ok (), r))
    (hclock : w.millis = .ok now) (hoffered : (source.getAll w).1 = .ok offered)
    (hheld : Chronological r.entries) (hsource : Chronological offered.reverse) :
    let added := r.added (offered.take maxImport) deduplicate now
    let after := ((Provider.store s).importFrom source deduplicate (some maxImport) w).2.1
    ∃ n, after.entries = (r.entries ++ added).drop n ∧
      (Chronological after.entries ↔
        ∀ a ∈ r.entries.drop n, ∀ b ∈ added.drop (n - r.entries.length), noOlder b a = true) ∧
      (∀ w', Chronological after.entries ↔
        ∃ listed, (after.getAll w').1 = .ok listed ∧ NewestFirst listed) ∧
      (∀ w', Chronological after.entries ↔ ∀ query limit deduplicate,
        ∃ found, (after.search w' query limit deduplicate).1 = .ok found ∧ NewestFirst found) ∧
      (Chronological after.entries ∧
          (∀ a ∈ (r.entries ++ added).take n, ∀ b ∈ after.entries, noOlder b a = true) ↔
        ∀ a ∈ r.entries, ∀ b ∈ added.drop (n - r.entries.length), noOlder b a = true) := by
  intro added after
  have hafter : after = .store (r.importEntries (offered.take maxImport) deduplicate now w).2.1 := by
    simp only [after, Provider.importFrom, Provider.onStore, hrefresh, hclock, hoffered, newest_eq_take]
  -- The batch is turned over before it is appended, so it comes in the order of its log.
  have hadded : Chronological added := by
    refine chronological_added (hsource.sublist (List.reverse_sublist.mpr ?_)) deduplicate now
    exact List.take_sublist _ _
  have hloaded : r.loaded = true := by
    rcases s.refresh_loaded w with ⟨-, hloaded⟩ | ⟨hfails, -⟩
    · rwa [hrefresh] at hloaded
    · rw [hrefresh] at hfails
      exact absurd rfl hfails
  obtain ⟨hstays, n, hentries⟩ := importEntries_drop r (offered.take maxImport) deduplicate now w
  generalize (r.importEntries (offered.take maxImport) deduplicate now w).2.1 = left
    at hafter hstays hentries
  clear_value after
  subst hafter
  have htimed : ∀ e ∈ left.entries, e.timestamp.isSome = true := by
    rw [hentries]
    intro e he
    exact (List.mem_append.mp (List.mem_of_mem_drop he)).elim (hheld.timed e) (hadded.timed e)
  -- The store shows what it holds turned over, so the answers are sorted if it is.
  refine ⟨n, hentries, ?_, chronological_iff_getAll (hstays.trans hloaded) htimed,
    chronological_iff_search (hstays.trans hloaded) htimed, ?_⟩
  · show Chronological left.entries ↔ _
    rw [hentries]
    exact chronological_drop_append_iff hheld hadded n
  · show Chronological left.entries ∧ (∀ a ∈ _, ∀ b ∈ left.entries, _) ↔ _
    rw [hentries]
    exact oldest_dropped_iff hheld hadded n

/-- Of four entries two are kept. They are in order, but one that was dropped is newer than one of them. -/
theorem importFrom_chronological_dropped :
    let s : Store := { sample with
      maxEntries := 2, entries := [.sample "make" 1000 [], .sample "cd" 2000 []], loaded := true }
    let source := Provider.memory
      { name := "log", entries := [.sample "ls" 1500 [], .sample "pwd" 3000 []] }
    let after := ((Provider.store s).importFrom source true (some (2 : Nat)) {}).2.1
    Chronological after.entries ∧ ∃ a ∈ s.entries, ∃ b ∈ after.entries, noOlder b a = false := by
  intro s source after
  have hordered (a b : Entry) (ha : a.timestamp.isSome = true) (hb : b.timestamp.isSome = true)
      (hab : noOlder b a = true) : Chronological [a, b] :=
    ⟨by simp [ha, hb], by simp [hab]⟩
  have hclock : World.millis {} = .ok 1700000000000 := by decide
  have hoffered : (source.getAll {}).1 = .ok source.entries.reverse := rfl
  have hrefresh : s.refresh {} = (.ok (), s) := rfl
  obtain ⟨n, hentries, hinOrder, -⟩ := importFrom_chronological_iff true 2 hrefresh hclock hoffered
    (hordered _ _ rfl rfl rfl) (hordered _ _ rfl rfl rfl)
  -- Four records for two places: the older half has to go.
  have hn : n = 2 := by
    have hlength := congrArg List.length hentries
    rw [show List.length _ = 2 by decide +kernel, List.length_drop] at hlength
    rw [show List.length (s.entries ++ _) = 4 by decide] at hlength
    omega
  refine ⟨hinOrder.mpr ?_, by decide +kernel⟩
  subst hn
  exact nofun

/-- An import need not leave a store in order: its only entry is newer than the one imported. -/
theorem importFrom_unordered :
    ¬ ∀ (s r : Store) (source : Provider) (w : World) (deduplicate : Bool) (maxImport : Nat),
      s.refresh w = (.ok (), r) → Chronological r.entries → Chronological (source.refresh w).2.entries →
      Chronological
        ((Provider.store s).importFrom source deduplicate (some maxImport) w).2.1.entries := by
  intro hordered
  let s : Store := { sample with entries := [.sample "make" 2000 []], loaded := true }
  let source := Provider.memory { name := "log", entries := [.sample "ls" 1000 []] }
  have hsingle (command : String) (timestamp : Int) : Chronological [.sample command timestamp []] :=
    ⟨by simp [Entry.sample], List.pairwise_singleton _ _⟩
  have hafter := (hordered s s source {} true 1 rfl (hsingle _ _) (hsingle _ _)).ordered
  revert hafter
  decide +kernel

end Store

end ShellAssist.History
