import ShellAssist.History.Merge
import Mathlib.Data.List.Basic
import Mathlib.Data.List.Perm.Subperm

namespace ShellAssist.History

/-!
# Merging and keeping the first of each command

Sorting logs that are sorted already is merging them one after the other. Two logs that begin alike
are merged into logs that begin alike, as far as the entries go that they have in common.

* `noOlder_trans`, `noOlder_total` — the order of entries;
* `mergeSort_append` — sorting behind a sorted log is merging with it;
* `dedupe_commands_nodup`, `mem_dedupe_commands`, `dedupe_append_prefix` — what `dedupe` keeps;
* `AgreeUpTo.mergeSort` — logs that begin alike, in front of logs that begin alike.
-/

/-! ### The order of entries -/

theorem noOlder_trans (a b c : Entry) (hab : noOlder a b = true) (hbc : noOlder b c = true) :
    noOlder a c = true := by
  unfold noOlder at hab hbc ⊢
  cases hc : c.timestamp with
  | none => rfl
  | some t =>
    cases hb : b.timestamp with
    | none => simp [hb, hc] at hbc
    | some s =>
      cases ha : a.timestamp with
      | none => simp [ha, hb] at hab
      | some r =>
        simp only [ha, hb, hc, decide_eq_true_eq] at hab hbc ⊢
        omega

theorem noOlder_total (a b : Entry) : (noOlder a b || noOlder b a) = true := by
  unfold noOlder
  cases a.timestamp with
  | none => cases b.timestamp <;> rfl
  | some s =>
    cases b.timestamp with
    | none => rfl
    | some t =>
      simp only [Bool.or_eq_true, decide_eq_true_eq]
      exact Int.le_total t s

/-- Newest first. -/
abbrev NewestFirst (entries : List Entry) : Prop :=
  entries.Pairwise fun a b => noOlder a b = true

/-! ### Sorting by merging -/

section Merging

variable {a : Entry} {xs ys zs before behind : List Entry}

/-- An entry that is no older than the first log is merged in front of the place where it would be
sorted to. -/
theorem merge_cons_of_split (hfirst : ∀ x ∈ xs, noOlder a x = true)
    (hmerge : xs.merge ys noOlder = before ++ behind)
    (hbefore : ∀ b ∈ before, noOlder a b = false) (hbehind : ∀ b ∈ behind, noOlder a b = true) :
    (a :: xs).merge ys noOlder = before ++ a :: behind := by
  induction before generalizing ys with
  | nil =>
    rw [List.nil_append] at hmerge
    cases ys with
    | nil =>
      rw [List.merge_right] at hmerge ⊢
      rw [hmerge, List.nil_append]
    | cons y ys =>
      have hy : noOlder a y = true := by
        refine hbehind y ?_
        rw [← hmerge]
        exact List.mem_merge_right noOlder List.mem_cons_self
      rw [List.cons_merge_cons_pos noOlder _ _ hy, hmerge, List.nil_append]
  | cons b before ih =>
    have hb := hbefore b List.mem_cons_self
    cases ys with
    | nil =>
      -- The first log alone has nothing that belongs in front of the entry.
      rw [List.merge_right] at hmerge
      have hfirst := hfirst b (hmerge ▸ List.mem_cons_self)
      exact absurd (hb.symm.trans hfirst) nofun
    | cons y ys =>
      -- The first entry of the merged log comes from the second one.
      have hhead : y = b ∧ xs.merge ys noOlder = before ++ behind := by
        cases xs with
        | nil =>
          rw [List.nil_merge] at hmerge ⊢
          exact List.cons.inj hmerge
        | cons x xs =>
          by_cases hx : noOlder x y = true
          · rw [List.cons_merge_cons_pos noOlder _ _ hx] at hmerge
            obtain rfl : x = b := (List.cons.inj hmerge).1
            exact absurd (hb.symm.trans (hfirst x List.mem_cons_self)) nofun
          · rw [List.cons_merge_cons_neg noOlder _ _ hx] at hmerge
            exact List.cons.inj hmerge
      obtain ⟨rfl, hrest⟩ := hhead
      rw [List.cons_merge_cons_neg noOlder _ _ (by simp [hb]),
        ih hrest fun b hmem => hbefore b (List.mem_cons_of_mem _ hmem), List.cons_append]

/-- **Sorting entries behind a sorted log is merging them with it.** -/
theorem mergeSort_append (hxs : NewestFirst xs) (ys : List Entry) :
    (xs ++ ys).mergeSort noOlder = xs.merge (ys.mergeSort noOlder) noOlder := by
  induction xs with
  | nil => rw [List.nil_append, List.nil_merge]
  | cons a xs ih =>
    obtain ⟨hfirst, hxs⟩ := List.pairwise_cons.mp hxs
    -- The entry is sorted in behind everything newer and in front of all it is no older than.
    obtain ⟨before, behind, hwith, hwithout, hbefore⟩ :=
      List.mergeSort_cons noOlder_trans noOlder_total a (xs ++ ys)
    have hsorted := List.pairwise_mergeSort noOlder_trans noOlder_total (a :: (xs ++ ys))
    rw [hwith] at hsorted
    have hbehind := (List.pairwise_cons.mp (List.pairwise_append.mp hsorted).2.1).1
    rw [List.cons_append, hwith]
    refine (merge_cons_of_split hfirst ((ih hxs).symm.trans hwithout) ?_ hbehind).symm
    intro b hb
    simpa using hbefore b hb

/-- Logs that begin alike, merged with the same log before them, begin alike as far. -/
theorem exists_prefix_merge_left (common : List Entry) (xs ys zs : List Entry) :
    ∃ shared, shared <+: xs.merge (common ++ ys) noOlder ∧
      shared <+: xs.merge (common ++ zs) noOlder ∧ common.Sublist shared := by
  -- Whichever log the next entry comes from, both results go on with it.
  induction common generalizing xs with
  | nil => exact ⟨[], List.nil_prefix, List.nil_prefix, List.Sublist.refl _⟩
  | cons c common ih =>
    induction xs with
    | nil =>
      rw [List.nil_merge, List.nil_merge]
      exact ⟨c :: common, List.prefix_append _ _, List.prefix_append _ _, List.Sublist.refl _⟩
    | cons x xs ihx =>
      rw [List.cons_append, List.cons_append, List.cons_merge_cons, List.cons_merge_cons]
      split
      · obtain ⟨shared, hy, hz, hsub⟩ := ihx
        exact ⟨x :: shared, List.cons_prefix_cons.mpr ⟨rfl, hy⟩,
          List.cons_prefix_cons.mpr ⟨rfl, hz⟩, hsub.trans (List.sublist_cons_self _ _)⟩
      · obtain ⟨shared, hy, hz, hsub⟩ := ih (x :: xs)
        exact ⟨c :: shared, List.cons_prefix_cons.mpr ⟨rfl, hy⟩,
          List.cons_prefix_cons.mpr ⟨rfl, hz⟩, hsub.cons_cons c⟩

/-- So do logs that begin alike, merged with the same log behind them. -/
theorem exists_prefix_merge_right (common : List Entry) (xs ys zs : List Entry) :
    ∃ shared, shared <+: (common ++ xs).merge zs noOlder ∧
      shared <+: (common ++ ys).merge zs noOlder ∧ common.Sublist shared := by
  -- As above, with the sides of the merge exchanged.
  induction common generalizing zs with
  | nil => exact ⟨[], List.nil_prefix, List.nil_prefix, List.Sublist.refl _⟩
  | cons c common ih =>
    induction zs with
    | nil =>
      rw [List.merge_right, List.merge_right]
      exact ⟨c :: common, List.prefix_append _ _, List.prefix_append _ _, List.Sublist.refl _⟩
    | cons z zs ihz =>
      rw [List.cons_append, List.cons_append, List.cons_merge_cons, List.cons_merge_cons]
      split
      · obtain ⟨shared, hx, hy, hsub⟩ := ih (z :: zs)
        exact ⟨c :: shared, List.cons_prefix_cons.mpr ⟨rfl, hx⟩,
          List.cons_prefix_cons.mpr ⟨rfl, hy⟩, hsub.cons_cons c⟩
      · obtain ⟨shared, hx, hy, hsub⟩ := ihz
        exact ⟨z :: shared, List.cons_prefix_cons.mpr ⟨rfl, hx⟩,
          List.cons_prefix_cons.mpr ⟨rfl, hy⟩, hsub.trans (List.sublist_cons_self _ _)⟩

end Merging

/-! ### The first of each command -/

section Dedupe

variable {entries first rest : List Entry} {seen : List String} {c : String}

/-- The commands that are kept are those that have not been seen. -/
theorem mem_dedupeFrom_commands :
    c ∈ (dedupeFrom seen entries).map (·.command) ↔ c ∈ entries.map (·.command) ∧ c ∉ seen := by
  induction entries generalizing seen with
  | nil => simp [dedupeFrom]
  | cons e entries ih =>
    rw [dedupeFrom]
    -- A command that has been seen adds nothing, and one that has not is seen from here on.
    by_cases hseen : seen.contains e.command = true
    · rw [if_pos hseen, ih, List.map_cons, List.mem_cons]
      refine and_congr_left fun hc => ⟨.inr, ?_⟩
      rintro (rfl | hmem)
      · exact absurd (List.contains_iff_mem.mp hseen) hc
      · exact hmem
    · rw [if_neg hseen, List.map_cons, List.mem_cons, ih, List.map_cons, List.mem_cons,
        List.mem_cons, not_or]
      have hnew : e.command ∉ seen := fun hmem => hseen (List.contains_iff_mem.mpr hmem)
      constructor
      · rintro (rfl | ⟨hmem, -, hc⟩)
        · exact ⟨.inl rfl, hnew⟩
        · exact ⟨.inr hmem, hc⟩
      · rintro ⟨rfl | hmem, hc⟩
        · exact .inl rfl
        · by_cases heq : c = e.command
          · exact .inl heq
          · exact .inr ⟨hmem, heq, hc⟩

theorem mem_dedupe_commands :
    c ∈ (dedupe entries).map (·.command) ↔ c ∈ entries.map (·.command) := by
  rw [dedupe, mem_dedupeFrom_commands]
  simp

/-- No command is kept twice. -/
theorem dedupeFrom_commands_nodup (seen : List String) (entries : List Entry) :
    ((dedupeFrom seen entries).map (·.command)).Nodup := by
  induction entries generalizing seen with
  | nil => exact List.nodup_nil
  | cons e entries ih =>
    rw [dedupeFrom]
    split
    · exact ih seen
    · rw [List.map_cons, List.nodup_cons]
      refine ⟨fun hmem => ?_, ih _⟩
      exact (mem_dedupeFrom_commands.mp hmem).2 List.mem_cons_self

/-- What is kept stands in the order of the log. -/
theorem dedupeFrom_sublist (seen : List String) (entries : List Entry) :
    (dedupeFrom seen entries).Sublist entries := by
  induction entries generalizing seen with
  | nil => exact .slnil
  | cons e entries ih =>
    rw [dedupeFrom]
    split
    · exact (ih _).cons e
    · exact (ih _).cons_cons e

/-- Where no command stands twice, everything is kept. -/
theorem dedupeFrom_of_nodup (h : (entries.map (·.command)).Nodup)
    (hseen : ∀ e ∈ entries, e.command ∉ seen) : dedupeFrom seen entries = entries := by
  induction entries generalizing seen with
  | nil => rfl
  | cons e entries ih =>
    rw [List.map_cons, List.nodup_cons] at h
    have hnew : ¬ seen.contains e.command = true :=
      fun hmem => hseen e List.mem_cons_self (List.contains_iff_mem.mp hmem)
    rw [dedupeFrom, if_neg hnew, ih h.2]
    intro e' he' hmem
    rcases List.mem_cons.mp hmem with heq | hmem
    · exact h.1 (heq ▸ List.mem_map_of_mem he')
    · exact hseen e' (List.mem_cons_of_mem e he') hmem

/-- What is kept of a log does not depend on what comes behind it. -/
theorem dedupeFrom_prefix (seen : List String) (first rest : List Entry) :
    dedupeFrom seen first <+: dedupeFrom seen (first ++ rest) := by
  induction first generalizing seen with
  | nil => exact List.nil_prefix
  | cons e first ih =>
    rw [List.cons_append, dedupeFrom, dedupeFrom]
    split
    · exact ih seen
    · exact List.cons_prefix_cons.mpr ⟨rfl, ih _⟩

end Dedupe

/-- The first entry of each command, or all entries. -/
def kept (deduplicate : Bool) (entries : List Entry) : List Entry :=
  if deduplicate then dedupe entries else entries

section Kept

variable {deduplicate : Bool} {xs ys : List Entry}

theorem merge_eq (logs : List (List Entry)) (deduplicate : Bool) (limit : Option Int) :
    merge logs deduplicate limit = cut limit (kept deduplicate (logs.flatten.mergeSort noOlder)) :=
  rfl

theorem kept_prefix (deduplicate : Bool) (h : xs <+: ys) :
    kept deduplicate xs <+: kept deduplicate ys := by
  obtain ⟨rest, rfl⟩ := h
  cases deduplicate with
  | true => exact dedupeFrom_prefix [] xs rest
  | false => exact List.prefix_append xs rest

/-- More entries have no fewer kept. -/
theorem length_kept_le (h : xs.Sublist ys) :
    (kept deduplicate xs).length ≤ (kept deduplicate ys).length := by
  cases deduplicate with
  | false => exact h.length_le
  | true =>
    -- Distinct commands are counted, and every command of the shorter log is in the longer one.
    have hsubset : (dedupe xs).map (·.command) ⊆ (dedupe ys).map (·.command) := by
      intro c hc
      rw [mem_dedupe_commands] at hc ⊢
      exact (h.map _).subset hc
    have hlength := ((dedupeFrom_commands_nodup [] xs).subperm hsubset).length_le
    rwa [List.length_map, List.length_map] at hlength

/-- Where no command stands twice, or repeats are kept anyway, all is kept. -/
theorem kept_eq_self (h : deduplicate = true → (xs.map (·.command)).Nodup) :
    kept deduplicate xs = xs := by
  cases deduplicate with
  | false => rfl
  | true => exact dedupeFrom_of_nodup (h rfl) (by simp)

end Kept

/-! ### Logs that begin alike -/

/-- Two logs are the same, or begin alike with so much that `n` entries are kept of that. -/
def AgreeUpTo (deduplicate : Bool) (n : Nat) (xs ys : List Entry) : Prop :=
  xs = ys ∨ ∃ common, common <+: xs ∧ common <+: ys ∧ n ≤ (kept deduplicate common).length

namespace AgreeUpTo

variable {deduplicate : Bool} {n : Nat} {xs ys zs : List Entry}

theorem trans (hxy : AgreeUpTo deduplicate n xs ys) (hyz : AgreeUpTo deduplicate n ys zs) :
    AgreeUpTo deduplicate n xs zs := by
  rcases hxy with rfl | ⟨c, hcx, hcy, hc⟩
  · exact hyz
  rcases hyz with rfl | ⟨d, hdy, hdz, hd⟩
  · exact .inr ⟨c, hcx, hcy, hc⟩
  -- Both are prefixes of the log in the middle, so the shorter one is a prefix of all three.
  rcases List.prefix_or_prefix_of_prefix hcy hdy with hcd | hdc
  · exact .inr ⟨c, hcx, hcd.trans hdz, hc⟩
  · exact .inr ⟨d, hdc.trans hcx, hdz, hd⟩

/-- A log without repeats agrees with its first entries. -/
theorem take (h : deduplicate = true → (xs.map (·.command)).Nodup) :
    AgreeUpTo deduplicate n (xs.take n) xs := by
  by_cases hshort : xs.length ≤ n
  · exact .inl (List.take_of_length_le hshort)
  · refine .inr ⟨xs.take n, List.prefix_refl _, List.take_prefix n xs, ?_⟩
    have hnodup (hyes : deduplicate = true) : ((xs.take n).map (·.command)).Nodup :=
      (h hyes).sublist ((List.take_sublist n xs).map _)
    rw [kept_eq_self hnodup, List.length_take]
    omega

theorem merge_left (h : AgreeUpTo deduplicate n ys zs) (xs : List Entry) :
    AgreeUpTo deduplicate n (xs.merge ys noOlder) (xs.merge zs noOlder) := by
  rcases h with rfl | ⟨common, ⟨ys, rfl⟩, ⟨zs, rfl⟩, hlong⟩
  · exact .inl rfl
  · obtain ⟨shared, hy, hz, hsub⟩ := exists_prefix_merge_left common xs ys zs
    exact .inr ⟨shared, hy, hz, Nat.le_trans hlong (length_kept_le hsub)⟩

theorem merge_right (h : AgreeUpTo deduplicate n xs ys) (zs : List Entry) :
    AgreeUpTo deduplicate n (xs.merge zs noOlder) (ys.merge zs noOlder) := by
  rcases h with rfl | ⟨common, ⟨xs, rfl⟩, ⟨ys, rfl⟩, hlong⟩
  · exact .inl rfl
  · obtain ⟨shared, hx, hy, hsub⟩ := exists_prefix_merge_right common xs ys zs
    exact .inr ⟨shared, hx, hy, Nat.le_trans hlong (length_kept_le hsub)⟩

/-- Logs that agree have the same first entries kept. -/
theorem take_kept (h : AgreeUpTo deduplicate n xs ys) :
    (kept deduplicate xs).take n = (kept deduplicate ys).take n := by
  rcases h with rfl | ⟨common, hx, hy, hlong⟩
  · rfl
  · obtain ⟨xs', hxs⟩ := kept_prefix deduplicate hx
    obtain ⟨ys', hys⟩ := kept_prefix deduplicate hy
    rw [← hxs, ← hys, List.take_append_of_le_length hlong, List.take_append_of_le_length hlong]

/-- **Sorting first entries instead of whole logs** changes nothing that matters. -/
theorem mergeSort {logs : List (List Entry)} (hsorted : ∀ log ∈ logs, NewestFirst log)
    (hnodup : deduplicate = true → ∀ log ∈ logs, (log.map (·.command)).Nodup) :
    AgreeUpTo deduplicate n ((logs.map (List.take n)).flatten.mergeSort noOlder)
      (logs.flatten.mergeSort noOlder) := by
  induction logs with
  | nil => exact .inl rfl
  | cons log logs ih =>
    have hlog := hsorted log List.mem_cons_self
    have hrest := ih (fun l hl => hsorted l (List.mem_cons_of_mem _ hl))
      fun hyes l hl => hnodup hyes l (List.mem_cons_of_mem _ hl)
    have hfirst : AgreeUpTo deduplicate n (log.take n) log :=
      take fun hyes => hnodup hyes log List.mem_cons_self
    rw [List.map_cons, List.flatten_cons, List.flatten_cons,
      mergeSort_append (hlog.sublist (List.take_sublist n log)), mergeSort_append hlog]
    -- First this log is completed, then those behind it.
    exact (hfirst.merge_right _).trans (hrest.merge_left log)

end AgreeUpTo

/-- **Cutting the logs before they are merged loses nothing** of the entries that are kept. -/
theorem take_kept_mergeSort {deduplicate : Bool} {logs : List (List Entry)} (n : Nat)
    (hsorted : ∀ log ∈ logs, NewestFirst log)
    (hnodup : deduplicate = true → ∀ log ∈ logs, (log.map (·.command)).Nodup) :
    (kept deduplicate ((logs.map (List.take n)).flatten.mergeSort noOlder)).take n
      = (kept deduplicate (logs.flatten.mergeSort noOlder)).take n :=
  (AgreeUpTo.mergeSort hsorted hnodup).take_kept

end ShellAssist.History
