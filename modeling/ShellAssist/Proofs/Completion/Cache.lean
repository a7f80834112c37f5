import ShellAssist.Completion.Cache
import ShellAssist.Proofs.Number.Order

namespace ShellAssist.Completion

/-!
# A cache over a run

A run of a cache is any sequence of look-ups, puts and clearings, each at a clock reading of its own;
the clock may also go back. Seen from outside, the cache is a map from keys to answers with the times
at which they were put in: a put sets its key, a look-up drops its key if the answer is too old, and a
put of a new key into a full cache drops one of the answers that came in first.

* `Cache.held` — that map; `Cache.latest` — what a run put in last for a key;
* `Cache.Moment`, `Cache.after` — runs, with the cache behind them;
* `Cache.Bounded` — the invariant of a run; `Cache.latest_of_held` — what is held was put in last;
* `Cache.IsTimedMap`, `Cache.isTimedMap_after` — what holds of the cache behind every run.
-/

open Number (Double)

namespace Cache

variable {κ α τ : Type}

/-! ### The oldest answer -/

section Oldest

variable [LT τ] [DecidableLT τ] [IsStrictOrder τ (· < ·)]

/-- The oldest of some answers is one of them and none of them was put in before it. -/
theorem foldl_older (entries : List (κ × Cached α τ)) (first : κ × Cached α τ) :
    let oldest := entries.foldl
      (fun oldest e => if e.2.insertedAt < oldest.2.insertedAt then e else oldest) first
    oldest ∈ first :: entries ∧
      (oldest = first ∨ oldest.2.insertedAt < first.2.insertedAt) ∧
      ∀ e ∈ entries, ¬ e.2.insertedAt < oldest.2.insertedAt := by
  induction entries generalizing first with
  | nil => simp
  | cons e entries ih =>
    dsimp only
    rw [List.foldl_cons]
    -- Whichever of the first two is older stands for both of them from here on.
    by_cases holder : e.2.insertedAt < first.2.insertedAt
    · rw [if_pos holder]
      obtain ⟨hmem, hfirst, hleast⟩ := ih e
      refine ⟨List.mem_cons_of_mem _ hmem, .inr ?_, List.forall_mem_cons.mpr ⟨?_, hleast⟩⟩
      · rcases hfirst with heq | hlt
        · rw [heq]
          exact holder
        · exact trans_of (· < ·) hlt holder
      · rcases hfirst with heq | hlt
        · rw [heq]
          exact irrefl_of (· < ·) _
        · exact asymm_of (· < ·) hlt
    · rw [if_neg holder]
      obtain ⟨hmem, hfirst, hleast⟩ := ih first
      refine ⟨?_, hfirst, List.forall_mem_cons.mpr ⟨fun hlt => ?_, hleast⟩⟩
      · rcases List.mem_cons.mp hmem with heq | hmem
        · rw [heq]
          exact List.mem_cons_self
        · exact List.mem_cons_of_mem _ (List.mem_cons_of_mem _ hmem)
      · rcases hfirst with heq | hbefore
        · rw [heq] at hlt
          exact holder hlt
        · exact holder (trans_of (· < ·) hlt hbefore)

/-- The key that a full cache drops has an answer, and none was put in before that. -/
theorem exists_oldestKey {entries : List (κ × Cached α τ)} (h : entries ≠ []) :
    ∃ oldest ∈ entries, oldestKey entries = some oldest.1 ∧
      ∀ e ∈ entries, ¬ e.2.insertedAt < oldest.2.insertedAt := by
  obtain ⟨first, rest, rfl⟩ := List.exists_cons_of_ne_nil h
  obtain ⟨hmem, hfirst, hleast⟩ := foldl_older rest first
  refine ⟨_, hmem, rfl, List.forall_mem_cons.mpr ⟨?_, hleast⟩⟩
  rcases hfirst with heq | hlt
  · rw [heq]
    exact irrefl_of (· < ·) _
  · exact asymm_of (· < ·) hlt

end Oldest

/-! ### Entries by their keys -/

section Entries

variable [DecidableEq κ]

/-- The keys, in the order in which they came in. -/
def keys (c : Cache κ α τ) : List κ :=
  c.entries.map Prod.fst

/-- The answer held for a key and when it was put in, be it still good or not. -/
def held (c : Cache κ α τ) (key : κ) : Option (α × τ) :=
  (c.entries.lookup key).map fun e => (e.value, e.insertedAt)

/-- The first entry is looked at first. -/
theorem lookup_cons (e : κ × Cached α τ) (entries : List (κ × Cached α τ)) (k : κ) :
    (e :: entries).lookup k = if k = e.1 then some e.2 else entries.lookup k := by
  rw [List.lookup_cons]
  by_cases hk : k = e.1
  · simp [hk]
  · simp [beq_eq_false_iff_ne.mpr hk, hk]

/-- A key that is set has the new entry, and all others have theirs. -/
theorem lookup_set (key : κ) (entry : Cached α τ) (entries : List (κ × Cached α τ)) (k : κ) :
    (set key entry entries).lookup k = if k = key then some entry else entries.lookup k := by
  induction entries with
  | nil => exact lookup_cons (key, entry) [] k
  | cons e entries ih =>
    obtain ⟨k', e⟩ := e
    by_cases hkey : k' = key
    · by_cases hk : k = key <;> simp [set, lookup_cons, hkey, hk]
    · by_cases hk : k = k'
      · simp [set, hkey, hk]
      · simp [set, lookup_cons, hkey, hk, ih]

/-- A key that is erased is not found, and all others are. -/
theorem lookup_erase (key : κ) (entries : List (κ × Cached α τ)) (k : κ) :
    (erase key entries).lookup k = if k = key then none else entries.lookup k := by
  unfold erase
  induction entries with
  | nil => simp
  | cons e entries ih =>
    by_cases hkey : e.1 = key
    · rw [List.filter_cons_of_neg (by simp [hkey]), ih, lookup_cons, hkey]
      by_cases hk : k = key <;> simp [hk]
    · rw [List.filter_cons_of_pos (by simp [hkey]), lookup_cons, lookup_cons, ih]
      by_cases hk : k = e.1
      · simp [hk, hkey]
      · simp [hk]

/-- Just the keys of the list are found. -/
theorem isSome_lookup_iff (entries : List (κ × Cached α τ)) (key : κ) :
    (entries.lookup key).isSome = true ↔ key ∈ entries.map Prod.fst := by
  induction entries with
  | nil => simp
  | cons e entries ih =>
    rw [lookup_cons, List.map_cons, List.mem_cons]
    by_cases hk : key = e.1
    · simp [hk]
    · simp only [hk, if_false, ih, false_or]

/-- What is found is an entry of the list. -/
theorem mem_of_lookup {entries : List (κ × Cached α τ)} {key : κ} {entry : Cached α τ}
    (h : entries.lookup key = some entry) : (key, entry) ∈ entries := by
  induction entries with
  | nil => cases h
  | cons e entries ih =>
    rw [lookup_cons] at h
    split at h
    · rename_i hkey
      rw [hkey, ← Option.some.inj h]
      exact List.mem_cons_self
    · exact List.mem_cons_of_mem _ (ih h)

/-- A key at its only place is looked up there. -/
theorem lookup_of_mem {entries : List (κ × Cached α τ)} (h : (entries.map Prod.fst).Nodup)
    {e : κ × Cached α τ} (he : e ∈ entries) : entries.lookup e.1 = some e.2 := by
  induction entries with
  | nil => cases he
  | cons first entries ih =>
    rw [List.map_cons, List.nodup_cons] at h
    rw [lookup_cons]
    rcases List.mem_cons.mp he with rfl | he
    · rw [if_pos rfl]
    · have hne : e.1 ≠ first.1 := fun heq => h.1 (heq ▸ List.mem_map_of_mem he)
      rw [if_neg hne, ih h.2 he]

/-- Setting a key that is there keeps the keys; a new key comes last. -/
theorem map_fst_set (key : κ) (entry : Cached α τ) (entries : List (κ × Cached α τ)) :
    (set key entry entries).map Prod.fst
      = if key ∈ entries.map Prod.fst then entries.map Prod.fst
        else entries.map Prod.fst ++ [key] := by
  induction entries with
  | nil => simp [set]
  | cons e entries ih =>
    obtain ⟨k, e⟩ := e
    by_cases hk : k = key
    · simp [set, hk]
    · simp only [set, hk, if_false, List.map_cons, ih, List.mem_cons, Ne.symm hk, false_or]
      split <;> rfl

/-- Erasing takes one key away. -/
theorem map_fst_erase (key : κ) {entries : List (κ × Cached α τ)}
    (h : (entries.map Prod.fst).Nodup) :
    (erase key entries).map Prod.fst = (entries.map Prod.fst).erase key := by
  rw [h.erase_eq_filter, List.filter_map, erase]
  refine congrArg (List.map Prod.fst) (List.filter_congr fun e _ => ?_)
  rw [Bool.eq_iff_iff]
  simp

/-- The keys of a cache are those for which something is held. -/
theorem mem_keys_iff {c : Cache κ α τ} {key : κ} : key ∈ c.keys ↔ c.held key ≠ none := by
  rw [keys, ← isSome_lookup_iff, held, ne_eq, Option.map_eq_none_iff, Option.isSome_iff_ne_none]

end Entries

/-! ### Looking up and putting in -/

section Steps

variable [DecidableEq κ] [Sub τ] [LT τ] [DecidableLT τ]

/-- The answer held for a key and when it was put in, if it is still good. -/
def fresh (c : Cache κ α τ) (now : τ) (key : κ) : Option (α × τ) :=
  (c.held key).filter fun e => now - e.2 < c.ttl

/-- What is fresh is held, and not for too long. -/
theorem fresh_eq_some_iff {c : Cache κ α τ} {now : τ} {key : κ} {e : α × τ} :
    c.fresh now key = some e ↔ c.held key = some e ∧ now - e.2 < c.ttl := by
  rw [fresh, Option.filter_eq_some_iff, decide_eq_true_iff]

/-- A look-up gives what is held and still good. -/
theorem get_fst (c : Cache κ α τ) (now : τ) (key : κ) :
    (c.get now key).1 = (c.fresh now key).map Prod.fst := by
  unfold get fresh held
  cases c.entries.lookup key with
  | none => rfl
  | some entry =>
    by_cases hfresh : now - entry.insertedAt < c.ttl
    · simp [isFresh, hfresh]
    · simp [isFresh, hfresh]

/-- A look-up gives nothing just if nothing good is held. -/
theorem get_eq_none_iff {c : Cache κ α τ} {now : τ} {key : κ} :
    (c.get now key).1 = none ↔
      ∀ value time, c.held key = some (value, time) → ¬ now - time < c.ttl := by
  rw [get_fst, Option.map_eq_none_iff, fresh, Option.filter_eq_none_iff]
  simp

/-- A look-up keeps what it gives, drops what is no longer good and leaves every other key alone. -/
theorem held_get (c : Cache κ α τ) (now : τ) (key k : κ) :
    (c.get now key).2.held k = if k = key then c.fresh now key else c.held k := by
  unfold get fresh held
  cases hentry : c.entries.lookup key with
  | none =>
    by_cases hk : k = key
    · simp [hk, hentry]
    · simp [hk]
  | some entry =>
    by_cases hfresh : now - entry.insertedAt < c.ttl
    · by_cases hk : k = key <;> simp [isFresh, hfresh, lookup_set, hk, Option.filter_some]
    · by_cases hk : k = key <;> simp [isFresh, hfresh, lookup_erase, hk, Option.filter_some]

/-- Looking a key up adds none. -/
theorem keys_get_sublist (c : Cache κ α τ) (now : τ) (key : κ) :
    (c.get now key).2.keys.Sublist c.keys := by
  unfold get keys
  cases hentry : c.entries.lookup key with
  | none => exact List.Sublist.refl _
  | some entry =>
    have hkey : key ∈ c.entries.map Prod.fst := by
      rw [← isSome_lookup_iff, hentry]
      rfl
    dsimp only
    split
    · show (List.map Prod.fst (set _ _ _)).Sublist _
      rw [map_fst_set, if_pos hkey]
    · exact List.filter_sublist.map Prod.fst

omit [Sub τ] in
/-- A put of a key that is held, or into a cache with room, only sets its key. -/
theorem put_of_room {c : Cache κ α τ} {key : κ}
    (h : key ∈ c.keys ∨ (c.keys.length : Int) < c.maxSize) (now : τ) (value : α) :
    c.put now key value = { c with entries := set key { value, insertedAt := now } c.entries } := by
  have hroom : ((c.entries.lookup key).isNone && decide (c.maxSize ≤ c.entries.length)) = false := by
    rw [keys, List.length_map, ← isSome_lookup_iff] at h
    rw [Bool.and_eq_false_iff, Option.isNone_eq_false_iff, decide_eq_false_iff_not, not_le]
    exact h
  unfold put
  simp only [hroom, Bool.false_eq_true, if_false]

omit [Sub τ] in
/-- Where there is room a new key is put behind the others. -/
theorem keys_put_of_room {c : Cache κ α τ} {key : κ}
    (h : key ∈ c.keys ∨ (c.keys.length : Int) < c.maxSize) (now : τ) (value : α) :
    (c.put now key value).keys = if key ∈ c.keys then c.keys else c.keys ++ [key] := by
  rw [put_of_room h]
  exact map_fst_set _ _ _

omit [Sub τ] in
/-- And no other key is touched. -/
theorem held_put_of_room {c : Cache κ α τ} {key : κ}
    (h : key ∈ c.keys ∨ (c.keys.length : Int) < c.maxSize) (now : τ) (value : α) (k : κ) :
    (c.put now key value).held k = if k = key then some (value, now) else c.held k := by
  rw [put_of_room h, held, lookup_set]
  split <;> rfl

omit [Sub τ] in
/-- A put of a new key into a full cache drops an answer that none was put in before. -/
theorem put_of_full [IsStrictOrder τ (· < ·)] {c : Cache κ α τ} {key : κ}
    (hmaxSize : 1 ≤ c.maxSize) (hkey : key ∉ c.keys) (hfull : c.maxSize ≤ c.keys.length) (now : τ)
    (value : α) :
    ∃ oldest ∈ c.entries, (∀ e ∈ c.entries, ¬ e.2.insertedAt < oldest.2.insertedAt) ∧
      c.put now key value = { c with
        entries := set key { value, insertedAt := now } (erase oldest.1 c.entries) } := by
  have hsome : c.entries ≠ [] := by
    intro hnil
    rw [keys, hnil] at hfull
    exact not_lt.mpr (le_trans hmaxSize hfull) zero_lt_one
  obtain ⟨oldest, hmem, holdest, hleast⟩ := exists_oldestKey hsome
  refine ⟨oldest, hmem, hleast, ?_⟩
  have hnew : (c.entries.lookup key).isNone = true := by
    rw [keys, ← isSome_lookup_iff, Bool.not_eq_true, Option.isSome_eq_false_iff] at hkey
    exact hkey
  rw [keys, List.length_map] at hfull
  unfold put
  simp only [hnew, hfull, decide_true, Bool.and_self, if_true, evictOldest, holdest]

omit [Sub τ] in
/-- Where there is none, one key goes whose entry is as old as any. -/
theorem held_put_of_full [IsStrictOrder τ (· < ·)] {c : Cache κ α τ} {key : κ}
    (hmaxSize : 1 ≤ c.maxSize) (hkey : key ∉ c.keys) (hfull : c.maxSize ≤ c.keys.length) (now : τ)
    (value : α) :
    ∃ oldest ∈ c.entries, (∀ e ∈ c.entries, ¬ e.2.insertedAt < oldest.2.insertedAt) ∧
      ∀ k, (c.put now key value).held k
        = if k = key then some (value, now) else if k = oldest.1 then none else c.held k := by
  obtain ⟨oldest, hmem, hleast, hput⟩ := put_of_full hmaxSize hkey hfull now value
  refine ⟨oldest, hmem, hleast, fun k => ?_⟩
  rw [hput, held, lookup_set, lookup_erase]
  split
  · rfl
  · split <;> rfl

omit [Sub τ] in
/-- A put gives its key the new answer. -/
theorem held_put_self [IsStrictOrder τ (· < ·)] {c : Cache κ α τ} (hmaxSize : 1 ≤ c.maxSize) (now : τ)
    (key : κ) (value : α) : (c.put now key value).held key = some (value, now) := by
  by_cases hroom : key ∈ c.keys ∨ (c.keys.length : Int) < c.maxSize
  · rw [held_put_of_room hroom, if_pos rfl]
  · obtain ⟨hkey, hfull⟩ := not_or.mp hroom
    obtain ⟨oldest, -, -, hheld⟩ := held_put_of_full hmaxSize hkey (not_lt.mp hfull) now value
    rw [hheld, if_pos rfl]

omit [Sub τ] in
/-- A put gives its key the new answer and no other key one that it did not have. -/
theorem held_put [IsStrictOrder τ (· < ·)] {c : Cache κ α τ} (hmaxSize : 1 ≤ c.maxSize) {now : τ}
    {key : κ} {value : α} {k : κ} {e : α × τ} (h : (c.put now key value).held k = some e) :
    if k = key then e = (value, now) else c.held k = some e := by
  by_cases hk : k = key
  · subst hk
    rw [if_pos rfl]
    rw [held_put_self hmaxSize] at h
    exact (Option.some.inj h).symm
  · rw [if_neg hk]
    -- A put into a full cache may lose the key asked about, which is no answer at all.
    by_cases hroom : key ∈ c.keys ∨ (c.keys.length : Int) < c.maxSize
    · rwa [held_put_of_room hroom, if_neg hk] at h
    · obtain ⟨hkey, hfull⟩ := not_or.mp hroom
      obtain ⟨oldest, -, -, hheld⟩ := held_put_of_full hmaxSize hkey (not_lt.mp hfull) now value
      rw [hheld, if_neg hk] at h
      split at h
      · cases h
      · exact h

end Steps

/-! ### Runs -/

/-- An operation on a cache. -/
inductive Act (κ α : Type) where
  | get (key : κ)
  | put (key : κ) (value : α)
  | clear

/-- An operation with the clock reading at which it is done. -/
structure Moment (κ α τ : Type) where
  act : Act κ α
  now : τ

/-- Whether this puts in an answer for a key. -/
def Moment.Puts (m : Moment κ α τ) (key : κ) : Prop :=
  ∃ value, m.act = .put key value

section Runs

variable [DecidableEq κ]

/-- What a run put in last for a key since it was cleared, and when. The latest moment of a run stands
first. -/
def latest (key : κ) : List (Moment κ α τ) → Option (α × τ)
  | [] => none
  | ⟨.get _, _⟩ :: past => latest key past
  | ⟨.put k value, now⟩ :: past => if key = k then some (value, now) else latest key past
  | ⟨.clear, _⟩ :: _ => none

variable [Sub τ] [LT τ] [DecidableLT τ]

/-- The cache behind an operation. -/
def step (c : Cache κ α τ) : Moment κ α τ → Cache κ α τ
  | ⟨.get key, now⟩ => (c.get now key).2
  | ⟨.put key value, now⟩ => c.put now key value
  | ⟨.clear, _⟩ => c.clear

/-- The cache behind a run. -/
def after (c : Cache κ α τ) : List (Moment κ α τ) → Cache κ α τ
  | [] => c
  | m :: past => (c.after past).step m

/-- No key is held twice, and no more keys than there is room for. -/
structure Bounded (c : Cache κ α τ) : Prop where
  nodup : c.keys.Nodup
  length_le : (c.keys.length : Int) ≤ c.maxSize

variable {c : Cache κ α τ}

/-- A step leaves the settings of a cache as they are. -/
theorem step_settings (c : Cache κ α τ) (m : Moment κ α τ) :
    (c.step m).ttl = c.ttl ∧ (c.step m).maxSize = c.maxSize := by
  obtain ⟨act, now⟩ := m
  cases act with
  | get key =>
    dsimp only [step, get]
    split
    · exact ⟨rfl, rfl⟩
    · split <;> exact ⟨rfl, rfl⟩
  | put key value =>
    dsimp only [step, put, evictOldest]
    split
    · split <;> exact ⟨rfl, rfl⟩
    · exact ⟨rfl, rfl⟩
  | clear => exact ⟨rfl, rfl⟩

/-- So do many. -/
theorem after_settings (c : Cache κ α τ) (past : List (Moment κ α τ)) :
    (c.after past).ttl = c.ttl ∧ (c.after past).maxSize = c.maxSize := by
  induction past with
  | nil => exact ⟨rfl, rfl⟩
  | cons m past ih =>
    obtain ⟨httl, hmaxSize⟩ := (c.after past).step_settings m
    exact ⟨httl.trans ih.1, hmaxSize.trans ih.2⟩

/-- A bounded cache stays one behind a put. -/
theorem Bounded.put [IsStrictOrder τ (· < ·)] (h : Bounded c) (hmaxSize : 1 ≤ c.maxSize) (now : τ)
    (key : κ) (value : α) : Bounded (c.put now key value) := by
  have hmax := (c.step_settings ⟨.put key value, now⟩).2
  dsimp only [step] at hmax
  by_cases hroom : key ∈ c.keys ∨ (c.keys.length : Int) < c.maxSize
  · by_cases hkey : key ∈ c.keys
    · refine ⟨?_, ?_⟩ <;> rw [keys_put_of_room hroom, if_pos hkey]
      · exact h.nodup
      · rw [hmax]
        exact h.length_le
    · have hlt := hroom.resolve_left hkey
      refine ⟨?_, ?_⟩ <;> rw [keys_put_of_room hroom, if_neg hkey]
      · exact h.nodup.append (List.nodup_singleton _) (List.disjoint_singleton.mpr hkey)
      · rw [List.length_append, List.length_singleton, hmax]
        omega
  · -- One key is dropped, so that there is room for the new one.
    obtain ⟨hkey, hfull⟩ := not_or.mp hroom
    obtain ⟨oldest, hmem, -, hput⟩ := put_of_full hmaxSize hkey (not_lt.mp hfull) now value
    have hmem : oldest.1 ∈ c.keys := List.mem_map_of_mem hmem
    have hkeys : (c.put now key value).keys = c.keys.erase oldest.1 ++ [key] := by
      have hrest : (erase oldest.1 c.entries).map Prod.fst = c.keys.erase oldest.1 :=
        map_fst_erase _ h.nodup
      rw [hput, keys, map_fst_set, hrest, if_neg fun hin => hkey (List.mem_of_mem_erase hin)]
    refine ⟨?_, ?_⟩ <;> rw [hkeys]
    · refine (h.nodup.erase _).append (List.nodup_singleton _) (List.disjoint_singleton.mpr ?_)
      exact fun hin => hkey (List.mem_of_mem_erase hin)
    · have hlength := List.length_erase_of_mem hmem
      have hpositive := List.length_pos_of_mem hmem
      have hle := h.length_le
      rw [List.length_append, List.length_singleton, hmax]
      omega

/-- It stays one behind any step. -/
theorem Bounded.step [IsStrictOrder τ (· < ·)] (h : Bounded c) (hmaxSize : 1 ≤ c.maxSize)
    (m : Moment κ α τ) : Bounded (c.step m) := by
  obtain ⟨act, now⟩ := m
  cases act with
  | get key =>
    have hsublist := c.keys_get_sublist now key
    have hmax := (c.step_settings ⟨.get key, now⟩).2
    refine ⟨hsublist.nodup h.nodup, ?_⟩
    rw [hmax]
    exact le_trans (Int.ofNat_le.mpr hsublist.length_le) h.length_le
  | put key value => exact h.put hmaxSize now key value
  | clear => exact ⟨List.nodup_nil, le_trans zero_le_one hmaxSize⟩

/-- The cache behind every run keeps to its bound. -/
theorem bounded_after [IsStrictOrder τ (· < ·)] (h : Bounded c) (hmaxSize : 1 ≤ c.maxSize)
    (past : List (Moment κ α τ)) : Bounded (c.after past) := by
  induction past with
  | nil => exact h
  | cons m past ih =>
    refine ih.step ?_ m
    rw [(c.after_settings past).2]
    exact hmaxSize

omit [Sub τ] in
/-- With every key held once, what a full cache drops can be said without its entries. -/
theorem Bounded.held_put_of_full [IsStrictOrder τ (· < ·)] (h : Bounded c) (hmaxSize : 1 ≤ c.maxSize)
    {key : κ} (hkey : key ∉ c.keys) (hfull : c.maxSize ≤ c.keys.length) (now : τ) (value : α) :
    ∃ oldest answer time, c.held oldest = some (answer, time) ∧
      (∀ k e, c.held k = some e → ¬ e.2 < time) ∧
      ∀ k, (c.put now key value).held k
        = if k = key then some (value, now) else if k = oldest then none else c.held k := by
  obtain ⟨oldest, hmem, hleast, hheld⟩ := Cache.held_put_of_full hmaxSize hkey hfull now value
  refine ⟨oldest.1, oldest.2.value, oldest.2.insertedAt, ?_, fun k e he => ?_, hheld⟩
  · rw [held, lookup_of_mem h.nodup hmem]
    rfl
  · obtain ⟨entry, hentry, rfl⟩ := Option.map_eq_some_iff.mp he
    exact hleast _ (mem_of_lookup hentry)

/-- What is held for a key is what was put in last for it. -/
theorem latest_of_held [IsStrictOrder τ (· < ·)] (hempty : c.entries = []) (hmaxSize : 1 ≤ c.maxSize)
    {past : List (Moment κ α τ)} {key : κ} {e : α × τ} (h : (c.after past).held key = some e) :
    latest key past = some e := by
  -- A get can only drop the key and a put of another key can only push it out, so what is held is
  -- always what was put last.
  induction past generalizing e with
  | nil =>
    rw [after, held, hempty] at h
    cases h
  | cons m past ih =>
    obtain ⟨act, now⟩ := m
    cases act with
    | get k =>
      rw [after, step, held_get] at h
      split at h
      · rename_i hk
        exact ih (hk ▸ (fresh_eq_some_iff.mp h).1)
      · exact ih h
    | put k value =>
      have hput := held_put (by rwa [(c.after_settings past).2]) h
      rw [latest]
      split at hput
      · rename_i hk
        rw [if_pos hk, hput]
      · rename_i hk
        rw [if_neg hk]
        exact ih hput
    | clear => cases h

/-- A key that is not held is not held before it is put in again. -/
theorem held_after_eq_none [IsStrictOrder τ (· < ·)] (hmaxSize : 1 ≤ c.maxSize)
    {later : List (Moment κ α τ)} {key : κ} (h : c.held key = none)
    (hputs : ∀ m ∈ later, ¬ m.Puts key) : (c.after later).held key = none := by
  -- Only a put of the key itself brings it back.
  induction later with
  | nil => exact h
  | cons m later ih =>
    obtain ⟨hm, hlater⟩ := List.forall_mem_cons.mp hputs
    have ih := ih hlater
    obtain ⟨act, now⟩ := m
    cases act with
    | get k =>
      rw [after, step, held_get, fresh]
      split
      · rename_i hk
        rw [← hk, ih]
        rfl
      · exact ih
    | put k value =>
      have hk : key ≠ k := fun hk => hm ⟨value, by rw [hk]⟩
      -- What another key's put leaves was held before it.
      by_contra hheld
      obtain ⟨e, he⟩ := Option.ne_none_iff_exists'.mp hheld
      have hput := held_put (by rwa [(c.after_settings later).2]) he
      rw [if_neg hk, ih] at hput
      cases hput
    | clear => rfl

end Runs

/-! ### A timed map -/

section TimedMap

variable [DecidableEq κ]

/-- The cache behind a run that started with an empty one. -/
def afterRun (ttl : Double) (maxSize : Int) (past : List (Moment κ α Double)) : Cache κ α Double :=
  after { ttl, maxSize } past

/-- What holds of a cache behind a run, seen as a map from keys to answers with the times at which
they were put in. -/
structure IsTimedMap (ttl : Double) (maxSize : Int) (past : List (Moment κ α Double)) : Prop where
  /-- No key is held twice. -/
  nodup : (afterRun ttl maxSize past).keys.Nodup
  /-- No more keys are held than there is room for. -/
  length_le : ((afterRun ttl maxSize past).keys.length : Int) ≤ maxSize
  /-- A look-up gives nothing, or what was put in last for the key since the last clearing, and that
  only while it is good. -/
  gives_latest : ∀ now key value, ((afterRun ttl maxSize past).get now key).1 = some value →
    ∃ time, latest key past = some (value, time) ∧ now - time < ttl
  /-- What has just been put in is given at the same reading of the clock, if that is finite and
  anything is ever good; else it is not. -/
  gives_put : ∀ now key value,
    (((afterRun ttl maxSize past).put now key value).get now key).1
      = if now.IsFinite ∧ 0 < ttl then some value else none
  /-- A put of a key that is held, or of any key while there is room, changes no other key. -/
  put_keeps : ∀ now key value,
    key ∈ (afterRun ttl maxSize past).keys ∨
      ((afterRun ttl maxSize past).keys.length : Int) ≠ maxSize →
    ∀ k, ((afterRun ttl maxSize past).put now key value).held k
      = if k = key then some (value, now) else (afterRun ttl maxSize past).held k
  /-- A put of a new key into a full cache drops exactly one key, and no answer held was put in before
  its answer. -/
  put_drops : ∀ now key value, key ∉ (afterRun ttl maxSize past).keys →
    ((afterRun ttl maxSize past).keys.length : Int) = maxSize →
    ∃ oldest answer time, (afterRun ttl maxSize past).held oldest = some (answer, time) ∧
      (∀ k e, (afterRun ttl maxSize past).held k = some e → ¬ e.2 < time) ∧
      ∀ k, ((afterRun ttl maxSize past).put now key value).held k
        = if k = key then some (value, now) else if k = oldest then none
          else (afterRun ttl maxSize past).held k
  /-- A look-up keeps an answer that is good and drops one that is not; it changes no other key. -/
  get_keeps : ∀ now key k, ((afterRun ttl maxSize past).get now key).2.held k
    = if k = key then ((afterRun ttl maxSize past).held key).filter fun e => now - e.2 < ttl
      else (afterRun ttl maxSize past).held k
  /-- A key for which nothing was found is absent until it is put in again. -/
  stays_absent : ∀ now key, ((afterRun ttl maxSize past).get now key).1 = none →
    ∀ later : List (Moment κ α Double), (∀ m ∈ later, ¬ m.Puts key) →
      key ∉ (afterRun ttl maxSize (later ++ ⟨.get key, now⟩ :: past)).keys

/-- Steps may be made in two parts. -/
theorem after_append (c : Cache κ α Double) (later past : List (Moment κ α Double)) :
    c.after (later ++ past) = (c.after past).after later := by
  induction later with
  | nil => rfl
  | cons m later ih => rw [List.cons_append, after, ih, after]

/-- The cache behind every run is a timed map. -/
theorem isTimedMap_after {ttl : Double} {maxSize : Int} (hmaxSize : 1 ≤ maxSize)
    (past : List (Moment κ α Double)) : IsTimedMap ttl maxSize past := by
  have hbounded : (afterRun ttl maxSize past).Bounded :=
    bounded_after (c := { ttl, maxSize }) ⟨List.nodup_nil, le_trans zero_le_one hmaxSize⟩ hmaxSize past
  obtain ⟨httl, hmax⟩ : (afterRun ttl maxSize past).ttl = ttl ∧
      (afterRun ttl maxSize past).maxSize = maxSize := after_settings _ past
  have hroom : 1 ≤ (afterRun ttl maxSize past).maxSize := le_of_le_of_eq hmaxSize hmax.symm
  have hlength : ((afterRun ttl maxSize past).keys.length : Int) ≤ maxSize :=
    le_of_le_of_eq hbounded.length_le hmax
  refine ⟨hbounded.nodup, hlength, ?_, ?_, ?_, ?_, ?_, ?_⟩
  · intro now key value h
    rw [get_fst, Option.map_eq_some_iff] at h
    obtain ⟨⟨_, time⟩, hfresh, rfl⟩ := h
    obtain ⟨hheld, hgood⟩ := fresh_eq_some_iff.mp hfresh
    rw [httl] at hgood
    exact ⟨time, latest_of_held rfl hmaxSize hheld, hgood⟩
  · intro now key value
    have hput : ((afterRun ttl maxSize past).put now key value).ttl = ttl :=
      ((afterRun ttl maxSize past).step_settings ⟨.put key value, now⟩).1.trans httl
    rw [get_fst, fresh, held_put_self hroom, Option.filter_some, hput]
    simp only [decide_eq_true_eq, Double.sub_self_lt_iff]
    split <;> rfl
  · intro now key value h k
    refine held_put_of_room (h.imp_right fun hne => ?_) now value k
    omega
  · intro now key value hkey hfull
    exact hbounded.held_put_of_full hroom hkey (by omega) now value
  · intro now key k
    rw [held_get, fresh, httl]
  -- An expired look-up has deleted the entry, and only another put could bring the key back.
  · intro now key h later hputs
    rw [get_fst, Option.map_eq_none_iff] at h
    have habsent : ((afterRun ttl maxSize past).get now key).2.held key = none := by
      rw [held_get, if_pos rfl, h]
    have hbehind : 1 ≤ ((afterRun ttl maxSize past).get now key).2.maxSize :=
      le_of_le_of_eq hroom ((afterRun ttl maxSize past).step_settings ⟨.get key, now⟩).2.symm
    rw [mem_keys_iff, not_not, afterRun, after_append]
    exact held_after_eq_none hbehind habsent hputs

end TimedMap

end Cache

end ShellAssist.Completion
