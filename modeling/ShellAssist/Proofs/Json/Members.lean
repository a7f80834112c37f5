import ShellAssist.Json.Basic
import Mathlib.Data.List.Nodup
import Mathlib.Logic.Function.Basic

namespace ShellAssist.Members

/-!
# Members by their names

A list of pairs holds members: a name that is set keeps its place, and a new one is put behind.

* `get?_set`, `filter_set` — what setting a name changes;
* `ofList_of_nodup`, `ofList_spec` — the members that are kept of a list of pairs;
* `map_ofList` — the same members under other names.
-/

variable {κ ν : Type} [DecidableEq κ]

/-! ### One name -/

/-- A name that is set has the new value, and all others have theirs. -/
theorem get?_set (name : κ) (value : ν) (members : List (κ × ν)) (other : κ) :
    get? (set name value members) other = if other = name then some value else get? members other := by
  induction members with
  | nil =>
    rw [set, get?, List.lookup_cons]
    by_cases h : other = name
    · rw [if_pos h, beq_iff_eq.mpr h]
    · rw [if_neg h, beq_eq_false_iff_ne.mpr h]
      rfl
  | cons m members ih =>
    rw [get?] at ih ⊢
    rw [set]
    -- The first member of the name is replaced where it stands.
    by_cases hname : m.1 = name
    · rw [if_pos hname, List.lookup_cons]
      by_cases h : other = name
      · rw [if_pos h, beq_iff_eq.mpr (h.trans hname.symm)]
      · rw [if_neg h, beq_eq_false_iff_ne.mpr (fun h' => h (h'.trans hname)), get?, List.lookup_cons,
          beq_eq_false_iff_ne.mpr (fun h' => h (h'.trans hname))]
    · rw [if_neg hname, List.lookup_cons, get?, List.lookup_cons]
      by_cases h : other = m.1
      · rw [beq_iff_eq.mpr h, if_neg fun h' => hname (h ▸ h')]
      · rw [beq_eq_false_iff_ne.mpr h]
        exact ih

/-- A member that is left out anyway may be set. -/
theorem filter_set {p : κ → Bool} {name : κ} (h : p name = false) (value : ν)
    (members : List (κ × ν)) :
    (set name value members).filter (fun m => p m.1) = members.filter fun m => p m.1 := by
  induction members with
  | nil => rw [set, List.filter_cons_of_neg (by simp [h])]
  | cons m members ih =>
    rw [set]
    split
    · rename_i hname
      rw [List.filter_cons_of_neg (by simp [hname, h]), List.filter_cons_of_neg (by simp [hname, h])]
    · rw [List.filter_cons, List.filter_cons, ih]

/-- A new name is put behind. -/
theorem set_of_not_mem {name : κ} (value : ν) {members : List (κ × ν)}
    (h : name ∉ members.map Prod.fst) : set name value members = members ++ [(name, value)] := by
  induction members with
  | nil => rfl
  | cons p members ih =>
    rw [List.map_cons, List.mem_cons, not_or] at h
    have hne : p.1 ≠ name := fun heq => h.1 heq.symm
    simp only [set, hne, if_false, ih h.2, List.cons_append]

/-- Setting a name adds no other one. -/
theorem map_fst_set (name : κ) (value : ν) (members : List (κ × ν)) :
    (set name value members).map Prod.fst
      = if name ∈ members.map Prod.fst then members.map Prod.fst
        else members.map Prod.fst ++ [name] := by
  induction members with
  | nil => rfl
  | cons p members ih =>
    obtain ⟨n, v⟩ := p
    by_cases hn : n = name
    · simp [set, hn]
    · have hn' : ¬ name = n := fun h => hn h.symm
      simp only [set, hn, if_false, List.map_cons, ih, List.mem_cons, hn', false_or]
      split <;> rfl

/-- A member of the new list is an old one, or the one that was set. -/
theorem mem_set {name : κ} {value : ν} {members : List (κ × ν)} {p : κ × ν}
    (h : p ∈ set name value members) : p ∈ members ∨ p = (name, value) := by
  induction members with
  | nil => exact .inr (by simpa [set] using h)
  | cons q members ih =>
    obtain ⟨n, v⟩ := q
    by_cases hn : n = name
    · simp only [set, hn, if_true, List.mem_cons] at h ⊢
      rcases h with rfl | h
      · exact .inr rfl
      · exact .inl (.inr h)
    · simp only [set, hn, if_false, List.mem_cons] at h ⊢
      rcases h with rfl | h
      · exact .inl (.inl rfl)
      · exact (ih h).imp_left .inr

/-- No name is held twice after one is set. -/
theorem nodup_set {members : List (κ × ν)} (h : (members.map Prod.fst).Nodup) (name : κ)
    (value : ν) : ((set name value members).map Prod.fst).Nodup := by
  rw [map_fst_set]
  split
  · exact h
  · rename_i hnew
    rw [List.nodup_append]
    refine ⟨h, by simp, fun a ha b hb => ?_⟩
    rw [List.mem_singleton] at hb
    exact fun heq => hnew (hb ▸ heq ▸ ha)

/-! ### A list of pairs -/

/-- Members that hold each name once are kept as they are. -/
theorem ofList_of_nodup {pairs : List (κ × ν)} (h : (pairs.map Prod.fst).Nodup) :
    ofList pairs = pairs := by
  -- Each pair is put behind those before it, as its name is not among them.
  have hfold (members : List (κ × ν)) (hall : ((members ++ pairs).map Prod.fst).Nodup) :
      pairs.foldl (fun ms p => set p.1 p.2 ms) members = members ++ pairs := by
    clear h
    induction pairs generalizing members with
    | nil => simp
    | cons p pairs ih =>
      have hfresh : p.1 ∉ members.map Prod.fst := by
        intro hmem
        rw [List.map_append, List.map_cons, List.nodup_append] at hall
        exact hall.2.2 p.1 hmem p.1 List.mem_cons_self rfl
      have happend : members ++ [p] ++ pairs = members ++ p :: pairs := by simp
      rw [List.foldl_cons, set_of_not_mem p.2 hfresh, ih _ (by rw [happend]; exact hall), happend]
  exact hfold [] (by rw [List.nil_append]; exact h)

/-- However members are written, each name is held once, with a value that was written. -/
theorem ofList_spec (pairs : List (κ × ν)) :
    ((ofList pairs).map Prod.fst).Nodup ∧ ∀ p ∈ ofList pairs, p ∈ pairs := by
  -- A pair replaces the value of its name or is put behind; neither repeats a name.
  have hfold (members : List (κ × ν)) (hnodup : (members.map Prod.fst).Nodup) :
      ((pairs.foldl (fun ms p => set p.1 p.2 ms) members).map Prod.fst).Nodup ∧
        ∀ p ∈ pairs.foldl (fun ms p => set p.1 p.2 ms) members, p ∈ members ∨ p ∈ pairs := by
    induction pairs generalizing members with
    | nil => exact ⟨hnodup, fun p hp => .inl hp⟩
    | cons q pairs ih =>
      obtain ⟨hrest, hmem⟩ := ih _ (nodup_set hnodup q.1 q.2)
      refine ⟨hrest, fun p hp => ?_⟩
      rcases hmem p hp with h | h
      · rcases mem_set h with h | h
        · exact .inl h
        · exact .inr (h ▸ List.mem_cons_self)
      · exact .inr (List.mem_cons_of_mem _ h)
  obtain ⟨hnodup, hmem⟩ := hfold [] List.nodup_nil
  exact ⟨hnodup, fun p hp => (hmem p hp).resolve_left (by simp)⟩

/-! ### Other names -/

section Map

variable {κ' ν' : Type} [DecidableEq κ'] {f : κ → κ'} (hf : Function.Injective f) (g : ν → ν')

include hf

/-- A name may be set before or after all names are changed, if they stay different. -/
theorem map_set (name : κ) (value : ν) (members : List (κ × ν)) :
    (set name value members).map (Prod.map f g)
      = set (f name) (g value) (members.map (Prod.map f g)) := by
  induction members with
  | nil => rfl
  | cons p members ih =>
    rw [set, List.map_cons, set, Prod.map_fst, Prod.map_snd]
    by_cases hname : p.1 = name
    · rw [if_pos hname, if_pos (congrArg f hname)]
      rfl
    · rw [if_neg hname, if_neg (mt (@hf _ _) hname), List.map_cons, ih]
      rfl

/-- The members that are kept do not depend on what the names are, if they stay different. -/
theorem map_ofList (pairs : List (κ × ν)) :
    (ofList pairs).map (Prod.map f g) = ofList (pairs.map (Prod.map f g)) := by
  have hfold (members : List (κ × ν)) :
      (pairs.foldl (fun ms p => set p.1 p.2 ms) members).map (Prod.map f g)
        = (pairs.map (Prod.map f g)).foldl (fun ms p => set p.1 p.2 ms)
            (members.map (Prod.map f g)) := by
    induction pairs generalizing members with
    | nil => rfl
    | cons p pairs ih =>
      rw [List.foldl_cons, ih, map_set hf g, List.map_cons, List.foldl_cons]
      rfl
  exact hfold []

end Map

end ShellAssist.Members
