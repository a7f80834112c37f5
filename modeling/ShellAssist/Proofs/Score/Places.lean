import ShellAssist.Score.Subsequence
import Mathlib.Data.List.Basic
import Mathlib.Data.Nat.Basic

namespace ShellAssist

/-!
# The places of a match

A scan of a text for the characters of a query finds their places, each the first that is left, and puts
them together to spans as it goes. Places that follow one another are a span, and other spans do not
touch it.

* `Subsequence.firstPlaces` — the places of a query's characters;
* `Span.runs`, `Span.places` — places as spans, and back;
* `Subsequence.scan_spans` — the spans of a scan are the runs of the places;
* `Subsequence.map_firstPlaces` — what stands at the places is the query.
-/

namespace Span

/-! ### Places in runs -/

/-- Ascending places as spans, each of places that follow one another. -/
def runs : List Nat → List Span
  | [] => []
  | place :: rest =>
    match runs rest with
    | [] => [⟨place, place + 1⟩]
    | next :: more =>
      if next.start = place + 1 then ⟨place, next.stop⟩ :: more
      else ⟨place, place + 1⟩ :: next :: more

/-- The places in spans. -/
def places (spans : List Span) : List Nat :=
  spans.flatMap fun s => List.range' s.start.toNat (s.stop - s.start).toNat

/-- A place is one more of the first run behind it, or a run of its own. -/
theorem runs_cons_cases (place : Nat) (rest : List Nat) :
    (∃ stop more, runs rest = ⟨place + 1, stop⟩ :: more ∧ runs (place :: rest) = ⟨place, stop⟩ :: more) ∨
      runs (place :: rest) = ⟨place, place + 1⟩ :: runs rest ∧
        ∀ next ∈ (runs rest).head?, next.start ≠ place + 1 := by
  rw [runs]
  cases hruns : runs rest with
  | nil => exact .inr ⟨rfl, nofun⟩
  | cons next more =>
    obtain ⟨start, stop⟩ := next
    by_cases hnext : start = place + 1
    · subst hnext
      exact .inl ⟨stop, more, rfl, if_pos rfl⟩
    · refine .inr ⟨if_neg hnext, fun next' hnext' => ?_⟩
      obtain rfl := Option.some.inj hnext'
      exact hnext

/-- Runs go from one of the places to another one. -/
theorem exists_of_mem_runs {ps : List Nat} {s : Span} (h : s ∈ runs ps) :
    ∃ first last : Nat, s = ⟨first, last + 1⟩ ∧ first ≤ last ∧ first ∈ ps ∧ last ∈ ps := by
  induction ps generalizing s with
  | nil => exact absurd h List.not_mem_nil
  | cons place rest ih =>
    have hlater {s : Span} (h : s ∈ runs rest) : ∃ first last : Nat, s = ⟨first, last + 1⟩ ∧
        first ≤ last ∧ first ∈ place :: rest ∧ last ∈ place :: rest := by
      obtain ⟨first, last, hs, hle, hfirst, hlast⟩ := ih h
      exact ⟨first, last, hs, hle, List.mem_cons_of_mem _ hfirst, List.mem_cons_of_mem _ hlast⟩
    -- Either the place lengthens the first run behind it or it is a run of its own.
    rcases runs_cons_cases place rest with ⟨stop, more, hruns, hlonger⟩ | ⟨hown, hgap⟩
    · rw [hruns] at hlater
      rw [hlonger] at h
      rcases List.mem_cons.mp h with rfl | h
      · obtain ⟨first, last, heq, hle, -, hlast⟩ := hlater List.mem_cons_self
        obtain ⟨hstart, rfl⟩ := Span.mk.inj heq
        exact ⟨place, last, rfl, by omega, List.mem_cons_self, hlast⟩
      · exact hlater (List.mem_cons_of_mem _ h)
    · rw [hown] at h
      rcases List.mem_cons.mp h with rfl | h
      · exact ⟨place, place, rfl, le_rfl, List.mem_cons_self, List.mem_cons_self⟩
      · exact hlater h

/-- **Runs hold the places that they are made of**, in their order. -/
theorem places_runs (ps : List Nat) : places (runs ps) = ps := by
  induction ps with
  | nil => rfl
  | cons place rest ih =>
    rcases runs_cons_cases place rest with ⟨stop, more, hruns, hlonger⟩ | ⟨hown, hgap⟩
    -- The first run begins one place later, so putting the place in front lengthens it by one.
    · obtain ⟨first, last, heq, hle, -⟩ := exists_of_mem_runs (hruns ▸ List.mem_cons_self)
      obtain ⟨hstart, rfl⟩ := Span.mk.inj heq
      rw [hruns, places, List.flatMap_cons] at ih
      rw [hlonger, places, List.flatMap_cons, ← ih]
      have hlength : ((last : Int) + 1 - place).toNat = ((last : Int) + 1 - (place + 1)).toNat + 1 := by
        omega
      show List.range' (place : Int).toNat ((last : Int) + 1 - place).toNat ++ _ = _
      rw [hlength, List.range'_succ]
      rfl
    · rw [hown, places, List.flatMap_cons]
      show List.range' (place : Int).toNat ((place : Int) + 1 - place).toNat ++ places (runs rest) = _
      have hone : ((place : Int) + 1 - place).toNat = 1 := by omega
      rw [ih, hone]
      rfl

/-- Runs of ascending places do not touch one another. -/
theorem runs_ascending {ps : List Nat} (h : ps.Pairwise (· < ·)) :
    (runs ps).Pairwise fun a b => a.stop < b.start := by
  induction ps with
  | nil => exact List.Pairwise.nil
  | cons place rest ih =>
    obtain ⟨hfirst, hrest⟩ := List.pairwise_cons.mp h
    have hsorted := ih hrest
    rcases runs_cons_cases place rest with ⟨stop, more, hruns, hlonger⟩ | ⟨hown, hgap⟩
    · rw [hruns, List.pairwise_cons] at hsorted
      rw [hlonger, List.pairwise_cons]
      exact hsorted
    · rw [hown, List.pairwise_cons]
      refine ⟨fun s hs => ?_, hsorted⟩
      have hbehind {s : Span} (hs : s ∈ runs rest) : (place : Int) < s.start ∧ s.start < s.stop := by
        obtain ⟨first, last, rfl, hle, hmem, -⟩ := exists_of_mem_runs hs
        have hlt := hfirst first hmem
        simp only
        omega
      cases hruns : runs rest with
      | nil => exact absurd (hruns ▸ hs) List.not_mem_nil
      | cons next more =>
        rw [hruns] at hs hgap hbehind hsorted
        have hnext := hbehind List.mem_cons_self
        have hne := hgap next rfl
        -- The first run behind the gap is the nearest one.
        rcases List.mem_cons.mp hs with rfl | hs
        · simp only
          omega
        · have hlater := (List.pairwise_cons.mp hsorted).1 s hs
          simp only
          omega

/-- Places that follow one another are a run of their own in front of a gap. -/
theorem runs_range'_append {start count : Nat} {rest : List Nat}
    (h : ∀ p ∈ rest, start + count + 1 < p) :
    runs (List.range' start (count + 1) ++ rest) = ⟨start, start + count + 1⟩ :: runs rest := by
  -- The run is built from its end, and the gap behind it keeps it from growing further.
  induction count generalizing start with
  | zero =>
    rcases runs_cons_cases start rest with ⟨stop, more, hruns, -⟩ | ⟨hown, -⟩
    · obtain ⟨first, last, heq, -, hmem, -⟩ := exists_of_mem_runs (hruns ▸ List.mem_cons_self)
      have hfirst : (start : Int) + 1 = first := congrArg Span.start heq
      have hlt := h first hmem
      omega
    · exact hown
  | succ count ih =>
    have hgap : ∀ p ∈ rest, start + 1 + count + 1 < p := by
      intro p hp
      have hlt := h p hp
      omega
    have hrest := ih hgap
    rw [List.range'_succ, List.cons_append]
    rcases runs_cons_cases start (List.range' (start + 1) (count + 1) ++ rest) with
      ⟨stop, more, hruns, hlonger⟩ | ⟨-, hfar⟩
    · obtain ⟨heq, rfl⟩ := List.cons.inj (hrest.symm.trans hruns)
      obtain ⟨-, rfl⟩ := Span.mk.inj heq
      rw [hlonger]
      congr 2
      push_cast
      omega
    · exact absurd rfl (hfar _ (by rw [hrest]; rfl))

end Span

namespace Subsequence

variable {σ : Type} [Scalar σ]

/-! ### The places of a query -/

/-- The places in a text of a query's characters, each the first that is left; `position` is that of the
text's first character. -/
def firstPlaces (position : Nat) : (query text : List Char) → Option (List Nat)
  | [], _ => some []
  | _ :: _, [] => none
  | q :: query, t :: text =>
    if q = t then (firstPlaces (position + 1) query text).map (position :: ·)
    else firstPlaces (position + 1) (q :: query) text

section FirstPlaces

variable {position : Nat} {query text : List Char} {places : List Nat}

theorem firstPlaces_ascending (h : firstPlaces position query text = some places) :
    places.Pairwise (· < ·) ∧ ∀ p ∈ places, position ≤ p := by
  -- With the position general: what is found later is found further to the right.
  induction text generalizing position query places with
  | nil =>
    cases query with
    | nil =>
      obtain rfl := Option.some.inj h
      exact ⟨List.Pairwise.nil, nofun⟩
    | cons q query => cases h
  | cons t text ih =>
    cases query with
    | nil =>
      obtain rfl := Option.some.inj h
      exact ⟨List.Pairwise.nil, nofun⟩
    | cons q query =>
      rw [firstPlaces] at h
      split at h
      · obtain ⟨later, hlater, rfl⟩ := Option.map_eq_some_iff.mp h
        obtain ⟨hsorted, hmin⟩ := ih hlater
        refine ⟨List.pairwise_cons.mpr ⟨hmin, hsorted⟩, List.forall_mem_cons.mpr ⟨le_rfl, ?_⟩⟩
        exact fun p hp => Nat.le_of_lt (hmin p hp)
      · obtain ⟨hsorted, hmin⟩ := ih h
        exact ⟨hsorted, fun p hp => Nat.le_of_lt (hmin p hp)⟩

/-- **What stands at the places is the query.** -/
theorem map_firstPlaces (passed : List Char)
    (h : firstPlaces passed.length query text = some places) :
    places.map ((passed ++ text)[·]?) = query.map some := by
  induction text generalizing passed query places with
  | nil =>
    cases query with
    | nil =>
      obtain rfl := Option.some.inj h
      rfl
    | cons q query => cases h
  | cons t text ih =>
    -- The character passed joins the ones before, so the places count from the same start.
    have hnext {query : List Char} {places : List Nat}
        (h : firstPlaces (passed.length + 1) query text = some places) :
        places.map ((passed ++ t :: text)[·]?) = query.map some := by
      have hih := ih (passed ++ [t]) (by rwa [List.length_append, List.length_singleton])
      rwa [List.append_assoc, List.singleton_append] at hih
    cases query with
    | nil =>
      obtain rfl := Option.some.inj h
      rfl
    | cons q query =>
      rw [firstPlaces] at h
      split at h
      · rename_i heq
        obtain ⟨later, hlater, rfl⟩ := Option.map_eq_some_iff.mp h
        rw [List.map_cons, List.map_cons, hnext hlater, heq,
          List.getElem?_append_right (Nat.le_refl _), Nat.sub_self]
        rfl
      · exact hnext h

end FirstPlaces

/-- The places of an unfinished run. -/
def openPlaces (opened : Option Nat) (position : Nat) : List Nat :=
  opened.elim [] fun start => List.range' start (position - start)

theorem openPlaces_next {opened : Option Nat} {position : Nat}
    (hopened : ∀ start ∈ opened, start < position) :
    openPlaces (some (opened.getD position)) (position + 1) = openPlaces opened position ++ [position] := by
  cases opened with
  | none => simp [openPlaces]
  | some start =>
    have hlt := hopened start rfl
    have hlength : position + 1 - start = (position - start) + 1 := by omega
    have hlast : start + (position - start) = position := by omega
    show List.range' start (position + 1 - start) = List.range' start (position - start) ++ [position]
    rw [hlength, List.range'_concat, Nat.one_mul, hlast]

/-- In front of a gap an unfinished run is a span. -/
theorem runs_openPlaces_append {opened : Option Nat} {position : Nat} {places : List Nat}
    (hopened : ∀ start ∈ opened, start < position) (hgap : ∀ p ∈ places, position < p) :
    Span.runs (openPlaces opened position ++ places)
      = (opened.map fun start : Nat => Span.mk start position).toList ++ Span.runs places := by
  cases opened with
  | none => rfl
  | some start =>
    have hlt := hopened start rfl
    obtain ⟨count, rfl⟩ : ∃ count, position = start + count + 1 := ⟨position - start - 1, by omega⟩
    have hlength : start + count + 1 - start = count + 1 := by omega
    show Span.runs (List.range' start (start + count + 1 - start) ++ places) = _
    rw [hlength, Span.runs_range'_append hgap]
    rfl

theorem runs_openPlaces {opened : Option Nat} {position : Nat}
    (hopened : ∀ start ∈ opened, start < position) :
    Span.runs (openPlaces opened position ++ [])
      = (opened.map fun start : Nat => Span.mk start position).toList := by
  rw [runs_openPlaces_append hopened fun p hp => absurd hp List.not_mem_nil]
  exact List.append_nil _

/-- **The spans of a scan are the runs of the places that it finds**, behind those of the run that it
began with. -/
theorem scan_spans (previous : Option Char) (position : Nat) (opened : Option Nat) (run : Nat)
    (total : σ) (query text : List Char) (hopened : ∀ start ∈ opened, start < position) :
    (scan previous position opened run total query text).map (·.2)
      = (firstPlaces position query text).map fun places =>
          Span.runs (openPlaces opened position ++ places) := by
  induction text generalizing previous position opened run total query with
  | nil =>
    cases query with
    | nil => exact congrArg some (runs_openPlaces hopened).symm
    | cons q query => rfl
  | cons t text ih =>
    cases query with
    | nil => exact congrArg some (runs_openPlaces hopened).symm
    | cons q query =>
      rw [scan, firstPlaces]
      by_cases heq : q = t
      · have hnext : ∀ start ∈ some (opened.getD position), start < position + 1 := by
          intro start hstart
          obtain rfl := Option.some.inj hstart
          cases opened with
          | none => exact position.lt_succ_self
          | some start => exact Nat.lt_succ_of_lt (hopened start rfl)
        rw [if_pos heq, if_pos heq, ih _ _ _ _ _ _ hnext, openPlaces_next hopened, Option.map_map]
        exact congrFun (congrArg Option.map (funext fun places => by simp)) _
      · -- The run ends here, and a later one begins behind this place.
        rw [if_neg heq, if_neg heq, Option.map_map]
        have hlater := ih (some t) (position + 1) none 0 total (q :: query) nofun
        cases hscan : scan (some t) (position + 1) none 0 total (q :: query) text with
        | none =>
          rw [hscan] at hlater
          rw [Option.map_eq_none_iff.mp hlater.symm]
          rfl
        | some found =>
          rw [hscan] at hlater
          obtain ⟨places, hplaces, hspans⟩ := Option.map_eq_some_iff.mp hlater.symm
          rw [hplaces, Option.map_some, Option.map_some, runs_openPlaces_append hopened
            (firstPlaces_ascending hplaces).2]
          obtain ⟨sum, spans⟩ := found
          obtain rfl : Span.runs places = spans := hspans
          cases opened <;> rfl

end Subsequence

end ShellAssist
