import ShellAssist.Proofs.Score.Doubles
import ShellAssist.Proofs.Score.Marks

namespace ShellAssist

/-!
# The leftmost embedding

A query stands in a text in order if its characters do at ascending places. A scan that takes each
character at the first place that is left finds such places if there are any, and none of them can be
further to the left.

* `Embeds` — places of a query's characters in a text;
* `Leftmost` — such places that are nowhere behind those of another embedding;
* `Subsequence.firstPlaces_le` — the exchange: the first places are in front of all others;
* `Subsequence.score_leftmost` — the scan is complete, and its spans are the leftmost embedding.
-/

/-- Places in a text, one behind the other, at which the characters of a query stand. -/
structure Embeds (query text : List Char) (places : List Nat) : Prop where
  ascending : places.Pairwise (· < ·)
  map_places : places.map (text[·]?) = query.map some

/-- Places of a query of which each is the smallest that it has in any embedding. -/
structure Leftmost (query text : List Char) (places : List Nat) : Prop extends
    Embeds query text places where
  le : ∀ others, Embeds query text others → List.Forall₂ (· ≤ ·) places others

namespace Embeds

variable {query text : List Char} {places : List Nat} {q : Char}

theorem eq_nil (h : Embeds [] text places) : places = [] :=
  List.map_eq_nil_iff.mp h.map_places

/-- The place of the first character is in front of those of the others, which are embedded as well. -/
theorem exists_cons (h : Embeds (q :: query) text places) :
    ∃ place rest, places = place :: rest ∧ text[place]? = some q ∧ (∀ p ∈ rest, place < p) ∧
      Embeds query text rest := by
  obtain ⟨hsorted, hmap⟩ := h
  cases places with
  | nil => cases hmap
  | cons place rest =>
    obtain ⟨hfirst, hrest⟩ := List.pairwise_cons.mp hsorted
    obtain ⟨hplace, hmap⟩ := List.cons.inj hmap
    exact ⟨place, rest, rfl, hplace, hfirst, hrest, hmap⟩

end Embeds

namespace Subsequence

variable {σ : Type} [Scalar σ] {query text : List Char}

/-- **The first places are in front of all others.** An embedding whose first place is not the one that
the scan takes has a later one, so that all its places are still left behind the scan's. -/
theorem firstPlaces_le (passed : List Char) {places others : List Nat}
    (h : firstPlaces passed.length query text = some places)
    (hothers : Embeds query (passed ++ text) others) (hleft : ∀ p ∈ others, passed.length ≤ p) :
    List.Forall₂ (· ≤ ·) places others := by
  induction text generalizing passed query places others with
  | nil =>
    cases query with
    | nil =>
      obtain rfl := Option.some.inj h
      obtain rfl := hothers.eq_nil
      exact List.Forall₂.nil
    | cons q query => cases h
  | cons t text ih =>
    have hpassed : passed ++ t :: text = (passed ++ [t]) ++ text := by
      rw [List.append_assoc, List.singleton_append]
    have hlength : (passed ++ [t]).length = passed.length + 1 := List.length_append
    cases query with
    | nil =>
      obtain rfl := Option.some.inj h
      obtain rfl := hothers.eq_nil
      exact List.Forall₂.nil
    | cons q query =>
      obtain ⟨place, rest, rfl, hplace, hbehind, hrest⟩ := hothers.exists_cons
      obtain ⟨hfirst, hlater⟩ := List.forall_mem_cons.mp hleft
      rw [firstPlaces] at h
      split at h
      · obtain ⟨later, hscan, rfl⟩ := Option.map_eq_some_iff.mp h
        refine List.Forall₂.cons hfirst (ih (passed ++ [t]) ?_ (hpassed ▸ hrest) fun p hp => ?_)
        · rw [hlength]
          exact hscan
        · have hlt := hbehind p hp
          omega
      · rename_i hne
        -- The character at hand is another one, so the embedding begins behind it.
        have hnext : passed.length ≠ place := by
          rintro rfl
          rw [List.getElem?_append_right (Nat.le_refl _), Nat.sub_self] at hplace
          exact hne (Option.some.inj hplace).symm
        refine ih (passed ++ [t]) ?_ (hpassed ▸ hothers) (List.forall_mem_cons.mpr ⟨?_, fun p hp => ?_⟩)
        · rw [hlength]
          exact h
        · omega
        · have hlt := hbehind p hp
          omega

theorem leftmost_firstPlaces {places : List Nat} (h : firstPlaces 0 query text = some places) :
    Leftmost query text places where
  ascending := (firstPlaces_ascending h).1
  map_places := map_firstPlaces [] h
  le _ hothers := firstPlaces_le [] h hothers fun p _ => p.zero_le

/-- **The scan is complete, and its spans are the leftmost embedding.** A text matches just if it has the
characters of the query in order, with exact scores, and in doubles if its length is a machine integer.
Its spans then are some, none of them is empty or goes beyond the text, and each begins behind a
character that stands in none. What stands in them is the query, and their places are the smallest that
its characters have in any embedding. Any other text has no spans. -/
theorem score_leftmost (σ : Type) [Scalar σ] (hquery : query ≠ []) (text : List Char) :
    let spans := (score query text : ScoreResult σ).spans
    ((score query text : ScoreResult Rat).isMatch = true ↔ query.Sublist text) ∧
      (text.length < 2 ^ 63 →
        ((score query text : ScoreResult Float).isMatch = true ↔ query.Sublist text)) ∧
      (query.Sublist text →
        Span.Marks text spans ∧ spans.Pairwise (fun a b => a.stop < b.start) ∧
          Span.inside text spans = query ∧ Leftmost query text (Span.places spans)) ∧
      (¬query.Sublist text → (score query text : ScoreResult σ) = .noMatch) := by
  intro spans
  refine ⟨isMatch_score_iff hquery, isMatch_score_float_iff hquery, fun h => ?_, score_of_not_sublist⟩
  have hspell : Span.Spell query text spans := spell_spans h
  refine ⟨hspell.marks hquery, ?_, hspell.inside_eq, ?_⟩
  · rw [hspell.eq_runs]
    exact Span.runs_ascending hspell.ascending
  · obtain ⟨places, hplaces, hspans⟩ := spans_score (σ := σ) h
    show Leftmost query text (Span.places (score query text : ScoreResult σ).spans)
    rw [hspans, Span.places_runs]
    exact leftmost_firstPlaces hplaces

/-- Of the places of a word that occurs later in one piece, the first ones are taken, in doubles. -/
theorem score_leftmost_apart :
    "ab".toList.Sublist "a cab".toList ∧
      (score "ab".toList "a cab".toList : ScoreResult Float).spans = [⟨0, 1⟩, ⟨4, 5⟩] ∧
      Leftmost "ab".toList "a cab".toList [0, 4] := by
  have hquery : "ab".toList ≠ [] := by decide
  have hsub : "ab".toList.Sublist "a cab".toList := by decide
  have hspans : (score "ab".toList "a cab".toList : ScoreResult Float).spans = [⟨0, 1⟩, ⟨4, 5⟩] := by
    decide
  have hleftmost := ((score_leftmost Float hquery "a cab".toList).2.2.1 hsub).2.2.2
  rw [hspans] at hleftmost
  exact ⟨hsub, hspans, hleftmost⟩

end Subsequence

end ShellAssist
