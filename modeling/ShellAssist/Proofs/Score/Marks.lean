import ShellAssist.Proofs.Score.Highlight
import ShellAssist.Proofs.Score.Matching
import ShellAssist.Proofs.Text.Folded

namespace ShellAssist

/-!
# The marks of a match

The spans of a match are those of the query's characters in the lower case of the text. They stand for the
same characters of the text itself as long as every one of these has a lower case of one character: a
dotted capital I puts all spans behind it one place too far.

* `Span.Spell` — spans of a text that hold the characters of a query;
* `Span.Spell.flatMap_lowerPlace`, `Span.Spell.lower_inside_iff` — such spans of the lower case of a text,
  in the text itself;
* `ReferenceScorer.spell_spans` — the spans of a match spell the query in the lower case of the text;
* `ReferenceScorer.pointsAt_iff` — and where they do in the text.
-/

namespace Span

variable {query text : List Char} {spans : List Span}

/-! ### Spans that spell a text -/

/-- Spans of a text, the runs of their places, at which it has the characters of a query. -/
structure Spell (query text : List Char) (spans : List Span) : Prop where
  ascending : (places spans).Pairwise (· < ·)
  map_places : (places spans).map (text[·]?) = query.map some
  eq_runs : spans = runs (places spans)

/-- Places that go up and hold the characters of the query spell it. -/
theorem spell_runs {ps : List Nat} (hsorted : ps.Pairwise (· < ·))
    (hmap : ps.map (text[·]?) = query.map some) : Spell query text (runs ps) where
  ascending := (places_runs ps).symm ▸ hsorted
  map_places := (places_runs ps).symm ▸ hmap
  eq_runs := by rw [places_runs]

/-- At each place stands its character of the query. -/
theorem Spell.getElem?_places (h : Spell query text spans) {j p : Nat}
    (hp : (places spans)[j]? = some p) : query[j]? = text[p]? := by
  have hj := congrArg (·[j]?) h.map_places
  simp only [List.getElem?_map, hp, Option.map_some] at hj
  cases hc : query[j]? with
  | none => rw [hc] at hj; cases hj
  | some c => rw [hc] at hj; exact (Option.some.inj hj).symm

/-- There is a place for each character. -/
theorem Spell.length_places (h : Spell query text spans) : (places spans).length = query.length := by
  simpa using congrArg List.length h.map_places

/-- All places are in the text. -/
theorem Spell.lt_length (h : Spell query text spans) {p : Nat} (hp : p ∈ places spans) :
    p < text.length := by
  have hmem : text[p]? ∈ query.map some := h.map_places ▸ List.mem_map_of_mem hp
  obtain ⟨c, -, hc⟩ := List.mem_map.mp hmem
  exact (List.getElem?_eq_some_iff.mp hc.symm).1

/-- Runs begin and end at places. -/
theorem Spell.mem_places (h : Spell query text spans) {s : Span} (hs : s ∈ spans) :
    ∃ first last : Nat, s = ⟨first, last + 1⟩ ∧ first ≤ last ∧ first ∈ places spans ∧
      last ∈ places spans := by
  rw [h.eq_runs] at hs
  exact exists_of_mem_runs hs

/-- Each span goes forward. -/
theorem Spell.forward (h : Spell query text spans) : ∀ s ∈ spans, 0 ≤ s.start ∧ s.start < s.stop := by
  intro s hs
  obtain ⟨first, last, rfl, hle, -⟩ := h.mem_places hs
  simp only
  omega

/-- Spans that spell a query mark it. -/
theorem Spell.marks (h : Spell query text spans) (hquery : query ≠ []) : Marks text spans where
  some := by
    rintro rfl
    exact hquery (List.map_eq_nil_iff.mp h.map_places.symm)
  within s hs := by
    obtain ⟨first, last, rfl, hle, -, hlast⟩ := h.mem_places hs
    have hlt := h.lt_length hlast
    simp only
    omega
  ascending := by
    rw [h.eq_runs]
    exact (runs_ascending h.ascending).imp fun hlt => Int.le_of_lt hlt

/-- What stands in spans that spell a query is the query. -/
theorem Spell.inside_eq (h : Spell query text spans) : inside text spans = query := by
  calc inside text spans
    _ = (places spans).filterMap (text[·]?) := inside_eq_filterMap h.forward
    _ = ((places spans).map (text[·]?)).filterMap id := by rw [List.filterMap_map]; rfl
    _ = query := by rw [h.map_places, List.filterMap_map]; exact List.filterMap_some

/-- A query that stands in one place of a text. -/
theorem spell_append (hquery : query ≠ []) (before after : List Char) :
    Spell query (before ++ query ++ after) [⟨before.length, before.length + query.length⟩] := by
  obtain ⟨count, hcount⟩ : ∃ count, query.length = count + 1 :=
    Nat.exists_eq_succ_of_ne_zero (List.length_pos_of_ne_nil hquery).ne'
  have hgap : ∀ p ∈ ([] : List Nat), before.length + count + 1 < p := nofun
  have hruns := runs_range'_append hgap
  rw [List.append_nil, ← hcount] at hruns
  -- The places of an occurrence follow one another, so they are one run.
  have hspan : [Span.mk before.length (before.length + query.length)]
      = runs (List.range' before.length query.length) := by
    rw [hruns, hcount]
    rfl
  rw [hspan]
  refine spell_runs List.pairwise_lt_range' (List.ext_getElem (by simp) fun i hi _ => ?_)
  have hlt : i < query.length := by simpa using hi
  rw [List.getElem_map, List.getElem_map, List.getElem_range', Nat.one_mul, List.append_assoc,
    List.getElem?_append_right (Nat.le_add_right _ _), Nat.add_sub_cancel_left,
    List.getElem?_append_left hlt, List.getElem?_eq_getElem hlt]

/-- The whole text is one span. -/
theorem places_all (text : List Char) : places [⟨0, text.length⟩] = List.range text.length := by
  simp [places, List.range_eq_range']

/-- All of a text is marked by one span. -/
theorem spell_all (htext : text ≠ []) : Spell text text [⟨0, text.length⟩] := by
  simpa using spell_append htext [] []

/-! ### Spans of the lower case of a text -/

/-- Among the marked characters a capital sigma ends a word just if it does in the text. -/
def SameSigmas (text : List Char) (spans : List Span) : Prop :=
  ∀ j p, (places spans)[j]? = some p → text[p]? = some Chars.capitalSigma →
    Chars.endsWord ((inside text spans).take j).reverse ((inside text spans).drop (j + 1))
      = Chars.endsWord (text.take p).reverse (text.drop (p + 1))

/-- In the whole text sigmas are the same. -/
theorem sameSigmas_all (htext : text ≠ []) : SameSigmas text [⟨0, text.length⟩] := by
  intro j p hp hsigma
  obtain rfl : p = j := by
    rw [places_all] at hp
    obtain ⟨hlt, hp⟩ := List.getElem?_eq_some_iff.mp hp
    simpa using hp.symm
  rw [(spell_all htext).inside_eq]

section Lower

variable (h : Spell query (Chars.lower text) spans)
  (hplain : ∀ s ∈ spans, Chars.dottedI ∉ text.take s.stop.toNat)

include h hplain

/-- A place in the lowered text holds what the place in the text is lowered to. -/
theorem Spell.lowerPlace_eq {p : Nat} (hp : p ∈ places spans) :
    Chars.lowerPlace text p = ((Chars.lower text)[p]?).toList := by
  obtain ⟨s, hs, hin⟩ := List.mem_flatMap.mp hp
  obtain ⟨first, last, rfl, hle, -⟩ := h.mem_places hs
  have hstop := hplain _ hs
  simp only [List.mem_range'_1] at hin hstop
  refine Chars.lowerPlace_eq fun hmem => hstop ?_
  exact List.take_subset_take_left text (by omega) hmem

/-- The lower case of what stands at the places is the query. -/
theorem Spell.flatMap_lowerPlace : (places spans).flatMap (Chars.lowerPlace text) = query := by
  calc (places spans).flatMap (Chars.lowerPlace text)
    _ = (places spans).flatMap fun p => ((Chars.lower text)[p]?).toList :=
      List.flatMap_congr fun p hp => h.lowerPlace_eq hplain hp
    _ = ((places spans).map ((Chars.lower text)[·]?)).flatMap Option.toList := by
      rw [List.flatMap_map]
    _ = query := by rw [h.map_places, List.flatMap_map]; exact List.flatMap_singleton' query

/-- The spans spell what they hold of the text. -/
theorem Spell.of_lower : Spell (inside text spans) text spans := by
  have hsome : ∀ p ∈ places spans, (text[p]?).isSome := by
    intro p hp
    have hlower := h.lowerPlace_eq hplain hp
    rw [List.getElem?_eq_getElem (h.lt_length hp)] at hlower
    cases hc : text[p]? with
    | none => rw [Chars.lowerPlace, hc] at hlower; cases hlower
    | some c => rfl
  refine ⟨h.ascending, ?_, h.eq_runs⟩
  rw [inside_eq_filterMap h.forward, List.map_filterMap_some_eq_filter_map_isSome,
    List.filter_eq_self.mpr]
  exact List.forall_mem_map.mpr hsome

/-- No dotted capital I is marked. -/
theorem Spell.dottedI_not_mem_inside : Chars.dottedI ∉ inside text spans := by
  rw [inside_eq_filterMap h.forward]
  intro hmem
  obtain ⟨p, hp, hc⟩ := List.mem_filterMap.mp hmem
  obtain ⟨s, hs, hin⟩ := List.mem_flatMap.mp hp
  obtain ⟨hlt, hc⟩ := List.getElem?_eq_some_iff.mp hc
  have hstop := (List.mem_range'_1.mp hin).2
  have hforward := h.forward s hs
  exact hplain s hs (List.mem_take_iff_getElem.mpr ⟨p, by omega, hc⟩)

/-- **The marked characters have the query for their lower case just if their sigmas have the same as
in the text.** -/
theorem Spell.lower_inside_iff : Chars.lower (inside text spans) = query ↔ SameSigmas text spans := by
  have hmarked := h.of_lower hplain
  have hnone := h.dottedI_not_mem_inside hplain
  have hlength := Chars.length_lower hnone
  have htoList {a b : Option Char} : a.toList = b.toList ↔ a = b := by
    cases a <;> cases b <;> simp
  -- Lowercasing the marked part differs from lowercasing the text only at a final sigma.
  have hplace {j p : Nat} (hp : (places spans)[j]? = some p) :
      (Chars.lower (inside text spans))[j]? = query[j]? ↔
        Chars.lowerPlace (inside text spans) j = Chars.lowerPlace text p := by
    rw [h.lowerPlace_eq hplain (List.mem_of_getElem? hp), ← h.getElem?_places hp,
      Chars.lowerPlace_eq fun hmem => hnone (List.mem_of_mem_take hmem), htoList]
  rw [List.ext_getElem?_iff, SameSigmas]
  refine forall_congr' fun j => ?_
  cases hp : (places spans)[j]? with
  | none =>
    have hle := List.getElem?_eq_none_iff.mp hp
    rw [List.getElem?_eq_none (by rwa [hlength, ← hmarked.length_places]),
      List.getElem?_eq_none (by rwa [← h.length_places])]
    exact iff_of_true rfl nofun
  | some p =>
    rw [hplace hp]
    have hlt := hmarked.lt_length (List.mem_of_getElem? hp)
    have htext : text[p]? = some text[p] := List.getElem?_eq_getElem hlt
    rw [Chars.lowerPlace_eq_iff ((hmarked.getElem?_places hp).trans htext) htext]
    constructor
    · rintro hsame p' hp' hsigma
      obtain rfl := Option.some.inj hp'
      exact hsame (Option.some.inj (htext.symm.trans hsigma))
    · exact fun hsame hsigma => hsame p rfl (hsigma ▸ htext)

end Lower

end Span

/-! ### Spans of a match -/

/-- A text that matches a query as an occurrence or in order, and so not as a typo. -/
def ReferenceScorer.Finds (σ : Type) [Scalar σ] (query text : List Char) : Prop :=
  Chars.lower query <:+: Chars.lower text ∨ (Chars.lower query).Sublist (Chars.lower text) ∧
    (Subsequence.score (Chars.lower query) (Chars.lower text) : ScoreResult σ).isMatch = true

/-- The spans of a match in order are the runs of the query's first places. -/
theorem Subsequence.spans_score {σ : Type} [Scalar σ] {query text : List Char}
    (h : query.Sublist text) :
    ∃ places, firstPlaces 0 query text = some places ∧
      (score query text : ScoreResult σ).spans = Span.runs places := by
  have hfound := (isSome_scan_iff none 0 none 0 (Scalar.ofNat 0 : σ) query text).mpr h
  have hspans := scan_spans none 0 none 0 (Scalar.ofNat 0 : σ) query text nofun
  rw [score]
  cases hscan : scan none 0 none 0 (Scalar.ofNat 0 : σ) query text with
  | none => rw [hscan] at hfound; cases hfound
  | some found =>
    rw [hscan] at hspans
    obtain ⟨places, hplaces, hruns⟩ := Option.map_eq_some_iff.mp hspans.symm
    exact ⟨places, hplaces, hruns.symm⟩

/-- The spans of a match in order mark the query. -/
theorem Subsequence.spell_spans {σ : Type} [Scalar σ] {query text : List Char}
    (h : query.Sublist text) :
    Span.Spell query text (score query text : ScoreResult σ).spans := by
  obtain ⟨places, hplaces, hspans⟩ := spans_score (σ := σ) h
  rw [hspans]
  exact Span.spell_runs (firstPlaces_ascending hplaces).1 (map_firstPlaces [] hplaces)

namespace ReferenceScorer

variable {σ : Type} [Scalar σ] {query text : List Char}

/-- The spans of a match that is the whole text. -/
theorem spans_score_of_eq (heq : Chars.lower query = Chars.lower text) :
    (score {} query text : ScoreResult σ).spans = [⟨0, text.length⟩] := by
  rw [score, foldCase_true, foldCase_true, if_pos heq]

/-- The span of a query that occurs in the lower case of the text, but not at its beginning. -/
theorem spans_score_of_occurs (hbegins : ¬Chars.lower query <+: Chars.lower text)
    (hoccurs : Chars.lower query <:+: Chars.lower text) :
    ∃ before after, Chars.lower text = before ++ Chars.lower query ++ after ∧
      (score {} query text : ScoreResult σ).spans
        = [⟨before.length, before.length + (Chars.lower query).length⟩] := by
  have hne : Chars.lower query ≠ Chars.lower text := fun heq => hbegins (heq ▸ List.prefix_refl _)
  obtain ⟨i, hindex⟩ := Option.isSome_iff_exists.mp (Chars.isSome_indexOf?_iff.mpr hoccurs)
  obtain ⟨before, after, htext, rfl⟩ := Chars.append_of_indexOf? hindex
  refine ⟨before, after, htext, ?_⟩
  rw [score, foldCase_true, foldCase_true, if_neg hne,
    if_neg (mt List.isPrefixOf_iff_prefix.mp hbegins), hindex]

/-- The spans of a match that is not the whole text mark the query in the lower case of the text. -/
theorem spell_spans (hquery : Chars.lower query ≠ []) (hne : Chars.lower query ≠ Chars.lower text)
    (h : Finds σ query text) :
    Span.Spell (Chars.lower query) (Chars.lower text)
      (score {} query text : ScoreResult σ).spans := by
  by_cases hbegins : Chars.lower query <+: Chars.lower text
  · rw [score, foldCase_true, foldCase_true, if_neg hne, if_pos (List.isPrefixOf_iff_prefix.mpr hbegins)]
    obtain ⟨rest, hrest⟩ := hbegins
    have hspell := Span.spell_append hquery [] rest
    rw [List.nil_append, hrest] at hspell
    simpa using hspell
  by_cases hoccurs : Chars.lower query <:+: Chars.lower text
  · obtain ⟨before, after, htext, hspans⟩ := spans_score_of_occurs (σ := σ) hbegins hoccurs
    rw [hspans, htext]
    exact Span.spell_append hquery before after
  · obtain ⟨hsub, hmatch⟩ := h.resolve_left hoccurs
    rw [score_of_not_occurs hoccurs, if_pos hmatch]
    exact Subsequence.spell_spans hsub

end ReferenceScorer

/-! ### Marks of a match -/

/-- Spans that mark characters of a text whose lower case, joined, is that of the query. -/
structure PointsAt (query text : List Char) (spans : List Span) : Prop extends
    Span.Marks text spans where
  lower_inside : Chars.lower (Span.inside text spans) = Chars.lower query

/-- A text that begins its own repetition is one character, repeated. -/
theorem eq_of_prefix_cons {c : Char} {text : List Char} (h : text <+: c :: text) :
    ∀ d ∈ text, d = c := by
  induction text generalizing c with
  | nil => exact nofun
  | cons d text ih =>
    obtain ⟨rfl, htext⟩ := List.cons_prefix_cons.mp h
    exact List.forall_mem_cons.mpr ⟨rfl, ih htext⟩

namespace ReferenceScorer

variable {σ : Type} [Scalar σ] {query text : List Char}

/-- In a text with a dotted capital I the last character that is found stands behind the text's end. -/
theorem exists_not_marks (h : Chars.dottedI ∈ text) : ∃ query, query ≠ [] ∧ Finds σ query text ∧
    ¬Span.Marks text (score {} query text : ScoreResult σ).spans := by
  have hlong : text.length < (Chars.lower text).length := by
    have hle := Chars.length_le_lower text
    have hcount := List.count_pos_iff.mpr h
    omega
  have htext := List.length_pos_of_mem h
  obtain ⟨c, query, hlower⟩ : ∃ c query, Chars.lower text = c :: query :=
    List.exists_cons_of_length_pos (by omega)
  have hlength : (Chars.lower text).length = query.length + 1 := by rw [hlower]; rfl
  -- The rest of a lower case text is its own lower case.
  have hquery : Chars.lower query = query := Chars.lower_eq_self fun d hd =>
    Chars.isLower_of_mem_lower (hlower ▸ List.mem_cons_of_mem c hd)
  have hsuffix : Chars.lower query <:+: Chars.lower text := by
    rw [hquery, hlower]
    exact (List.suffix_cons c query).isInfix
  -- It is no beginning, as its characters are not all the same.
  have hbegins : ¬Chars.lower query <+: Chars.lower text := by
    intro hbegins
    rw [hquery, hlower] at hbegins
    have hsame := eq_of_prefix_cons hbegins
    have hall : ∀ d ∈ Chars.lower text, d = c := hlower ▸ List.forall_mem_cons.mpr ⟨rfl, hsame⟩
    have hi := hall 'i' (Chars.mem_lower h (by decide) (by decide))
    have hdot := hall '\u0307' (Chars.mem_lower h (by decide) (by decide))
    exact absurd (hi.trans hdot.symm) (by decide)
  have hfinds : Finds σ query text := .inl hsuffix
  refine ⟨query, List.ne_nil_of_length_pos (by omega), hfinds, fun hmarks => ?_⟩
  obtain ⟨before, after, happend, hspans⟩ := spans_score_of_occurs (σ := σ) hbegins hsuffix
  have hbefore : 0 < before.length := by
    by_contra hnil
    obtain rfl := List.length_eq_zero_iff.mp (Nat.eq_zero_of_not_pos hnil)
    exact hbegins ⟨after, happend.symm⟩
  have hwithin := (hmarks.within _ (hspans ▸ List.mem_singleton_self _)).2.2
  simp only [hquery] at hwithin
  omega

/-- Without a dotted capital I up to their end the spans mark the text as they mark its lower case. -/
theorem marks_of_plain (hquery : query ≠ []) (hfinds : Finds σ query text)
    (hplain : Chars.lower query = Chars.lower text ∨
      ∀ s ∈ (score {} query text : ScoreResult σ).spans, Chars.dottedI ∉ text.take s.stop.toNat) :
    let spans := (score {} query text : ScoreResult σ).spans
    Span.Marks text spans ∧ (Span.places spans).flatMap (Chars.lowerPlace text) = Chars.lower query ∧
      (PointsAt query text spans ↔ Span.SameSigmas text spans) := by
  intro spans
  have hlower := Chars.lower_ne_nil hquery
  by_cases heq : Chars.lower query = Chars.lower text
  -- Equal texts are marked as a whole, whatever lowercasing does to their lengths.
  · have htext : text ≠ [] := by
      rintro rfl
      exact hlower heq
    have hspans : spans = [⟨0, text.length⟩] := spans_score_of_eq heq
    rw [hspans, Span.places_all, Chars.flatMap_lowerPlace, heq]
    have hspell := Span.spell_all htext
    have hmarks := hspell.marks htext
    exact ⟨hmarks, rfl, iff_of_true ⟨hmarks, by rw [hspell.inside_eq, heq]⟩ (Span.sameSigmas_all htext)⟩
  · have hplain := hplain.resolve_left heq
    have hspell := spell_spans hlower heq hfinds
    have hmarked := hspell.of_lower hplain
    have hmarks := hmarked.marks <| List.ne_nil_of_length_pos <| by
      rw [← hmarked.length_places, hspell.length_places]
      exact List.length_pos_of_ne_nil hlower
    have hiff := hspell.lower_inside_iff hplain
    exact ⟨hmarks, hspell.flatMap_lowerPlace hplain, fun h => hiff.mp h.lower_inside,
      fun h => ⟨hmarks, hiff.mpr h⟩⟩

/-- **Where the spans of a match point at the matched characters.** The spans of a match that is not the
whole text mark the query in the lower case of the text. Unless a dotted capital I comes before their end
they mark characters of the text as well, and marks are put around just these. Each with the lower case
that it has in the text they are the query; joined, they have the query for their lower case just if their
sigmas end a word where they do in the text. A text with a dotted capital I has a match whose spans go
beyond it. -/
theorem pointsAt_iff (σ : Type) [Scalar σ] (text : List Char) :
    (∀ query, query ≠ [] → Finds σ query text →
      let spans := (score {} query text : ScoreResult σ).spans
      (Chars.lower query ≠ Chars.lower text → Span.Marks (Chars.lower text) spans ∧
        Span.inside (Chars.lower text) spans = Chars.lower query) ∧
      ((Chars.lower query = Chars.lower text ∨ ∀ s ∈ spans, Chars.dottedI ∉ text.take s.stop.toNat) →
        Span.Marks text spans ∧
          (Span.places spans).flatMap (Chars.lowerPlace text) = Chars.lower query ∧
          (PointsAt query text spans ↔ Span.SameSigmas text spans) ∧
          ∀ opening closing, highlight text spans opening closing
            = (List.range (text.length + 1)).flatMap (markedAt text spans opening closing))) ∧
      ((∀ query, query ≠ [] → Finds σ query text →
        Span.Marks text (score {} query text : ScoreResult σ).spans) ↔ Chars.dottedI ∉ text) := by
  refine ⟨fun query hquery hfinds => ?_, ⟨fun h hmem => ?_, fun hnone query hquery hfinds => ?_⟩⟩
  · have hlower := Chars.lower_ne_nil hquery
    refine ⟨fun hne => ?_, fun hplain => ?_⟩
    · have hspell := spell_spans hlower hne hfinds
      exact ⟨hspell.marks hlower, hspell.inside_eq⟩
    · obtain ⟨hmarks, hplaces, hiff⟩ := marks_of_plain hquery hfinds hplain
      exact ⟨hmarks, hplaces, hiff, highlight_eq hmarks⟩
  · obtain ⟨query, hquery, hfinds, hnot⟩ := exists_not_marks (σ := σ) hmem
    exact hnot (h query hquery hfinds)
  · exact (marks_of_plain hquery hfinds
      (.inr fun s hs hmem => hnone (List.mem_of_mem_take hmem))).1

/-- A match in front of a dotted capital I, in doubles. -/
theorem pointsAt_before_dotted :
    PointsAt "GST".toList "Git Status İ".toList
      (score {} "GST".toList "Git Status İ".toList : ScoreResult Float).spans := by
  have hspans : (score {} "GST".toList "Git Status İ".toList : ScoreResult Float).spans
      = [⟨0, 1⟩, ⟨4, 6⟩] := by decide +kernel
  have hfinds : Finds Float "GST".toList "Git Status İ".toList :=
    .inr ⟨by decide +kernel, by decide +kernel⟩
  have hplain : ∀ s ∈ (score {} "GST".toList "Git Status İ".toList : ScoreResult Float).spans,
      Chars.dottedI ∉ "Git Status İ".toList.take s.stop.toNat := by
    rw [hspans]
    decide
  refine (((pointsAt_iff Float "Git Status İ".toList).1 _ (by decide) hfinds).2 (.inr hplain)).2.2.1.mpr ?_
  intro j p _ hsigma
  exact absurd (List.mem_of_getElem? hsigma) (by decide)

/-- Behind a dotted capital I the span of a word goes beyond the text. -/
theorem not_pointsAt_behind_dotted :
    Finds Float "bul".toList "İstanbul".toList ∧
      (score {} "bul".toList "İstanbul".toList : ScoreResult Float).spans = [⟨6, 9⟩] ∧
      ¬PointsAt "bul".toList "İstanbul".toList
        (score {} "bul".toList "İstanbul".toList : ScoreResult Float).spans := by
  have hspans : (score {} "bul".toList "İstanbul".toList : ScoreResult Float).spans
      = [⟨6, 9⟩] := by decide
  refine ⟨.inl (by decide), hspans, fun h => ?_⟩
  have hstop := (h.within ⟨6, 9⟩ (hspans ▸ List.mem_singleton_self _)).2.2
  exact absurd hstop (by decide)

/-- The last letter of a word is marked for a query with the final sigma, but is no final sigma by
itself. -/
theorem not_pointsAt_final_sigma :
    Finds Float "ς".toList "ΑΣ".toList ∧
      ¬PointsAt "ς".toList "ΑΣ".toList (score {} "ς".toList "ΑΣ".toList : ScoreResult Float).spans := by
  have hspans : (score {} "ς".toList "ΑΣ".toList : ScoreResult Float).spans = [⟨1, 2⟩] := by
    decide +kernel
  refine ⟨.inl (by decide +kernel), fun h => ?_⟩
  have hlower := h.lower_inside
  rw [hspans] at hlower
  exact absurd hlower (by decide)

end ReferenceScorer

end ShellAssist
