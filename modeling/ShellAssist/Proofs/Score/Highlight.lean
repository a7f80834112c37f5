import ShellAssist.Proofs.Score.Places
import Mathlib.Data.List.Basic

namespace ShellAssist

/-!
# Marked text

A text is marked by spans of it that stand one behind the other. A mark is put in front of the first
character of each and another one behind its last character.

* `Span.Marks` — spans that mark characters of a text;
* `Span.inside_eq_filterMap` — which characters these are;
* `highlight_eq` — marks are put where spans begin and end, and nothing else is changed.
-/

/-! ### Spans of a text -/

theorem Slice.between_eq {α : Type} (xs : List α) {start stop : Int} (hstart : 0 ≤ start)
    (hle : start ≤ stop) : between xs start stop = (xs.take stop.toNat).drop start.toNat := by
  rw [between, position, position, if_neg (by omega), if_neg (by omega), List.take_eq_take_iff.mpr
    (by omega : min (min stop.toNat xs.length) xs.length = min stop.toNat xs.length)]
  by_cases h : start.toNat ≤ xs.length
  · rw [Nat.min_eq_left h]
  · rw [List.drop_eq_nil_of_le, List.drop_eq_nil_of_le]
    · rw [List.length_take]
      omega
    · rw [List.length_take]
      omega

namespace Span

/-- The characters of a text that stand in spans, joined. -/
def inside (text : List Char) (spans : List Span) : List Char :=
  spans.flatMap fun s => Slice.between text s.start s.stop

/-- Spans that mark characters of a text: there are some, none is empty or goes beyond the text, and
they stand one behind the other. -/
structure Marks (text : List Char) (spans : List Span) : Prop where
  some : spans ≠ []
  within : ∀ s ∈ spans, 0 ≤ s.start ∧ s.start < s.stop ∧ s.stop ≤ text.length
  ascending : spans.Pairwise fun a b => a.stop ≤ b.start

variable {text : List Char} {spans : List Span}

theorem filterMap_range' (text : List Char) (start count : Nat) :
    (List.range' start count).filterMap (text[·]?) = (text.drop start).take count := by
  induction count generalizing start with
  | zero => rfl
  | succ count ih =>
    rw [List.range'_succ]
    by_cases h : start < text.length
    · rw [List.filterMap_cons_some (List.getElem?_eq_getElem h), ih, List.drop_eq_getElem_cons h,
        List.take_succ_cons]
    · rw [List.filterMap_cons_none (List.getElem?_eq_none (not_lt.mp h)), ih,
        List.drop_eq_nil_of_le (by omega), List.drop_eq_nil_of_le (by omega), List.take_nil,
        List.take_nil]

/-- What stands in spans is what stands at their places. -/
theorem inside_eq_filterMap (h : ∀ s ∈ spans, 0 ≤ s.start ∧ s.start < s.stop) :
    inside text spans = (places spans).filterMap (text[·]?) := by
  induction spans with
  | nil => rfl
  | cons s spans ih =>
    obtain ⟨⟨hstart, hlt⟩, hspans⟩ := List.forall_mem_cons.mp h
    have hlength : s.stop.toNat - s.start.toNat = (s.stop - s.start).toNat := by omega
    rw [inside, List.flatMap_cons, ← inside, places, List.flatMap_cons, ← places,
      List.filterMap_append, ← ih hspans, filterMap_range', Slice.between_eq text hstart (Int.le_of_lt hlt),
      List.drop_take, hlength]

end Span

/-! ### Marked text -/

section Highlight

variable {text opening closing : List Char} {spans : List Span}

/-- What stands at a place of a marked text: a mark for the end of a span, one for the beginning of a
span, and the character. -/
def markedAt (text : List Char) (spans : List Span) (opening closing : List Char) (i : Nat) : List Char :=
  (if ∃ s ∈ spans, s.stop = i then closing else []) ++
    ((if ∃ s ∈ spans, s.start = i then opening else []) ++ (text[i]?).toList)

/-- Where no span begins or ends, the text is copied. -/
theorem flatMap_markedAt_range' {start count : Nat}
    (h : ∀ s ∈ spans, ∀ i : Nat, start ≤ i → i < start + count → s.start ≠ i ∧ s.stop ≠ i) :
    (List.range' start count).flatMap (markedAt text spans opening closing)
      = (text.drop start).take count := by
  rw [← Span.filterMap_range', List.filterMap_eq_flatMap_toList]
  refine List.flatMap_congr fun i hi => ?_
  obtain ⟨hstart, hcount⟩ := List.mem_range'_1.mp hi
  rw [markedAt, if_neg fun ⟨s, hs, hstop⟩ => (h s hs i hstart hcount).2 hstop,
    if_neg fun ⟨s, hs, hbegin⟩ => (h s hs i hstart hcount).1 hbegin]
  rfl

theorem range'_append_range' {start middle stop : Nat} (hmiddle : start ≤ middle) (hstop : middle ≤ stop) :
    List.range' start (middle - start) ++ List.range' middle (stop - middle)
      = List.range' start (stop - start) := by
  obtain ⟨m, rfl⟩ := Nat.exists_eq_add_of_le hmiddle
  obtain ⟨n, rfl⟩ := Nat.exists_eq_add_of_le hstop
  rw [Nat.add_sub_cancel_left, Nat.add_sub_cancel_left, Nat.add_assoc, Nat.add_sub_cancel_left,
    List.range'_append_1]

section Cons

variable {first last : Nat} (hspans : ∀ s ∈ spans, (last : Int) ≤ s.start ∧ s.start < s.stop)

include hspans

/-- Up to the end of the first span its beginning is the one mark. -/
theorem flatMap_markedAt_first {position : Nat} (hposition : position ≤ first) (hlt : first < last) :
    (List.range' position (last - position)).flatMap (markedAt text (⟨first, last⟩ :: spans) opening closing)
      = (text.take first).drop position ++ (opening ++ (text.take last).drop first) := by
  have hsplit : List.range' position (last - position)
      = List.range' position (first - position) ++ first :: List.range' (first + 1) (last - first - 1) := by
    rw [← List.range'_succ, ← range'_append_range' hposition (Nat.le_of_lt hlt)]
    congr 2
    omega
  -- No other span begins or ends here.
  have hcopied {i : Nat} (hi : i < last) (hne : i ≠ first) :
      ∀ s ∈ (⟨first, last⟩ : Span) :: spans, s.start ≠ i ∧ s.stop ≠ i := by
    refine List.forall_mem_cons.mpr ⟨?_, fun s hs => ?_⟩
    · simp only
      omega
    · have := hspans s hs
      omega
  have hopening : markedAt text (⟨first, last⟩ :: spans) opening closing first
      = opening ++ (text[first]?).toList := by
    have hends : (last : Int) ≠ first := by omega
    have hnone : ¬∃ s ∈ spans, s.stop = first := by
      rintro ⟨s, hs, heq⟩
      have := hspans s hs
      omega
    simp only [markedAt, List.exists_mem_cons_iff, hends, hnone, true_or, false_or, if_true, if_false,
      List.nil_append]
  have hfirst : (text[first]?).toList ++ (text.drop (first + 1)).take (last - first - 1)
      = (text.drop first).take (last - first) := by
    rw [← Span.filterMap_range', ← Span.filterMap_range', (by omega : last - first = last - first - 1 + 1),
      List.range'_succ, List.filterMap_eq_flatMap_toList, List.filterMap_eq_flatMap_toList,
      List.flatMap_cons, Nat.add_sub_cancel]
  rw [hsplit, List.flatMap_append, List.flatMap_cons, hopening,
    flatMap_markedAt_range' fun s hs i hi hlt' => hcopied (by omega) (by omega) s hs,
    flatMap_markedAt_range' fun s hs i hi hlt' => hcopied (by omega) (by omega) s hs,
    List.drop_take, List.drop_take, List.append_assoc, hfirst]

/-- From the end of the first span on that end is the one mark that it adds. -/
theorem flatMap_markedAt_last {count : Nat} (hlt : first < last) :
    (List.range' last (count + 1)).flatMap (markedAt text (⟨first, last⟩ :: spans) opening closing)
      = closing ++ (List.range' last (count + 1)).flatMap (markedAt text spans opening closing) := by
  -- At the end of the first span its mark is set and no later span begins there.
  have hends : markedAt text (⟨first, last⟩ :: spans) opening closing last
      = closing ++ markedAt text spans opening closing last := by
    have hbegins : (first : Int) ≠ last := by omega
    have hnone : ¬∃ s ∈ spans, s.stop = last := by
      rintro ⟨s, hs, heq⟩
      have := hspans s hs
      omega
    simp only [markedAt, List.exists_mem_cons_iff, hbegins, hnone, true_or, false_or, if_true, if_false,
      List.nil_append]
  have hlater : ∀ i ∈ List.range' (last + 1) count,
      markedAt text (⟨first, last⟩ :: spans) opening closing i = markedAt text spans opening closing i := by
    intro i hi
    obtain ⟨hlast, -⟩ := List.mem_range'_1.mp hi
    have hbegins : (first : Int) ≠ i := by omega
    have hends : (last : Int) ≠ i := by omega
    simp only [markedAt, List.exists_mem_cons_iff, hbegins, hends, false_or]
  rw [List.range'_succ, List.flatMap_cons, List.flatMap_cons, hends, List.flatMap_congr hlater,
    List.append_assoc]

end Cons

theorem highlight_go {position : Nat} (hposition : position ≤ text.length)
    (hwithin : ∀ s ∈ spans, (position : Int) ≤ s.start ∧ s.start < s.stop ∧ s.stop ≤ text.length)
    (hsorted : spans.Pairwise fun a b => a.stop ≤ b.start) :
    highlight.go text opening closing position spans
      = (List.range' position (text.length + 1 - position)).flatMap
          (markedAt text spans opening closing) := by
  -- The text up to the end of the first span is written, and the rest begins there.
  induction spans generalizing position with
  | nil =>
    have hplace : Slice.position text.length position = position := by
      rw [Slice.position, if_neg (by omega)]
      omega
    rw [flatMap_markedAt_range' (by simp), List.take_of_length_le (by rw [List.length_drop]; omega),
      highlight.go, Slice.after, hplace]
  | cons s spans ih =>
    obtain ⟨⟨hstart, hlt, hstop⟩, hspans⟩ := List.forall_mem_cons.mp hwithin
    obtain ⟨hbehind, hrest⟩ := List.pairwise_cons.mp hsorted
    obtain ⟨first, hfirst⟩ := Int.eq_ofNat_of_zero_le (by omega : 0 ≤ s.start)
    obtain ⟨last, hlast⟩ := Int.eq_ofNat_of_zero_le (by omega : 0 ≤ s.stop)
    obtain rfl : s = ⟨first, last⟩ := by rw [← hfirst, ← hlast]
    simp only at hstart hlt hstop hbehind
    have hlater : ∀ s ∈ spans, (last : Int) ≤ s.start ∧ s.start < s.stop :=
      fun s hs => ⟨hbehind s hs, (hspans s hs).2.1⟩
    have hinside : last ≤ text.length := by omega
    have hgo := ih hinside (fun s hs => ⟨hbehind s hs, (hspans s hs).2⟩) hrest
    have hcount : text.length + 1 - last = text.length - last + 1 := by omega
    rw [← range'_append_range' (by omega : position ≤ last) (by omega : last ≤ text.length + 1),
      List.flatMap_append, flatMap_markedAt_first hlater (by omega) (by omega), hcount,
      flatMap_markedAt_last hlater (by omega), ← hcount, ← hgo, highlight.go,
      Slice.between_eq text (by omega) (by simpa using hstart),
      Slice.between_eq text (by simp) (by simp only; omega)]
    simp only [List.append_assoc, Int.toNat_natCast]

/-- **Marks are put where spans begin and end**, and nothing else is changed. -/
theorem highlight_eq (h : Span.Marks text spans) (opening closing : List Char) :
    highlight text spans opening closing
      = (List.range (text.length + 1)).flatMap (markedAt text spans opening closing) := by
  rw [highlight, if_neg (by simpa using h.some), List.range_eq_range']
  exact highlight_go (Nat.zero_le _) h.within h.ascending

end Highlight

end ShellAssist
