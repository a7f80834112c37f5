import ShellAssist.Completion.Completer
import ShellAssist.Proofs.Score.Degradation
import ShellAssist.Proofs.Sorting
import ShellAssist.Proofs.Text.Basic
import ShellAssist.Proofs.Text.Lines
import ShellAssist.Proofs.Text.Sort
import Mathlib.Algebra.Order.Field.Rat
import Mathlib.Algebra.Order.Field.Basic
import Mathlib.Data.Prod.Lex
import Mathlib.Order.OrderDual

namespace ShellAssist

/-!
# Ranking by the output of the filter

The filter prints the texts that match, best first, and no numbers. Each line is given to a candidate
with that text, and the candidates are sorted by the scores that stand for the places of the lines. The
order of the output survives that, and the lines of one text go to its candidates in turn.

The output of a program is read as text, with a line feed for every line end. So a line that holds a
carriage return is read as another text than the one that was handed to the filter.

* `Filter.readLines_terminated` — the lines that are read from an output;
* `Filter.exists_picked` — which candidates the lines are given to;
* `Completion.IsRankedBy` — candidates in the order of an output;
* `Completion.isRankedBy_rank_iff` — that they are ranked so unless a line holds a carriage return.
-/

open OrderDual (toDual)

namespace Filter

open Ranker (Request)

/-! ### Lines -/

/-- Lines as the filter prints them, each with a NUL behind it. -/
def terminated (lines : List String) : String :=
  String.join (lines.map (· ++ "\x00"))

/-- A printed text as it is read: with a line feed for every line end. -/
def asRead (printed : String) : String :=
  String.ofList (Chars.unifyNewlines printed.toList)

/-- The filter is at hand and answers a request by printing these lines. -/
def Prints (f : Filter) (q : Request) (lines : List String) : Prop :=
  ∃ program, f.atHand q.world = some program ∧
    (f.printed program q (f.probe q.world).2).1 = .ok (some (asRead (terminated lines)))

/-- The lines that are read from an output: the pieces between the NULs, without the empty ones. -/
def readLines (output : String) : List String :=
  (Text.splitOn '\x00' output).filter (· ≠ "")

/-- A text without carriage returns is read as it was printed. -/
theorem asRead_eq_self {text : String} (h : '\r' ∉ text.toList) : asRead text = text := by
  rw [asRead, Chars.unifyNewlines_eq_self h, String.ofList_toList]

/-- No carriage return is read. -/
theorem return_not_mem_asRead (text : String) : '\r' ∉ (asRead text).toList := by
  rw [asRead, String.toList_ofList]
  exact Chars.return_not_mem_unifyNewlines _

/-- What can be printed as a line is read as one. -/
theorem asRead_line {line : String} (h : line ≠ "" ∧ '\x00' ∉ line.toList) :
    asRead line ≠ "" ∧ '\x00' ∉ (asRead line).toList := by
  rw [asRead, String.toList_ofList]
  refine ⟨fun hempty => h.1 ?_, fun hmem => h.2 (Chars.mem_of_mem_unifyNewlines (by decide) hmem)⟩
  have hnil := congrArg String.toList hempty
  rw [String.toList_ofList] at hnil
  exact String.toList_eq_nil_iff.mp (Chars.unifyNewlines_eq_nil_iff.mp hnil)

theorem toList_terminated_cons (line : String) (lines : List String) :
    (terminated (line :: lines)).toList
      = line.toList ++ '\x00' :: (terminated lines).toList := by
  simp [terminated, String.toList_join]

/-- An output is read line by line: a NUL is no part of a line end. -/
theorem asRead_terminated (lines : List String) :
    asRead (terminated lines) = terminated (lines.map asRead) := by
  refine String.toList_inj.mp ?_
  rw [asRead, String.toList_ofList]
  induction lines with
  | nil => rfl
  | cons line lines ih =>
    rw [List.map_cons, toList_terminated_cons, toList_terminated_cons,
      Chars.unifyNewlines_append_cons (by decide) (by decide), ih, asRead, String.toList_ofList]

/-- The NULs of an output stand behind its lines. -/
theorem splitOn_terminated {lines : List String} (h : ∀ line ∈ lines, '\x00' ∉ line.toList) :
    Text.splitOn '\x00' (terminated lines) = lines ++ [""] := by
  induction lines with
  | nil => rfl
  | cons line lines ih =>
    obtain ⟨hline, hlines⟩ := List.forall_mem_cons.mp h
    rw [Text.splitOn, toList_terminated_cons, Chars.splitOn_append_sep,
      Chars.splitOn_of_not_mem hline, List.map_append, ← Text.splitOn, ih hlines,
      List.map_singleton, String.ofList_toList]
    rfl

/-- **What is read from an output**: each of its lines, as it is read by itself, if no line is empty
or holds a NUL. -/
theorem readLines_terminated {lines : List String}
    (h : ∀ line ∈ lines, line ≠ "" ∧ '\x00' ∉ line.toList) :
    readLines (asRead (terminated lines)) = lines.map asRead := by
  have hread : ∀ line ∈ lines.map asRead, line ≠ "" ∧ '\x00' ∉ line.toList :=
    List.forall_mem_map.mpr fun line hline => asRead_line (h line hline)
  rw [readLines, asRead_terminated, splitOn_terminated fun line hline => (hread line hline).2,
    List.filter_append, List.filter_eq_self.mpr fun line hline => decide_eq_true (hread line hline).1]
  exact List.append_nil _

/-! ### Who is given a line -/

section Picked

variable {α : Type} (key : α → String)

/-- A line goes to the first of its text, and the others are left as they stand. -/
theorem takeIndex_of_mem {line : String} {pool : List (Nat × α)}
    (h : line ∈ pool.map fun p => key p.2) :
    ∃ front i a behind, pool = front ++ (i, a) :: behind ∧ key a = line ∧
      (∀ p ∈ front, key p.2 ≠ line) ∧
      takeIndex line (pool.map (Prod.map id key))
        = some (i, (front ++ behind).map (Prod.map id key)) := by
  induction pool with
  | nil => cases h
  | cons p pool ih =>
    by_cases hp : key p.2 = line
    · refine ⟨[], p.1, p.2, pool, rfl, hp, fun _ hmem => absurd hmem List.not_mem_nil, ?_⟩
      rw [List.map_cons, Prod.map, takeIndex, if_pos hp]
      rfl
    · obtain ⟨front, i, a, behind, rfl, ha, hfront, htake⟩ :=
        ih ((List.mem_cons.mp h).resolve_left (Ne.symm hp))
      refine ⟨p :: front, i, a, behind, rfl, ha, List.forall_mem_cons.mpr ⟨hp, hfront⟩, ?_⟩
      rw [List.map_cons, Prod.map, takeIndex, if_neg hp, htake]
      rfl

/-- **The lines of one text are given to the first of that text, in turn.** Nobody is given two, and
the places count the lines. -/
theorem exists_picked (place : Nat) {lines : List String} {pool : List (Nat × α)}
    (h : lines.Subperm (pool.map fun p => key p.2)) :
    ∃ picked : List (Nat × α), picked.Subperm pool ∧ (picked.map fun p => key p.2) = lines ∧
      (∀ text, picked.filter (fun p => key p.2 = text)
        = (pool.filter fun p => key p.2 = text).take (lines.count text)) ∧
      places place lines (pool.map (Prod.map id key))
        = (picked.map Prod.fst).zip (List.range' place lines.length) := by
  induction lines generalizing place pool with
  | nil => exact ⟨[], List.nil_subperm, rfl, fun text => by simp, rfl⟩
  | cons line lines ih =>
    obtain ⟨front, i, a, behind, rfl, rfl, hfront, htake⟩ :=
      takeIndex_of_mem key (h.subset List.mem_cons_self)
    have hperm : (front ++ (i, a) :: behind).Perm ((i, a) :: (front ++ behind)) :=
      List.perm_middle
    have hrest : lines.Subperm ((front ++ behind).map fun p => key p.2) := by
      refine (List.subperm_cons (key a)).mp (h.trans ?_)
      exact (hperm.map fun p => key p.2).subperm
    obtain ⟨picked, hsub, htexts, hturn, hplaces⟩ := ih (place + 1) hrest
    refine ⟨(i, a) :: picked, ?_, ?_, fun text => ?_, ?_⟩
    · exact ((List.subperm_cons (i, a)).mpr hsub).trans hperm.symm.subperm
    · rw [List.map_cons, htexts]
    · by_cases htext : key a = text
      · -- Nobody in front has this text, so the line goes to the first one who has it.
        have hnone : front.filter (fun p => key p.2 = text) = [] :=
          List.filter_eq_nil_iff.mpr fun p hp => by simpa [← htext] using hfront p hp
        have hbehind := hturn text
        rw [List.filter_append, hnone, List.nil_append] at hbehind
        rw [List.filter_cons_of_pos (by simpa using htext), hbehind, List.filter_append, hnone,
          List.nil_append, List.filter_cons_of_pos (by simpa using htext), htext,
          List.count_cons_self, List.take_succ_cons]
      · rw [List.filter_cons_of_neg (by simpa using htext), hturn text,
          List.count_cons_of_ne htext, List.filter_append, List.filter_append,
          List.filter_cons_of_neg (by simpa using htext)]
    · rw [places, htake]
      simp only [hplaces, List.map_cons, List.length_cons, List.range'_succ, List.zip_cons_cons]

/-- A line that is taken from the list was in it, and so is what is left. -/
theorem mem_of_takeIndex {line : String} {texts left : List (Nat × String)} {i : Nat}
    (h : takeIndex line texts = some (i, left)) :
    (i, line) ∈ texts ∧ ∀ p ∈ left, p ∈ texts := by
  induction texts generalizing left with
  | nil => cases h
  | cons p texts ih =>
    rw [takeIndex] at h
    split at h
    · rename_i hline
      obtain ⟨rfl, rfl⟩ := Prod.mk.inj (Option.some.inj h)
      exact ⟨hline ▸ List.mem_cons_self, fun _ hp => List.mem_cons_of_mem _ hp⟩
    · obtain ⟨⟨j, rest⟩, hrest, heq⟩ := Option.map_eq_some_iff.mp h
      obtain ⟨rfl, rfl⟩ := Prod.mk.inj heq
      obtain ⟨hmem, hleft⟩ := ih hrest
      refine ⟨List.mem_cons_of_mem _ hmem, List.forall_mem_cons.mpr ⟨List.mem_cons_self, ?_⟩⟩
      exact fun q hq => List.mem_cons_of_mem _ (hleft q hq)

/-- Whatever the output, a text is only given a line that spells it. -/
theorem exists_line_of_mem_places {place : Nat} {lines : List String} {texts : List (Nat × String)}
    {found : Nat × Nat} (h : found ∈ places place lines texts) :
    ∃ line ∈ lines, (found.1, line) ∈ texts := by
  induction lines generalizing place texts with
  | nil => cases h
  | cons line lines ih =>
    rw [places] at h
    split at h
    · obtain ⟨l, hl, hmem⟩ := ih h
      exact ⟨l, List.mem_cons_of_mem _ hl, hmem⟩
    · rename_i i left htake
      obtain ⟨hline, hleft⟩ := mem_of_takeIndex htake
      rcases List.mem_cons.mp h with rfl | h
      · exact ⟨line, List.mem_cons_self, hline⟩
      · obtain ⟨l, hl, hmem⟩ := ih h
        exact ⟨l, List.mem_cons_of_mem _ hl, hleft _ hmem⟩

end Picked

/-! ### Results -/

/-- The result of a text by the place of its line among `n`, if it has one. -/
def resultAt (n : Nat) (place : Option Nat) : ScoreResult Rat :=
  place.elim .noMatch fun place => { score := 1 - place / n }

/-- Who has a place matches. -/
theorem isMatch_resultAt {n : Nat} {place : Option Nat} (h : ∀ i ∈ place, i < n) :
    (resultAt n place).isMatch = place.isSome := by
  cases place with
  | none => exact decide_eq_false (lt_irrefl (0 : Rat))
  | some i =>
    have hi : (i : Rat) < n := Nat.cast_lt.mpr (h i rfl)
    exact decide_eq_true (sub_pos.mpr ((div_lt_one ((Nat.cast_nonneg i).trans_lt hi)).mpr hi))

/-- Scores fall from place to place. -/
theorem resultAt_descending (n : Nat) :
    ((List.range n).map fun i => resultAt n (some i)).Pairwise fun r r' => r'.score < r.score := by
  rw [List.pairwise_map]
  refine List.pairwise_lt_range.imp_of_mem fun {i j} _ hj hij => ?_
  have hn : (0 : Rat) < n := Nat.cast_pos.mpr (Nat.zero_lt_of_lt (List.mem_range.mp hj))
  exact sub_lt_sub_left (div_lt_div_of_pos_right (Nat.cast_lt.mpr hij) hn) 1

/-- The results by the places of the lines that are read. -/
theorem readOutput_eq (output : String) (texts : List String) :
    let indexed := (List.range texts.length).zip texts
    (readOutput output texts : List (ScoreResult Rat))
      = indexed.map fun p =>
          resultAt (readLines output).length ((places 0 (readLines output) indexed).lookup p.1) := by
  dsimp only [readOutput, readLines]
  refine List.map_congr_left fun p _ => ?_
  generalize (places _ _ _).lookup p.1 = place
  cases place <;> rfl

/-- A filter that answers gives the results of the request. -/
theorem Prints.results {f : Filter} {q : Request} {lines : List String} (h : f.Prints q lines)
    (fallback : ReferenceScorer) :
    (Ranker.scoreMany (σ := Rat) ⟨.filter f, fallback⟩ q.query q.texts q.world).1.1
      = .ok (readOutput (asRead (terminated lines)) q.texts) := by
  obtain ⟨program, hhand, hprinted⟩ := h
  rw [Ranker.scoreMany_filter, scoreMany_eq, hhand]
  dsimp only
  -- Without texts the program is not asked; otherwise the answer counted on was its output.
  by_cases htexts : q.texts = []
  · rw [if_pos htexts, htexts]
    rfl
  · rw [if_neg htexts]
    rcases hanswer : f.printed program q (f.probe q.world).2 with ⟨failure | _ | output, w⟩
    · rw [hanswer] at hprinted
      cases hprinted
    · rw [hanswer] at hprinted
      cases hprinted
    · rw [hanswer] at hprinted
      obtain rfl := Option.some.inj (Except.ok.inj hprinted)
      rfl

end Filter

namespace Completion

/-! ### Ranking -/

/-- Candidates ranked by the lines of an output: one for each line, with its text, in the order of the
lines. The lines of a text go to its candidates in the order they came in, and the candidates for which
there is no line are dropped. -/
structure IsRankedBy (lines : List String) (candidates ranked : List Candidate) : Prop where
  one_each : ranked.map (·.text) = lines
  in_turn : ∀ text, ranked.filter (·.text = text)
    = (candidates.filter (·.text = text)).take (lines.count text)

/-- What scored candidates are sorted by. -/
def rankKey (a : Candidate × ScoreResult Rat) : Ratᵒᵈ ×ₗ String :=
  toLex (toDual a.2.score, a.1.text)

/-- Scored candidates are sorted by that. -/
theorem ranksBefore_iff_rankKey (a b : Candidate × ScoreResult Rat) :
    ranksBefore a b = true ↔ rankKey a ≤ rankKey b := by
  have hless (x y : Rat) : Scalar.less x y = true ↔ x < y := decide_eq_true_iff
  rw [rankKey, rankKey, Prod.Lex.toLex_le_toLex, ranksBefore]
  dsimp only
  rw [OrderDual.toDual_lt_toDual, OrderDual.toDual_inj]
  rcases lt_trichotomy b.2.score a.2.score with h | h | h
  · rw [if_pos ((hless _ _).mpr h)]
    exact iff_of_true rfl (.inl h)
  · rw [if_neg (mt (hless _ _).mp h.not_lt), if_neg (mt (hless _ _).mp h.not_gt), Text.le_iff]
    exact ⟨fun htext => .inr ⟨h.symm, htext⟩, fun h' => (h'.resolve_left h.not_lt).2⟩
  · rw [if_neg (mt (hless _ _).mp h.not_gt), if_pos ((hless _ _).mpr h)]
    exact iff_of_false Bool.false_ne_true fun h' =>
      h'.elim (fun h' => h'.not_gt h) fun h' => h.ne h'.1

/-- Candidates whose scores fall stand as they are sorted. -/
theorem mergeSort_eq_of_descending {scored sorted : List (Candidate × ScoreResult Rat)}
    (hperm : sorted.Perm scored)
    (hfall : sorted.Pairwise fun a b => b.2.score < a.2.score) :
    scored.mergeSort ranksBefore = sorted := by
  have hsort : IsStableSort (fun a b => rankKey a ≤ rankKey b) scored (scored.mergeSort ranksBefore) :=
    isStableSort_mergeSort (.of_key rankKey fun _ _ _ _ => Iff.rfl)
      fun a _ b _ => ranksBefore_iff_rankKey a b
  refine List.Perm.eq_of_pairwise (fun a b ha hb hab hba => ?_) hsort.sorted
    (hfall.imp fun hlt => ?_) (hsort.perm.trans hperm.symm)
  · -- Two of the same key have the same score, and no score stands twice.
    have hscore : a.2.score = b.2.score :=
      congrArg (fun key : Ratᵒᵈ ×ₗ String => OrderDual.ofDual (ofLex key).1) (le_antisymm hab hba)
    have hnodup : (sorted.map (·.2.score)).Nodup :=
      List.pairwise_map.mpr (hfall.imp fun hlt => hlt.ne')
    exact List.inj_on_of_nodup_map hnodup (hperm.mem_iff.mpr (hsort.mem_iff.mp ha)) hb hscore
  · exact Prod.Lex.toLex_le_toLex.mpr (.inl (OrderDual.toDual_lt_toDual.mpr hlt))

/-- Each key is found with the place it was given. -/
theorem map_lookup_zip {keys places : List Nat} (hkeys : keys.Nodup)
    (hlength : keys.length = places.length) :
    (keys.map fun k => (keys.zip places).lookup k) = places.map some := by
  induction keys generalizing places with
  | nil => rw [List.eq_nil_of_length_eq_zero hlength.symm]; rfl
  | cons k keys ih =>
    cases places with
    | nil => cases hlength
    | cons place places =>
      obtain ⟨hk, hkeys⟩ := List.nodup_cons.mp hkeys
      rw [List.zip_cons_cons, List.map_cons, List.map_cons, List.lookup_cons_self,
        ← ih hkeys (Nat.succ.inj hlength)]
      refine congrArg _ (List.map_congr_left fun k' hk' => ?_)
      have hne : (k' == k) = false := beq_eq_false_iff_ne.mpr fun h => hk (h ▸ hk')
      rw [List.lookup_cons, hne]

/-- A place is found for the keys of the list. -/
theorem isSome_lookup_iff {found : List (Nat × Nat)} {k : Nat} :
    (found.lookup k).isSome = true ↔ k ∈ found.map Prod.fst := by
  induction found with
  | nil => exact iff_of_false Bool.false_ne_true List.not_mem_nil
  | cons p found ih =>
    rw [List.lookup_cons, List.map_cons, List.mem_cons, ← ih]
    cases hk : k == p.1 with
    | true => exact iff_of_true rfl (.inl (beq_iff_eq.mp hk))
    | false => exact (or_iff_right (beq_eq_false_iff_ne.mp hk)).symm

section Rank

variable {lines : List String} {candidates : List Candidate} {picked : List (Nat × Candidate)}

/-- Candidates with their places in the list. -/
def numbered (candidates : List Candidate) : List (Nat × Candidate) :=
  (List.range candidates.length).zip candidates

theorem map_fst_numbered (candidates : List Candidate) :
    (numbered candidates).map Prod.fst = List.range candidates.length :=
  List.map_fst_zip List.length_range.le

theorem map_snd_numbered (candidates : List Candidate) :
    (numbered candidates).map Prod.snd = candidates :=
  List.map_snd_zip List.length_range.ge

/-- Candidates are told apart by their places. -/
theorem eq_of_mem_numbered {p p' : Nat × Candidate} (hp : p ∈ numbered candidates)
    (hp' : p' ∈ numbered candidates) (h : p.1 = p'.1) : p = p' := by
  refine List.inj_on_of_nodup_map ?_ hp hp' h
  rw [map_fst_numbered]
  exact List.nodup_range

/-- Nobody is given two lines. -/
theorem nodup_picked (h : picked.Subperm (numbered candidates)) :
    (picked.map Prod.fst).Nodup := by
  obtain ⟨those, hperm, hsub⟩ := h
  refine (hperm.map Prod.fst).nodup_iff.mp (.sublist (hsub.map Prod.fst) ?_)
  rw [map_fst_numbered]
  exact List.nodup_range

/-- Those who are given a line are those whose place is among the places given. -/
theorem picked_perm (h : picked.Subperm (numbered candidates)) {found : List (Nat × Nat)}
    (hfound : found.map Prod.fst = picked.map Prod.fst) :
    picked.Perm ((numbered candidates).filter fun p => (found.lookup p.1).isSome) := by
  have hall : (numbered candidates).Nodup :=
    .of_map Prod.fst (map_fst_numbered candidates ▸ List.nodup_range)
  refine (List.perm_ext_iff_of_nodup (.of_map _ (nodup_picked h)) (hall.filter _)).mpr fun p => ?_
  rw [List.mem_filter, isSome_lookup_iff, hfound]
  constructor
  · exact fun hp => ⟨h.subset hp, List.mem_map_of_mem hp⟩
  · rintro ⟨hp, hplace⟩
    obtain ⟨p', hp', heq⟩ := List.mem_map.mp hplace
    exact eq_of_mem_numbered (h.subset hp') hp heq ▸ hp'

/-! ### Reading an output -/

/-- A candidate with the result of its line, if it is given one. -/
def scored (n : Nat) (found : List (Nat × Nat)) (p : Nat × Candidate) : Candidate × ScoreResult Rat :=
  (p.2, Filter.resultAt n (found.lookup p.1))

/-- The places that the lines of an output give to candidates. -/
def placesIn (output : String) (candidates : List Candidate) : List (Nat × Nat) :=
  Filter.places 0 (Filter.readLines output) ((numbered candidates).map (Prod.map id (·.text)))

/-- The candidates with what is read from an output. -/
theorem zip_readOutput (output : String) (candidates : List Candidate) :
    candidates.zip (Filter.readOutput output (candidates.map (·.text)))
      = (numbered candidates).map
          (scored (Filter.readLines output).length (placesIn output candidates)) := by
  have hindexed : (List.range (candidates.map (·.text)).length).zip (candidates.map (·.text))
      = (numbered candidates).map (Prod.map id (·.text)) := by
    rw [List.length_map, numbered, List.zip_map_right]
  rw [Filter.readOutput_eq, hindexed, List.map_map]
  nth_rewrite 1 [← map_snd_numbered candidates]
  exact List.zip_map'

/-- Whatever the output, a candidate is only ranked for a line that spells its text. -/
theorem text_mem_of_rank {output : String} {a : Candidate × ScoreResult Rat}
    (h : a ∈ rank candidates (Filter.readOutput output (candidates.map (·.text)))) :
    a.1.text ∈ Filter.readLines output := by
  rw [rank, List.mem_mergeSort, zip_readOutput, List.mem_filter] at h
  obtain ⟨p, hp, rfl⟩ := List.mem_map.mp h.1
  -- Without a place there is no match.
  cases hplace : (placesIn output candidates).lookup p.1 with
  | none =>
    have hunmatched :
        (Filter.resultAt (Filter.readLines output).length none).isMatch = false :=
      Filter.isMatch_resultAt fun i hi => absurd hi (Option.not_mem_none i)
    rw [scored, hplace, hunmatched] at h
    exact absurd h.2 Bool.false_ne_true
  | some place =>
    obtain ⟨_, _, hsplit, -⟩ := List.lookup_eq_some_iff.mp hplace
    have hfound : (p.1, place) ∈ placesIn output candidates :=
      hsplit ▸ List.mem_append_right _ List.mem_cons_self
    obtain ⟨line, hline, hmem⟩ := Filter.exists_line_of_mem_places hfound
    obtain ⟨p', hp', heq⟩ := List.mem_map.mp hmem
    obtain ⟨hindex, rfl⟩ := Prod.mk.inj heq
    rwa [eq_of_mem_numbered hp' hp hindex] at hline

/-- Those match whose place is given. -/
theorem filter_isMatch_scored {n : Nat} {found : List (Nat × Nat)} (hfound : ∀ p ∈ found, p.2 < n)
    (all : List (Nat × Candidate)) :
    (all.map (scored n found)).filter (fun c => c.2.isMatch)
      = (all.filter fun p => (found.lookup p.1).isSome).map (scored n found) := by
  rw [List.filter_map]
  refine congrArg _ (List.filter_congr fun p _ => Filter.isMatch_resultAt fun i hi => ?_)
  obtain ⟨_, _, hsplit, -⟩ := List.lookup_eq_some_iff.mp hi
  exact hfound (p.1, i) (hsplit ▸ List.mem_append_right _ List.mem_cons_self)

/-- Those who are given the lines in turn have the results of the lines. -/
theorem map_scored_picked (hnodup : (picked.map Prod.fst).Nodup) (n : Nat) :
    picked.map (scored n ((picked.map Prod.fst).zip (List.range picked.length)))
      = (picked.map (·.2)).zip
          ((List.range picked.length).map fun i => Filter.resultAt n (some i)) := by
  have hlength : (picked.map Prod.fst).length = (List.range picked.length).length := by
    rw [List.length_map, List.length_range]
  have hresults := congrArg (List.map (Filter.resultAt n)) (map_lookup_zip hnodup hlength)
  rw [List.map_map, List.map_map, List.map_map] at hresults
  exact List.zip_map'.symm.trans (congrArg _ hresults)

/-- **Candidates are ranked as the lines are read.** What is read from an output puts those who are
given a line in the order of the lines. -/
theorem rank_readOutput {output : String}
    (hlisted : (Filter.readLines output).Subperm (candidates.map (·.text))) :
    ∃ picked : List (Nat × Candidate), picked.Subperm (numbered candidates) ∧
      (picked.map fun p => p.2.text) = Filter.readLines output ∧
      (∀ text, picked.filter (fun p => p.2.text = text)
        = ((numbered candidates).filter fun p => p.2.text = text).take
            ((Filter.readLines output).count text)) ∧
      rank candidates (Filter.readOutput output (candidates.map (·.text)))
        = (picked.map (·.2)).zip ((List.range (Filter.readLines output).length).map fun i =>
            Filter.resultAt (Filter.readLines output).length (some i)) := by
  have htexts : ((numbered candidates).map fun p => p.2.text) = candidates.map (·.text) := by
    rw [← map_snd_numbered candidates, List.map_map, map_snd_numbered]
    rfl
  obtain ⟨picked, hsub, hpicked, hturn, hplaces⟩ :=
    Filter.exists_picked (fun c : Candidate => c.text) 0 (htexts ▸ hlisted)
  refine ⟨picked, hsub, hpicked, hturn, ?_⟩
  have hlength : (Filter.readLines output).length = picked.length := by
    rw [← hpicked, List.length_map]
  rw [← List.range_eq_range', hlength] at hplaces
  have hkeys : ((picked.map Prod.fst).zip (List.range picked.length)).map Prod.fst
      = picked.map Prod.fst :=
    List.map_fst_zip (by rw [List.length_map, List.length_range])
  have hbound : ∀ p ∈ (picked.map Prod.fst).zip (List.range picked.length), p.2 < picked.length :=
    fun p hp => List.mem_range.mp (List.of_mem_zip hp).2
  rw [rank, zip_readOutput, placesIn, hplaces, hlength, filter_isMatch_scored hbound,
    ← map_scored_picked (nodup_picked hsub)]
  -- The scores of those who are given a line fall from line to line.
  refine mergeSort_eq_of_descending ((picked_perm hsub hkeys).map _) ?_
  have hresults := congrArg (List.map Prod.snd) (map_scored_picked (nodup_picked hsub) picked.length)
  rw [List.map_snd_zip (by simp)] at hresults
  exact List.pairwise_map.mp (hresults ▸ Filter.resultAt_descending picked.length)

/-- The order of an output is the order of the ranking, if all lines that are read are texts of
candidates. -/
theorem isRankedBy_rank {output : String}
    (hlisted : (Filter.readLines output).Subperm (candidates.map (·.text))) :
    let ranked := rank candidates (Filter.readOutput output (candidates.map (·.text)))
    IsRankedBy (Filter.readLines output) candidates (ranked.map (·.1)) ∧
      ranked.map (·.2) = (List.range (Filter.readLines output).length).map fun i =>
        { score := 1 - (i : Rat) / (Filter.readLines output).length } := by
  obtain ⟨picked, hsub, hpicked, hturn, hrank⟩ := rank_readOutput hlisted
  have hlength : picked.length = (Filter.readLines output).length := by
    rw [← hpicked, List.length_map]
  rw [hrank]
  dsimp only
  rw [List.map_fst_zip (by simp [hlength]), List.map_snd_zip (by simp [hlength])]
  refine ⟨⟨by rw [List.map_map, ← hpicked]; rfl, fun text => ?_⟩, rfl⟩
  have hcandidates := congrArg (List.map Prod.snd) (hturn text)
  rw [List.map_take] at hcandidates
  -- The law speaks of candidates, the ranking of numbered ones: the numbers are dropped.
  have hsnd (ps : List (Nat × Candidate)) : (ps.filter fun p => p.2.text = text).map Prod.snd
      = (ps.map Prod.snd).filter (·.text = text) := by
    rw [List.filter_map]
    rfl
  rwa [hsnd, hsnd, map_snd_numbered] at hcandidates

/-- **The order of the output is the order of the ranking**, unless a line holds a carriage return.
Such a line is read as another text, so that it does not count for the candidate whose text it is. -/
theorem isRankedBy_rank_iff (f : Filter) (fallback : ReferenceScorer) (query : String)
    (candidates : List Candidate) (w : World) (lines : List String)
    (htexts : ∀ c ∈ candidates, c.text ≠ "" ∧ '\x00' ∉ c.text.toList)
    (hlisted : lines.Subperm (candidates.map (·.text)))
    (hprints : f.Prints ⟨query, candidates.map (·.text), w⟩ lines) :
    ∃ results, (Ranker.scoreMany (σ := Rat) ⟨.filter f, fallback⟩ query
        (candidates.map (·.text)) w).1.1 = .ok results ∧
      let ranked := rank candidates results
      let untouched := ∀ line ∈ lines, '\r' ∉ line.toList
      (IsRankedBy lines candidates (ranked.map (·.1)) ↔ untouched) ∧
        (untouched → ranked.map (·.2) = (List.range lines.length).map fun i =>
          { score := 1 - (i : Rat) / lines.length }) := by
  refine ⟨_, hprints.results fallback, ?_⟩
  dsimp only
  have hlines : ∀ line ∈ lines, line ≠ "" ∧ '\x00' ∉ line.toList := by
    intro line hline
    obtain ⟨c, hc, rfl⟩ := List.mem_map.mp (hlisted.subset hline)
    exact htexts c hc
  have hread := Filter.readLines_terminated hlines
  have hranked (h : ∀ line ∈ lines, '\r' ∉ line.toList) :
      lines = Filter.readLines (Filter.asRead (Filter.terminated lines)) := by
    rw [hread, List.map_congr_left fun line hline => Filter.asRead_eq_self (h line hline)]
    exact (List.map_id' lines).symm
  refine ⟨⟨fun h line hline => ?_, fun h => ?_⟩, fun h => ?_⟩
  · -- The candidate that stands for the line is ranked for a line that was read.
    obtain ⟨c, hc, rfl⟩ := List.mem_map.mp (h.one_each ▸ hline)
    obtain ⟨a, ha, rfl⟩ := List.mem_map.mp hc
    have htext := text_mem_of_rank ha
    rw [hread] at htext
    obtain ⟨printed, -, heq⟩ := List.mem_map.mp htext
    exact heq ▸ Filter.return_not_mem_asRead printed
  · have hsame := (isRankedBy_rank (hranked h ▸ hlisted)).1
    rwa [← hranked h] at hsame
  · have hsame := (isRankedBy_rank (hranked h ▸ hlisted)).2
    rwa [← hranked h] at hsame

/-- Three candidates with one text, of which the filter lists two, with another one between them. The
text of two lines is read as it was printed. -/
theorem isRankedBy_rank_iff_repeated :
    let f : Filter := { configuredPath := none, timeout := 1, environment := none }
    let candidates : List Candidate := [
      { text := "ls", description := "first" }, { text := "pwd" }, { text := "git log\nls" },
      { text := "ls", description := "second" }, { text := "ls", description := "third" }]
    let lines := ["ls", "git log\nls", "ls"]
    let w : World := {
      environment := [("PATH", "/bin")]
      disk := { nodes := [(["bin"], ⟨.directory false, 1⟩),
        (["bin", "fzf"], ⟨.file [] true false, 2⟩)] }
      commands := [(["/bin/fzf", "--version"], .finished "0.44" 0),
        (Filter.request "/bin/fzf" "l", .ofPrinted "ls\x00git log\nls\x00ls\x00" 0)] }
    (∀ c ∈ candidates, c.text ≠ "" ∧ '\x00' ∉ c.text.toList) ∧
      lines.Subperm (candidates.map (·.text)) ∧
      f.Prints ⟨"l", candidates.map (·.text), w⟩ lines ∧
      ∃ results, (Ranker.scoreMany (σ := Rat) ⟨.filter f, {}⟩ "l"
          (candidates.map (·.text)) w).1.1 = .ok results ∧
        let ranked := rank candidates results
        let untouched := ∀ line ∈ lines, '\r' ∉ line.toList
        (IsRankedBy lines candidates (ranked.map (·.1)) ↔ untouched) ∧
          (untouched → ranked.map (·.2) = (List.range lines.length).map fun i =>
            { score := 1 - (i : Rat) / lines.length }) := by
  intro f candidates lines w
  have htexts : ∀ c ∈ candidates, c.text ≠ "" ∧ '\x00' ∉ c.text.toList := by decide
  have hlisted : lines.Subperm (candidates.map (·.text)) := by decide
  have hprints : f.Prints ⟨"l", candidates.map (·.text), w⟩ lines :=
    ⟨"/bin/fzf", by decide, by decide⟩
  exact ⟨htexts, hlisted, hprints,
    isRankedBy_rank_iff f {} "l" candidates w lines htexts hlisted hprints⟩

end Rank

end Completion

end ShellAssist
