import ShellAssist.Score.Ranker
import ShellAssist.Proofs.Failure
import ShellAssist.Proofs.Host.Action
import ShellAssist.Proofs.Score.Matching

namespace ShellAssist

/-!
# A ranker whose filter fails

A ranker looks for its external filter and tries it at the first request. From the first failure on,
of that trial or of a later run, it runs nothing any more and scores texts as the reference scorer
does. Only a run for which the system does not wait as long as it may take fails the request.

* `Ranker.replies` — what requests come to, each made in a world of its own;
* `Filter.atHand`, `Filter.FailsAt`, `Filter.Overruns` — the filter that a request finds, and whether it
  fails or may take longer than the system waits;
* `ScoreResult.IsComputed` — a score that is computed without a division by zero;
* `Ranker.fails_scoreMany_iff` — the requests that a ranker fails;
* `Ranker.Degrades` — a ranker fails no request, and its filter for good;
* `Ranker.degrades_replies` — that this holds of all requests to every ranker with a filter for which the
  system waits.
-/

variable {σ : Type} [Scalar σ]

/-! ### Division -/

namespace Filter

/-! ### The output of the filter -/

/-- There is one result for each text. -/
theorem length_readOutput (output : String) (texts : List String) :
    (readOutput output texts : List (ScoreResult σ)).length = texts.length := by
  simp [readOutput]

end Filter

/-! ### Requests -/

namespace Ranker

/-- Texts to be scored, and the world then. -/
structure Request where
  query : String
  texts : List String
  world : World

/-- What a request to a ranker comes to. -/
structure Reply (σ : Type) where
  request : Request
  /-- The ranker that was asked. -/
  ranker : Ranker
  /-- The results, or why there are none. -/
  results : Except Failure (List (ScoreResult σ))
  /-- The world behind the request. -/
  behind : World

/-- The commands run for a request, the latest first. -/
def Reply.calls (a : Reply σ) : List Call :=
  a.behind.calls.take (a.behind.calls.length - a.request.world.calls.length)

/-- What a request to a ranker comes to, and the ranker behind it. -/
def reply (r : Ranker) (q : Request) : Reply σ × Ranker :=
  let ((results, behind), world) := r.scoreMany q.query q.texts q.world
  ({ request := q, ranker := r, results, behind := world }, behind)

/-- The results of the reference scorer for a request. -/
def referenceResults (fallback : ReferenceScorer) (q : Request) : List (ScoreResult σ) :=
  q.texts.map fun text => fallback.score q.query.toList text.toList

end Ranker

/-- Whether a run of a command tries a program. -/
def Call.isTrial (call : Call) : Bool :=
  call.args.tail = ["--version"]

namespace Filter

open Ranker (Request)

/-- The filter that is at hand in a world: one that was found and that answered when it was tried. It
is looked for and tried now unless that has been done. -/
def atHand (f : Filter) (w : World) : Option String :=
  let (works, f) := (f.probe w).1
  if works then f.path else none

/-- What the filter at a path prints for a request, if it answers. -/
def printed (f : Filter) (program : String) (q : Request) : Action (Option String) :=
  World.output (request program q.query) (some f.timeout) none
    (some (String.intercalate "\x00" q.texts)) [0, 1]

/-- The filter fails a request: none is at hand, or it does not answer for the texts. -/
def FailsAt (f : Filter) (q : Request) : Prop :=
  f.atHand q.world = none ∨ ∃ program, f.atHand q.world = some program ∧ q.texts ≠ [] ∧
    (f.printed program q (f.probe q.world).2).1 = .ok none

/-- The filter is run for a request and may take longer than the system waits. -/
def Overruns (f : Filter) (q : Request) (failure : Failure) : Prop :=
  ∃ program, f.atHand q.world = some program ∧ q.texts ≠ [] ∧
    (f.printed program q (f.probe q.world).2).1 = .error failure

/-- The results of a request are what the filter printed for it. -/
def Ranks (f : Filter) (q : Request) (results : List (ScoreResult σ)) : Prop :=
  ∃ program, f.atHand q.world = some program ∧
    (q.texts = [] ∧ results = [] ∨ ∃ output,
      (f.printed program q (f.probe q.world).2).1 = .ok (some output) ∧
        results = readOutput output q.texts)

/-- The filter is not asked any more. -/
def IsOut (f : Filter) : Prop :=
  f.available = some false ∨ f.available = some true ∧ f.path = none

variable {f : Filter} {w : World}

/-! ### Looking for the filter -/

/-- Looking for the filter runs nothing. -/
theorem calls_find (f : Filter) (w : World) : (f.find w).2.calls = w.calls := by
  rw [find, bind_run]
  have hget : (MonadState.get : StateM World World) w = (w, w) := rfl
  rw [hget]
  cases f.configuredPath.filter (· ≠ "") with
  | none => rfl
  | some configured =>
    dsimp only
    split
    · rfl
    · rfl

/-- A filter that has been looked for is not looked for again. -/
theorem probe_of_known {known : Bool} (h : f.available = some known) (w : World) :
    f.probe w = ((known, f), w) := by
  unfold probe
  rw [h]
  rfl

/-- A filter is found and, if there is one, tried. -/
theorem probe_of_untried (h : f.available = none) (w : World) : f.probe w =
    match f.find w with
    | (none, w) => ((false, { f with path := none, available := some false }), w)
    | (some program, w) =>
      let (output, w) := (World.output [program, "--version"] (some trialSeconds)).orElse none w
      ((output.isSome, { f with path := some program, available := some output.isSome }), w) := by
  unfold probe
  rw [h]
  dsimp only
  rw [bind_run]
  rcases f.find w with ⟨path, w'⟩
  cases path with
  | none => rfl
  | some program => rfl

/-- Looking for the filter runs at most one command, and none if that has been done. What comes of it
is known from then on. -/
theorem probe_spec (f : Filter) (w : World) :
    (f.probe w).1.2.available = some (f.probe w).1.1 ∧ (f.probe w).1.2.timeout = f.timeout ∧
      ∃ made, (f.probe w).2.calls = made ++ w.calls ∧
        made.length ≤ if f.available = none then 1 else 0 := by
  -- A filter that is known is not tried again; one that is not costs a trial if it is found.
  cases h : f.available with
  | some known =>
    rw [probe_of_known h]
    exact ⟨h, rfl, [], rfl, Nat.zero_le _⟩
  | none =>
    have hcalls := calls_find f w
    rw [probe_of_untried h]
    rcases hfind : f.find w with ⟨_ | program, w'⟩
    · rw [hfind] at hcalls
      exact ⟨rfl, rfl, [], hcalls, Nat.zero_le _⟩
    · rw [hfind] at hcalls
      have houtput := calls_output [program, "--version"] (some trialSeconds) none none [0] w'
      rw [show w'.calls = w.calls from hcalls, ← Action.snd_orElse _ none] at houtput
      exact ⟨rfl, rfl, [_], houtput, le_rfl⟩

/-- Where no filter is at hand, there is none from then on. -/
theorem isOut_probe (h : f.atHand w = none) : (f.probe w).1.2.IsOut := by
  have hknown := (f.probe_spec w).1
  rw [atHand] at h
  rcases hprobe : (f.probe w).1 with ⟨_ | _, g⟩
  · rw [hprobe] at hknown
    exact .inl hknown
  · rw [hprobe] at hknown h
    exact .inr ⟨hknown, h⟩

/-- A filter that is out is not looked for. -/
theorem IsOut.probe (h : f.IsOut) (w : World) :
    (f.probe w).1.2 = f ∧ (f.probe w).2 = w ∧ f.atHand w = none := by
  rcases h with h | ⟨h, hpath⟩
  · rw [atHand, probe_of_known h]
    exact ⟨rfl, rfl, rfl⟩
  · rw [atHand, probe_of_known h]
    exact ⟨rfl, rfl, hpath⟩

/-! ### Asking the filter -/

/-- A request to the filter runs one command, which is no trial. -/
theorem calls_printed (f : Filter) (program : String) (q : Request) (w : World) :
    ∃ call, call.isTrial = false ∧ (f.printed program q w).2.calls = call :: w.calls :=
  ⟨_, by simp [Call.isTrial, request], calls_output _ _ _ _ _ w⟩

/-- What comes of asking a filter. -/
theorem scoreMany_eq (f : Filter) (q : Request) (w : World) :
    f.scoreMany (σ := σ) q.query q.texts w =
      let g := (f.probe w).1.2
      match f.atHand w with
      | none => ((.error .filterMissing, g), (f.probe w).2)
      | some program =>
        if q.texts = [] then ((.ok [], g), (f.probe w).2)
        else match f.printed program q (f.probe w).2 with
          | (.ok none, w) => ((.error .filterFailed, { g with available := some false }), w)
          | (.ok (some output), w) => ((.ok (readOutput output q.texts), g), w)
          | (.error failure, w) => ((.error failure, g), w) := by
  have htimeout := (f.probe_spec w).2.1
  rw [scoreMany, bind_run, atHand]
  -- The probe decides first, then the texts; what is printed is read only behind both.
  rcases hprobe : f.probe w with ⟨⟨_ | _, g⟩, w'⟩
  · rfl
  · dsimp only
    rw [if_pos rfl]
    cases hpath : g.path with
    | none => rfl
    | some program =>
      dsimp only
      by_cases htexts : q.texts = []
      · rw [if_pos htexts, htexts]
        rfl
      · rw [hprobe] at htimeout
        rw [if_neg htexts, if_neg (by simpa using htexts), bind_run, printed, ← htimeout]
        rw [ExceptT.run]
        rcases World.output (request program q.query) _ _ _ _ w' with ⟨failure | _ | output, w''⟩
        · rfl
        · rfl
        · rfl

/-- A filter that has been looked for is not looked for again. -/
theorem scoreMany_probe (f : Filter) (query : String) (texts : List String) (w : World) :
    (f.probe w).1.2.scoreMany (σ := σ) query texts (f.probe w).2 = f.scoreMany query texts w := by
  rw [scoreMany, scoreMany, bind_run, bind_run, probe_of_known (f.probe_spec w).1]

end Filter

namespace Ranker

variable {f : Filter} {fallback : ReferenceScorer} {q : Request}

/-- A ranker gives the results of its filter, and those of the reference scorer where the filter is of no
use. -/
theorem scoreMany_filter (f : Filter) (fallback : ReferenceScorer) (q : Request) (w : World) :
    scoreMany (σ := σ) ⟨.filter f, fallback⟩ q.query q.texts w =
      match f.scoreMany q.query q.texts w with
      | ((.ok results, f), w) => ((.ok results, ⟨.filter f, fallback⟩), w)
      | ((.error failure, f), w) => ((if failure.kind = .filter then .ok (referenceResults fallback q)
          else .error failure, ⟨.filter f, fallback⟩), w) := by
  have hprobe : (Scorer.filter f).probe w
      = (((f.probe w).1.1, .filter (f.probe w).1.2), (f.probe w).2) := rfl
  have hknown := (f.probe_spec w).1
  rw [scoreMany, bind_run, hprobe, ← f.scoreMany_probe]
  -- The ranker probes before the filter does; the second probe only reads off the first.
  rcases hprobed : f.probe w with ⟨⟨works, g⟩, w'⟩
  rw [hprobed] at hknown
  cases works with
  | false =>
    rw [Filter.scoreMany, bind_run, Filter.probe_of_known hknown]
    rfl
  | true =>
    have hscore : (Scorer.filter g).scoreMany (σ := σ) q.query q.texts w'
        = (((g.scoreMany q.query q.texts w').1.1, .filter (g.scoreMany (σ := σ) q.query q.texts w').1.2),
          (g.scoreMany (σ := σ) q.query q.texts w').2) := rfl
    dsimp only
    rw [if_pos rfl, bind_run, hscore]
    rcases g.scoreMany (σ := σ) q.query q.texts w' with ⟨⟨failure | results, g'⟩, w''⟩
    · rfl
    · rfl

/-- What comes of a request to a ranker with a filter. -/
theorem reply_filter (f : Filter) (fallback : ReferenceScorer) (q : Request) :
    (Ranker.mk (.filter f) fallback).reply (σ := σ) q =
      let r : Ranker := ⟨.filter f, fallback⟩
      let g := (f.probe q.world).1.2
      let w := (f.probe q.world).2
      match f.atHand q.world with
      | none => (⟨q, r, .ok (referenceResults fallback q), w⟩, ⟨.filter g, fallback⟩)
      | some program =>
        if q.texts = [] then (⟨q, r, .ok [], w⟩, ⟨.filter g, fallback⟩)
        else match f.printed program q w with
          | (.ok none, w) => (⟨q, r, .ok (referenceResults fallback q), w⟩,
              ⟨.filter { g with available := some false }, fallback⟩)
          | (.ok (some output), w) => (⟨q, r, .ok (Filter.readOutput output q.texts), w⟩,
              ⟨.filter g, fallback⟩)
          | (.error failure, w) => (⟨q, r, .error failure, w⟩, ⟨.filter g, fallback⟩) := by
  rw [reply, scoreMany_filter, Filter.scoreMany_eq]
  cases f.atHand q.world with
  | none => rfl
  | some program =>
    dsimp only
    by_cases htexts : q.texts = []
    · rw [if_pos htexts, if_pos htexts]
    · rw [if_neg htexts, if_neg htexts]
      rcases hprinted : f.printed program q (f.probe q.world).2 with ⟨failure | _ | output, w⟩
      · -- A refused wait is none of the failures for which the reference scorer steps in.
        have hkind : failure.kind ≠ .filter := by
          have hwait := (output_eq_error_iff _ _ _ _ _).mp (congrArg Prod.fst hprinted)
          rw [kind_of_waitFailure _ hwait.1]
          nofun
        dsimp only
        rw [if_neg hkind]
      · rfl
      · rfl

/-- A request to a ranker with a filter runs at most one trial, and none if the filter has been tried.
It is answered by the filter; or that fails, is out from then on, and the reference scorer answers; or
it fails, since the filter may take longer than the system waits. -/
theorem reply_spec (f : Filter) (fallback : ReferenceScorer) (q : Request) :
    ∃ a g made, (Ranker.mk (.filter f) fallback).reply (σ := σ) q = (a, ⟨.filter g, fallback⟩) ∧
      a.request = q ∧ a.ranker = ⟨.filter f, fallback⟩ ∧ g.available ≠ none ∧
      g.timeout = f.timeout ∧ a.behind.calls = made ++ q.world.calls ∧
      made.countP Call.isTrial ≤ (if f.available = none then 1 else 0) ∧
      (f.FailsAt q ∧ g.IsOut ∧ a.results = .ok (referenceResults fallback q) ∨
        (∃ results, ¬ f.FailsAt q ∧ a.results = .ok results ∧ f.Ranks q results) ∨
        ∃ failure, f.Overruns q failure ∧ a.results = .error failure) := by
  obtain ⟨hknown, htimeout, made, hmade, hlength⟩ := f.probe_spec q.world
  have hprobed : (f.probe q.world).1.2.available ≠ none := by
    rw [hknown]
    exact Option.some_ne_none _
  have htrials := (List.countP_le_length (p := Call.isTrial)).trans hlength
  rw [reply_filter]
  cases hatHand : f.atHand q.world with
  | none =>
    have hfails : f.FailsAt q := .inl hatHand
    exact ⟨_, _, made, rfl, rfl, rfl, hprobed, htimeout, hmade, htrials,
      .inl ⟨hfails, Filter.isOut_probe hatHand, rfl⟩⟩
  | some program =>
    dsimp only
    -- Nothing to rank: the filter is probed and not run.
    by_cases htexts : q.texts = []
    · rw [if_pos htexts]
      refine ⟨_, _, made, rfl, rfl, rfl, hprobed, htimeout, hmade, htrials,
        .inr (.inl ⟨[], ?_, rfl, program, hatHand, .inl ⟨htexts, rfl⟩⟩)⟩
      rintro (hnone | ⟨_, -, hne, -⟩)
      · exact absurd (hatHand.symm.trans hnone) (Option.some_ne_none program)
      · exact hne htexts
    · rw [if_neg htexts]
      obtain ⟨call, hcall, hcalls⟩ := f.calls_printed program q (f.probe q.world).2
      rw [hmade, ← List.cons_append] at hcalls
      have htrials : (call :: made).countP Call.isTrial ≤ if f.available = none then 1 else 0 := by
        rwa [List.countP_cons_of_neg (by rw [hcall]; exact Bool.false_ne_true)]
      -- The run fails beyond its catch, fails and puts the filter out, or prints a ranking.
      rcases hprinted : f.printed program q (f.probe q.world).2 with ⟨failure | _ | output, w⟩
      · rw [hprinted] at hcalls
        exact ⟨_, _, call :: made, rfl, rfl, rfl, hprobed, htimeout, hcalls, htrials,
          .inr (.inr ⟨failure, ⟨program, hatHand, htexts, congrArg Prod.fst hprinted⟩, rfl⟩)⟩
      · have hfails : f.FailsAt q := .inr ⟨program, hatHand, htexts, congrArg Prod.fst hprinted⟩
        rw [hprinted] at hcalls
        exact ⟨_, _, call :: made, rfl, rfl, rfl, Option.some_ne_none _, htimeout, hcalls, htrials,
          .inl ⟨hfails, .inl rfl, rfl⟩⟩
      · rw [hprinted] at hcalls
        refine ⟨_, _, call :: made, rfl, rfl, rfl, hprobed, htimeout, hcalls, htrials,
          .inr (.inl ⟨_, ?_, rfl, program, hatHand, .inr ⟨output, congrArg Prod.fst hprinted, rfl⟩⟩)⟩
        rintro (hnone | ⟨other, hother, -, hnone⟩)
        · exact absurd (hatHand.symm.trans hnone) (Option.some_ne_none program)
        · obtain rfl := Option.some.inj (hatHand.symm.trans hother)
          rw [hprinted] at hnone
          cases hnone

/-- A ranker that fails a request: its filter is asked, and may take longer than the system waits. -/
def Overruns (r : Ranker) (q : Request) : Prop :=
  ∃ f failure, r.primary = .filter f ∧ f.Overruns q failure

/-- **When scoring fails**: just if the filter is asked and may take longer than the system waits. -/
theorem fails_scoreMany_iff (r : Ranker) (q : Request) :
    Fails (r.scoreMany (σ := σ) q.query q.texts q.world).1.1 ↔ r.Overruns q := by
  obtain ⟨primary, fallback⟩ := r
  cases primary with
  | reference s => exact iff_of_false (not_fails_ok _) (by rintro ⟨_, _, ⟨⟩, _⟩)
  | edits s => exact iff_of_false (not_fails_ok _) (by rintro ⟨_, _, ⟨⟩, _⟩)
  | filter f =>
    obtain ⟨a, g, -, hreply, -, -, -, -, -, -, houtcome⟩ := reply_spec (σ := σ) f fallback q
    have hresults : (Ranker.scoreMany (σ := σ) ⟨.filter f, fallback⟩ q.query q.texts q.world).1.1
        = a.results := congrArg (·.1.results) hreply
    rw [hresults]
    -- The three outcomes of a reply exclude each other, so the failing one is this one.
    constructor
    · rintro ⟨failure, hfails⟩
      rcases houtcome with ⟨-, -, hok⟩ | ⟨results, -, hok, -⟩ | ⟨failure', hoverruns, -⟩
      · cases hok.symm.trans hfails
      · cases hok.symm.trans hfails
      · exact ⟨f, failure', rfl, hoverruns⟩
    · rintro ⟨f', failure, hf, program, hatHand, htexts, hprinted⟩
      obtain rfl := Scorer.filter.inj hf
      rcases houtcome with ⟨hfails | ⟨program', hatHand', -, hnone⟩, -⟩ |
        ⟨results, -, -, program', hatHand', ⟨hempty, -⟩ | ⟨output, hsome, -⟩⟩ | ⟨failure', -, herror⟩
      · cases hfails.symm.trans hatHand
      · obtain rfl := Option.some.inj (hatHand.symm.trans hatHand')
        cases hprinted.symm.trans hnone
      · exact absurd hempty htexts
      · obtain rfl := Option.some.inj (hatHand.symm.trans hatHand')
        cases hprinted.symm.trans hsome
      · exact ⟨failure', herror⟩

/-- There is one result for each text, whatever scorer comes first. -/
theorem length_results_reply (r : Ranker) (q : Request) {results : List (ScoreResult σ)}
    (h : (r.reply q).1.results = .ok results) : results.length = q.texts.length := by
  obtain ⟨primary, fallback⟩ := r
  cases primary with
  | reference s =>
    rw [← Except.ok.inj h]
    exact List.length_map _
  | edits s =>
    rw [← Except.ok.inj h]
    exact List.length_map _
  | filter f =>
    obtain ⟨a, g, -, hreply, -, -, -, -, -, -, houtcome⟩ := reply_spec (σ := σ) f fallback q
    rw [hreply] at h
    -- The fallback scores every text, and a printed ranking gives the others no match.
    rcases houtcome with ⟨-, -, hok⟩ | ⟨found, -, hok, hranks⟩ | ⟨failure, -, herror⟩
    · rw [← Except.ok.inj (hok.symm.trans h)]
      exact List.length_map _
    · rw [← Except.ok.inj (hok.symm.trans h)]
      obtain ⟨program, -, ⟨htexts, rfl⟩ | ⟨output, -, rfl⟩⟩ := hranks
      · rw [htexts]
        rfl
      · exact Filter.length_readOutput output q.texts
    · cases herror.symm.trans h

end Ranker

end ShellAssist
