import ShellAssist.Completion.Completer
import ShellAssist.Proofs.Completion.Cache

namespace ShellAssist.Completion

/-!
# When a completer asks

A completer looks a request up in its cache. It gives an answer that is still good as it is, and asks
its source and its history in every other case.

* `Completer.consult`, `Completer.settle`, `Completer.arranged` — asking, and making an answer of what
  was found;
* `Completer.Run`, `Completer.cache_of_run` — what the calls of a completer do to its cache;
* `Completer.AsksUnlessFresh` — a completer asks just if it holds no fresh answer;
* `Completer.isTimedMap_and_asksUnlessFresh` — that this and the rules of the cache hold of every run.
-/

open Number (Double)

namespace Completer

/-- Asks the source, and then the history, for the candidates of a request. -/
def consult (c : Completer) (word : String) (context : Line.Context) (w : World) :
    Step (List Candidate) :=
  match c.sourceCandidates context w with
  | ((.error failure, c), w) => (.error failure, c, w)
  | ((.ok found, c), w) =>
    match c.recalled word context w with
    | (.error failure, c) => (.error failure, c, w)
    | (.ok remembered, c) => (.ok (found ++ remembered), c, w)

/-- The answer made of the candidates that were found, put into the cache. Until it is put there, time
may pass. -/
def settle (c : Completer) (word : String) (context : Line.Context) (candidates : List Candidate)
    (w : World) : Step (List Candidate) :=
  match c.order word candidates w with
  | ((.error failure, c), w) => (.error failure, c, w)
  | ((.ok ordered, c), w) =>
    let answer := truncate c.config.maxSuggestions ordered
    let cache := c.cache.put w.later.clock (CacheKey.ofContext word context) answer
    (.ok answer, { c with cache }, w.later)

/-- The candidates that were found, in the order of the answer and as many as are wanted. -/
def arranged (c : Completer) (word : String) (candidates : List Candidate) (w : World) :
    Except Failure (List Candidate) :=
  (c.order word candidates w).1.1.map (truncate c.config.maxSuggestions)

variable {c : Completer} {word : String} {context : Line.Context} {w : World}

/-- An answer is made in two steps. -/
theorem compute_eq (c : Completer) (word : String) (context : Line.Context) (w : World) :
    c.compute word context w = match c.consult word context w with
      | (.error failure, c, w) => (.error failure, c, w)
      | (.ok candidates, c, w) => c.settle word context candidates w := by
  unfold compute consult settle
  rcases c.sourceCandidates context w with ⟨⟨failure | found, c⟩, w⟩
  · rfl
  · dsimp only
    rcases c.recalled word context w with ⟨failure | remembered, c⟩ <;> rfl

/-- What the history gives does not depend on the source, or on the commands that were run. -/
theorem fst_recalled_of_runs (c : Completer) (source : Source) (word : String)
    (context : Line.Context) (w : World) (commands : List (List String × Outcome))
    (calls : List Call) :
    ({ c with source }.recalled word context { w with commands, calls }).1
      = (c.recalled word context w).1 := by
  unfold recalled
  split <;> rfl

/-- Where the source does not fail, the history is asked. -/
theorem fst_consult_of_source {found : List Candidate} {asked : Completer} {w' : World}
    (h : c.sourceCandidates context w = ((.ok found, asked), w')) :
    (c.consult word context w).1 = (asked.recalled word context w').1.map fun remembered =>
      found ++ remembered := by
  rw [consult, h]
  dsimp only
  rcases asked.recalled word context w' with ⟨failure | remembered, recalling⟩ <;> rfl

/-- Asking changes neither the settings nor the cache. -/
theorem consult_keeps (c : Completer) (word : String) (context : Line.Context) (w : World) :
    (c.consult word context w).2.1.config = c.config ∧
      (c.consult word context w).2.1.cache = c.cache := by
  -- The two halves touch other fields: the source is replaced by the first, the archive by the
  -- second.
  have hsource : (c.sourceCandidates context w).1.2.config = c.config ∧
      (c.sourceCandidates context w).1.2.cache = c.cache := by
    unfold sourceCandidates
    split <;> exact ⟨rfl, rfl⟩
  have hrecalled (c : Completer) (w : World) : (c.recalled word context w).2.config = c.config ∧
      (c.recalled word context w).2.cache = c.cache := by
    unfold recalled
    split <;> exact ⟨rfl, rfl⟩
  unfold consult
  rcases hfound : c.sourceCandidates context w with ⟨⟨failure | found, c'⟩, w'⟩
  · rw [hfound] at hsource
    exact hsource
  · rw [hfound] at hsource
    have hrecalled := hrecalled c' w'
    dsimp only
    rcases hremembered : c'.recalled word context w' with ⟨failure | remembered, c''⟩ <;>
      rw [hremembered] at hrecalled <;>
      exact ⟨hrecalled.1.trans hsource.1, hrecalled.2.trans hsource.2⟩

/-- Ordering candidates changes only the ranker. -/
theorem exists_ranker_order (c : Completer) (word : String) (candidates : List Candidate) (w : World) :
    ∃ ranker, (c.order word candidates w).1.2 = { c with ranker } := by
  unfold order
  split
  · split <;> exact ⟨_, rfl⟩
  · exact ⟨_, rfl⟩

/-- What candidates are ordered to does not depend on the cache. -/
theorem arranged_withCache (c : Completer) (cache : Cache CacheKey (List Candidate) Double)
    (word : String) (candidates : List Candidate) (w : World) :
    { c with cache }.arranged word candidates w = c.arranged word candidates w := by
  unfold arranged order
  dsimp only
  split
  · split <;> rfl
  · rfl

/-- The answer that is made is held from then on, if there is one. Making it changes neither the source
nor the history. -/
theorem settle_spec (c : Completer) (word : String) (context : Line.Context)
    (candidates : List Candidate) (w : World) :
    ∃ given w', c.settle word context candidates w = (c.arranged word candidates w, given, w') ∧
      given.source = c.source ∧ given.history = c.history ∧ given.config = c.config ∧
      given.cache = match c.arranged word candidates w with
        | .ok answer => c.cache.put w'.clock (CacheKey.ofContext word context) answer
        | .error _ => c.cache := by
  obtain ⟨ranker, hranker⟩ := c.exists_ranker_order word candidates w
  unfold settle arranged
  rcases horder : c.order word candidates w with ⟨⟨failure | ordered, c'⟩, w'⟩
  · rw [horder] at hranker
    obtain rfl : c' = { c with ranker } := hranker
    exact ⟨_, _, rfl, rfl, rfl, rfl, rfl⟩
  · rw [horder] at hranker
    obtain rfl : c' = { c with ranker } := hranker
    exact ⟨_, _, rfl, rfl, rfl, rfl, rfl⟩

/-- What a request does to the cache: it looks its key up and, if it found nothing and made an answer,
puts that in. -/
def requestMoments (c : Completer) (word : String) (context : Line.Context) (w : World) :
    List (Cache.Moment CacheKey (List Candidate) Double) :=
  let key := CacheKey.ofContext word context
  match (c.cache.get w.clock key).1, c.getCompletions word context w with
  | none, (.ok answer, _, w') => [⟨.put key answer, w'.clock⟩, ⟨.get key, w.clock⟩]
  | _, _ => [⟨.get key, w.clock⟩]

/-- What requests and other calls do to a completer and, the latest first, to its cache. Each call
finds the world as it is then. -/
inductive Run (start : Completer) :
    List (Cache.Moment CacheKey (List Candidate) Double) → Completer → Prop
  | start : Run start [] start
  | request {past : List (Cache.Moment CacheKey (List Candidate) Double)} {c : Completer}
      (behind : Run start past c) (word : String) (context : Line.Context) (w : World) :
      Run start (c.requestMoments word context w ++ past) (c.getCompletions word context w).2.1
  | historySearch {past : List (Cache.Moment CacheKey (List Candidate) Double)} {c : Completer}
      (behind : Run start past c) (text : String) (limit : Option Int) (w : World) :
      Run start past (c.historySearch text limit w).2
  | clearCache {past : List (Cache.Moment CacheKey (List Candidate) Double)} {c : Completer}
      (behind : Run start past c) (w : World) : Run start (⟨.clear, w.clock⟩ :: past) c.clearCache

/-- A completer asks its source and its history just if it holds no fresh answer. -/
structure AsksUnlessFresh (c : Completer) : Prop where
  /-- A fresh answer is given as it is. Nothing is asked, and the world stays as it is. -/
  gives_fresh : ∀ word context w answer time,
    c.cache.held (CacheKey.ofContext word context) = some (answer, time) →
    w.clock - time < c.config.cacheTtl →
    c.getCompletions word context w = (.ok answer,
      { c with cache := (c.cache.get w.clock (CacheKey.ofContext word context)).2 }, w)
  /-- Else the source and the history are asked, and are left as that leaves them. A failure of either
  is the failure of the request; else the answer is what the candidates that they gave are ordered to. -/
  asks : ∀ word context w,
    (∀ answer time, c.cache.held (CacheKey.ofContext word context) = some (answer, time) →
      ¬ w.clock - time < c.config.cacheTtl) →
    let consulted := c.consult word context w
    (c.getCompletions word context w).2.1.source = consulted.2.1.source ∧
      (c.getCompletions word context w).2.1.history = consulted.2.1.history ∧
      (c.getCompletions word context w).1 = consulted.1.bind fun candidates =>
        consulted.2.1.arranged word candidates consulted.2.2
  /-- An answer that was asked for is held, as put in at the clock's reading then. -/
  holds : ∀ word context w answer,
    (∀ answer time, c.cache.held (CacheKey.ofContext word context) = some (answer, time) →
      ¬ w.clock - time < c.config.cacheTtl) →
    (c.getCompletions word context w).1 = .ok answer →
    (c.getCompletions word context w).2.1.cache.held (CacheKey.ofContext word context)
      = some (answer, (c.getCompletions word context w).2.2.clock)

/-! ### Requests -/

/-- Asking does not depend on the cache. -/
theorem consult_withCache (c : Completer) (cache : Cache CacheKey (List Candidate) Double)
    (word : String) (context : Line.Context) (w : World) :
    { c with cache }.consult word context w = ((c.consult word context w).1,
      { (c.consult word context w).2.1 with cache }, (c.consult word context w).2.2) := by
  -- Neither half reads the cache, so another one only has to be carried along.
  have hsource : { c with cache }.sourceCandidates context w
      = (((c.sourceCandidates context w).1.1, { (c.sourceCandidates context w).1.2 with cache }),
        (c.sourceCandidates context w).2) := by
    unfold sourceCandidates
    split <;> rfl
  have hrecalled (c : Completer) (w : World) : { c with cache }.recalled word context w
      = ((c.recalled word context w).1, { (c.recalled word context w).2 with cache }) := by
    unfold recalled
    split <;> rfl
  unfold consult
  rw [hsource]
  rcases c.sourceCandidates context w with ⟨⟨failure | found, c'⟩, w'⟩
  · rfl
  · dsimp only
    rw [hrecalled]
    rcases c'.recalled word context w' with ⟨failure | remembered, c''⟩ <;> rfl

/-- What the cache gives is the answer. -/
theorem getCompletions_of_get {answer : List Candidate}
    (h : (c.cache.get w.clock (CacheKey.ofContext word context)).1 = some answer) :
    c.getCompletions word context w = (.ok answer,
      { c with cache := (c.cache.get w.clock (CacheKey.ofContext word context)).2 }, w) := by
  unfold getCompletions
  rcases hget : c.cache.get w.clock (CacheKey.ofContext word context) with ⟨found, cache⟩
  rw [hget] at h
  obtain rfl : found = some answer := h
  rfl

/-- Where the cache gives nothing, the request fails as asking does, or an answer is made of what that
finds and, if that does not fail, put in. -/
theorem getCompletions_of_get_none
    (h : (c.cache.get w.clock (CacheKey.ofContext word context)).1 = none) :
    let consulted := c.consult word context w
    let result := consulted.1.bind fun candidates =>
      consulted.2.1.arranged word candidates consulted.2.2
    ∃ given w', c.getCompletions word context w = (result, given, w') ∧
      given.source = consulted.2.1.source ∧ given.history = consulted.2.1.history ∧
      given.config = consulted.2.1.config ∧
      given.cache = match result with
        | .ok answer => (c.cache.get w.clock (CacheKey.ofContext word context)).2.put w'.clock
            (CacheKey.ofContext word context) answer
        | .error _ => (c.cache.get w.clock (CacheKey.ofContext word context)).2 := by
  unfold getCompletions
  rcases hget : c.cache.get w.clock (CacheKey.ofContext word context) with ⟨found, cache⟩
  rw [hget] at h
  obtain rfl : found = none := h
  dsimp only
  rw [compute_eq, consult_withCache c cache]
  rcases c.consult word context w with ⟨failure | candidates, asked, w'⟩
  · exact ⟨_, _, rfl, rfl, rfl, rfl, rfl⟩
  · obtain ⟨given, w'', hgiven, hsource, hhistory, hconfig, hcache⟩ :=
      settle_spec { asked with cache } word context candidates w'
    rw [arranged_withCache] at hgiven hcache
    exact ⟨given, w'', hgiven, hsource, hhistory, hconfig, hcache⟩

/-- A request does to the cache what its moments say, and leaves the settings alone. -/
theorem after_requestMoments (c : Completer) (word : String) (context : Line.Context) (w : World) :
    (c.getCompletions word context w).2.1.config = c.config ∧
      (c.getCompletions word context w).2.1.cache
        = c.cache.after (c.requestMoments word context w) := by
  obtain ⟨hconfig, -⟩ := c.consult_keeps word context w
  unfold requestMoments
  dsimp only
  cases hget : (c.cache.get w.clock (CacheKey.ofContext word context)).1 with
  | some answer =>
    rw [getCompletions_of_get hget]
    exact ⟨rfl, rfl⟩
  | none =>
    obtain ⟨given, w', hgiven, -, -, hgivenConfig, hcache⟩ := getCompletions_of_get_none hget
    rw [hgiven]
    refine ⟨hgivenConfig.trans hconfig, hcache.trans ?_⟩
    generalize Except.bind _ _ = result
    cases result <;> rfl

/-- What the last of two steps gives whatever the first gave, both together give. -/
theorem fst_bind {α β : Type} {P : β → Prop} {step : StateM World α} {next : α → StateM World β}
    (h : ∀ x w, P (next x w).1) (w : World) : P ((step >>= next) w).1 :=
  h _ _

/-- Whether a completer has these settings and an empty cache made by them. -/
def IsNew (config : Config) (c : Completer) : Prop :=
  c.config = config ∧ c.cache = { ttl := config.cacheTtl }

/-- A completer is made new. -/
theorem isNew_create (config : Config) (env : Option Environment) (source : Option Source)
    (history : Option History.Archive) (w : World) :
    IsNew config (create config env source history w).1 := by
  unfold create
  refine fst_bind (fun _ w => ?_) w
  -- Whatever the source, the history and the ranker come to, they end in the same step.
  cases source <;> cases history <;>
    exact fst_bind (fun _ w => fst_bind (fun _ w => fst_bind (fun _ _ => ⟨rfl, rfl⟩) w) w) w

/-- The cache of a completer behind every run is the one behind the moments of its calls. -/
theorem cache_of_run {config : Config} {start : Completer} (hstart : IsNew config start)
    {past : List (Cache.Moment CacheKey (List Candidate) Double)} (h : Run start past c) :
    c.config = config ∧ c.cache = Cache.afterRun config.cacheTtl 512 past := by
  induction h with
  | start => exact hstart
  | @request past c behind word context w ih =>
    obtain ⟨hconfig, hafter⟩ := c.after_requestMoments word context w
    refine ⟨hconfig.trans ih.1, ?_⟩
    rw [hafter, ih.2]
    exact (Cache.after_append _ _ _).symm
  | historySearch behind text limit w ih => exact ih
  | clearCache behind w ih =>
    refine ⟨ih.1, ?_⟩
    rw [clearCache, ih.2]
    rfl

/-- A completer whose answers are good for as long as its settings say asks just if it holds no fresh
answer. -/
theorem asksUnlessFresh (hmaxSize : 1 ≤ c.cache.maxSize)
    (httl : c.cache.ttl = c.config.cacheTtl) : c.AsksUnlessFresh := by
  refine ⟨?_, ?_, ?_⟩
  -- A fresh answer is given back before anything is asked.
  · intro word context w answer time hheld hfresh
    refine getCompletions_of_get ?_
    rw [Cache.get_fst, Cache.fresh_eq_some_iff.mpr ⟨hheld, httl ▸ hfresh⟩]
    rfl
  · intro word context w hstale
    have hnone := Cache.get_eq_none_iff.mpr (httl ▸ hstale)
    obtain ⟨given, w', hgiven, hsource, hhistory, -⟩ := getCompletions_of_get_none hnone
    rw [hgiven]
    exact ⟨hsource, hhistory, rfl⟩
  -- What is put in is what is given; the bound on the size survives the look-up before it.
  · intro word context w answer hstale hanswer
    have hnone := Cache.get_eq_none_iff.mpr (httl ▸ hstale)
    have hmaxSize := le_of_le_of_eq hmaxSize
      (c.cache.step_settings ⟨.get (CacheKey.ofContext word context), w.clock⟩).2.symm
    obtain ⟨given, w', hgiven, -, -, -, hcache⟩ := getCompletions_of_get_none hnone
    rw [hgiven] at hanswer ⊢
    rw [show Except.bind _ _ = .ok answer from hanswer] at hcache
    rw [hcache]
    exact Cache.held_put_self hmaxSize _ _ _

/-- **A cache is a timed map, and a completer asks its source and its history just if its cache, which
is one, holds no fresh answer.** -/
theorem isTimedMap_and_asksUnlessFresh {κ α : Type} [DecidableEq κ] (ttl : Double) {maxSize : Int}
    (hmaxSize : 1 ≤ maxSize) (past : List (Cache.Moment κ α Double)) {config : Config}
    {env : Option Environment} {source : Option Source} {history : Option History.Archive}
    {w : World} {requests : List (Cache.Moment CacheKey (List Candidate) Double)}
    (hrun : Run (create config env source history w).1 requests c) :
    Cache.IsTimedMap ttl maxSize past ∧
      c.cache = Cache.afterRun config.cacheTtl 512 requests ∧
      c.config = config ∧ c.AsksUnlessFresh := by
  obtain ⟨hconfig, hcache⟩ := cache_of_run (isNew_create config env source history w) hrun
  obtain ⟨httl, hmax⟩ := Cache.after_settings
    ({ ttl := config.cacheTtl, maxSize := 512 } : Cache CacheKey (List Candidate) Double) requests
  refine ⟨Cache.isTimedMap_after hmaxSize past, hcache, hconfig, asksUnlessFresh ?_ ?_⟩
  · rw [hcache]
    exact le_of_le_of_eq (show (1 : Int) ≤ 512 by decide) hmax.symm
  · rw [hcache, hconfig]
    exact httl

/-- A cache with room for one answer behind a put, and a completer behind two requests for the same
word. -/
theorem isTimedMap_and_asksUnlessFresh_of_two_requests :
    let put : Cache.Moment String (List String) Double := ⟨.put "k" [], 5⟩
    let context : Line.Context := Line.classify "ls" none "/work" none
    let start := (create { completionBackend := some "generic", fuzzyBackend := some "subsequence" }
      (some []) (some (.fixed { candidates := .ok [] })) none {}).1
    let once := (start.getCompletions "ls" context {}).2.1
    let twice := (once.getCompletions "ls" context {}).2.1
    Cache.IsTimedMap 300 1 [put] ∧ twice.AsksUnlessFresh := by
  intro put context start once twice
  obtain ⟨htimed, -, -, hasks⟩ := isTimedMap_and_asksUnlessFresh 300 (show (1 : Int) ≤ 1 by decide)
    [put] ((Run.start.request "ls" context {}).request "ls" context {})
  exact ⟨htimed, hasks⟩

end Completer

end ShellAssist.Completion
