namespace ShellAssist.Completion

/-!
# A cache with a time to live

Answers by their keys, each good for a fixed time after it was put in. Expiry is noticed when a key
is looked up. A full cache makes room for a new key by dropping the answer that was put in first.

The cache is over any type of clock readings with a difference and an order.
-/

/-- An answer in the cache. -/
structure Cached (α τ : Type) where
  value : α
  insertedAt : τ
  /-- How often it was given. -/
  hits : Nat := 0

/-- Answers of type `α` by keys of type `κ`, with clock readings of type `τ`. -/
structure Cache (κ α τ : Type) where
  ttl : τ
  /-- The most answers kept. -/
  maxSize : Int := 512
  /-- In the order in which their keys came in. -/
  entries : List (κ × Cached α τ) := []
  /-- How many look-ups found nothing. -/
  misses : Nat := 0

namespace Cache

variable {κ α τ : Type} [DecidableEq κ] [Sub τ] [LT τ] [DecidableLT τ]

/-- The entries without a key. -/
def erase (key : κ) (entries : List (κ × Cached α τ)) : List (κ × Cached α τ) :=
  entries.filter fun e => e.1 ≠ key

/-- The entries with a key's answer set: in place if the key is there, else at the end. -/
def set (key : κ) (entry : Cached α τ) : List (κ × Cached α τ) → List (κ × Cached α τ)
  | [] => [(key, entry)]
  | (k, e) :: rest => if k = key then (k, entry) :: rest else (k, e) :: set key entry rest

/-- Whether an answer is still good. -/
def isFresh (c : Cache κ α τ) (now : τ) (entry : Cached α τ) : Bool :=
  decide (now - entry.insertedAt < c.ttl)

/-- Looks a key up. An expired answer is dropped. -/
def get (c : Cache κ α τ) (now : τ) (key : κ) : Option α × Cache κ α τ :=
  match c.entries.lookup key with
  | none => (none, { c with misses := c.misses + 1 })
  | some entry =>
    if c.isFresh now entry then
      let used := { entry with hits := entry.hits + 1 }
      (some entry.value, { c with entries := set key used c.entries })
    else (none, { c with entries := erase key c.entries, misses := c.misses + 1 })

/-- The key of the answer that was put in first; of several the one whose key came in first. -/
def oldestKey : List (κ × Cached α τ) → Option κ
  | [] => none
  | e :: rest =>
    let older (oldest e : κ × Cached α τ) :=
      if e.2.insertedAt < oldest.2.insertedAt then e else oldest
    some (rest.foldl older e).1

/-- Drops the answer that was put in first. -/
def evictOldest (c : Cache κ α τ) : Cache κ α τ :=
  match oldestKey c.entries with
  | none => c
  | some key => { c with entries := erase key c.entries }

/-- Puts an answer in, in place of an older one of its key. -/
def put (c : Cache κ α τ) (now : τ) (key : κ) (value : α) : Cache κ α τ :=
  let isNew := (c.entries.lookup key).isNone
  let c := if isNew && c.maxSize ≤ c.entries.length then c.evictOldest else c
  { c with entries := set key { value, insertedAt := now } c.entries }

/-- How many answers are held. -/
def size (c : Cache κ α τ) : Nat :=
  c.entries.length

/-- How often an answer that is still held was given. -/
def hits (c : Cache κ α τ) : Nat :=
  c.entries.foldr (fun e n => e.2.hits + n) 0

/-- The empty cache, with nothing counted. -/
def clear (c : Cache κ α τ) : Cache κ α τ :=
  { c with entries := [], misses := 0 }

end Cache

end ShellAssist.Completion
