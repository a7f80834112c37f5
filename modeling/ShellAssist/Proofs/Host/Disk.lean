import ShellAssist.Host.Disk
import ShellAssist.Proofs.Text.Basic
import Mathlib.Data.List.Basic

namespace ShellAssist.Disk

/-!
# What a change of the disk leaves in place

Walking a path looks at the directories it passes and at nothing else, and a place that it passes
has directories all the way down to it. So a path keeps its place on every disk that still has the
directories that the walk passes.

* `walk_of_reached`, `locate_of_reached` — paths keep their places;
* `placeFrom`, `eq_placeFrom` — which place that is can be told without the disk;
* `find_of_extends` — what is found is still found where nodes are only added;
* `get?_makeDirectories`, `makeDirectories_extends` — making directories only adds some;
* `writeFile_ok`, `rename_ok` — what the other two changes of a saving program do;
* `Named`, `Named.install` — what stands on a disk has a name.
-/

variable {d d' : Disk} {place : Place} {node : Stamped}

/-! ### Nodes -/

/-- A node that is set is found at its place, and all others where they were. -/
theorem lookup_setNode (place : Place) (node : Stamped) (nodes : List (Place × Stamped))
    (p : Place) :
    (setNode place node nodes).lookup p = if p = place then some node else nodes.lookup p := by
  -- The node is replaced at the first entry of its place, which is the one a look-up meets.
  induction nodes with
  | nil =>
    by_cases hp : p = place
    · simp [setNode, hp]
    · simp [setNode, List.lookup_cons, beq_eq_false_iff_ne.mpr hp, hp]
  | cons q nodes ih =>
    obtain ⟨q, n⟩ := q
    by_cases hq : q = place
    · by_cases hp : p = place
      · simp [setNode, hq, hp]
      · simp [setNode, List.lookup_cons, hq, beq_eq_false_iff_ne.mpr hp, hp]
    · by_cases hp : p = q
      · simp [setNode, hq, hp]
      · simp only [setNode, hq, if_false, List.lookup_cons, beq_eq_false_iff_ne.mpr hp, ih]

/-- All places but the root are looked up. -/
theorem get?_of_ne_nil {p : Place} (hp : p ≠ []) (d : Disk) : d.get? p = d.nodes.lookup p := by
  unfold get?
  split
  · exact absurd rfl hp
  · rfl

/-- What is put is found at its place, and all else where it was. -/
theorem get?_put (hplace : place ≠ []) (d : Disk) (node : Stamped) (p : Place) :
    (d.put place node).get? p = if p = place then some node else d.get? p := by
  by_cases hp : p = []
  · subst hp
    simp [get?, hplace.symm]
  · rw [get?_of_ne_nil hp, get?_of_ne_nil hp]
    exact lookup_setNode place node d.nodes p

/-- So is what is put anew, with the next stamp. -/
theorem get?_putNew (hplace : place ≠ []) (d : Disk) (node : Node) (p : Place) :
    (d.putNew place node).get? p = if p = place then some ⟨node, d.nextStamp⟩ else d.get? p :=
  get?_put hplace d ⟨node, d.nextStamp⟩ p

/-- What does not stand below a removed place is still there. -/
theorem get?_remove {p : Place} (h : ¬ place <+: p) : (d.remove place).get? p = d.get? p := by
  by_cases hp : p = []
  · rw [hp]
    rfl
  · rw [get?_of_ne_nil hp, get?_of_ne_nil hp, remove]
    simp only
    induction d.nodes with
    | nil => rfl
    | cons q nodes ih =>
      obtain ⟨q, n⟩ := q
      -- The node looked for is kept, and of the others it does not matter.
      by_cases hq : p = q
      · have hkeep : (!place.isPrefixOf q) = true := by
          rw [Bool.not_eq_true', Bool.eq_false_iff]
          exact fun hpre => h (hq ▸ List.isPrefixOf_iff_prefix.mp hpre)
        rw [List.filter_cons_of_pos (by exact hkeep), List.lookup_cons, List.lookup_cons, ih]
      · by_cases hkeep : (!place.isPrefixOf q) = true
        · rw [List.filter_cons_of_pos (by exact hkeep), List.lookup_cons, List.lookup_cons, ih]
        · rw [List.filter_cons_of_neg (by exact hkeep), List.lookup_cons, ih,
            beq_eq_false_iff_ne.mpr hq]

/-- Whether there is a directory depends on what is found at the place. -/
theorem isDirectoryAt_congr {p : Place} (h : d'.get? p = d.get? p) :
    d'.isDirectoryAt p = d.isDirectoryAt p := by
  rw [isDirectoryAt, isDirectoryAt, h]

/-- A place that is no directory is not the root. -/
theorem ne_nil_of_not_directory (h : d.isDirectoryAt place = false) : place ≠ [] := by
  rintro rfl
  cases h

/-! ### Walks -/

/-- Directories stand at a place and all the way down to it. -/
def Reached (d : Disk) (place : Place) : Prop :=
  ∀ p, p <+: place → d.isDirectoryAt p = true

/-- Directories stand all the way down to a place, whatever stands there. -/
def Below (d : Disk) (place : Place) : Prop :=
  ∀ p, p <+: place → p ≠ place → d.isDirectoryAt p = true

/-- A directory below reached ones is reached. -/
theorem Below.reached (h : d.Below place) (hplace : d.isDirectoryAt place = true) :
    d.Reached place := by
  intro p hp
  by_cases heq : p = place
  · rw [heq]
    exact hplace
  · exact h p hp heq

/-- The place above a reached one is below reached ones. -/
theorem Reached.dropLast (h : d.Reached place) : d.Below place.dropLast :=
  fun p hp _ => h p (hp.trans (List.dropLast_prefix place))

/-- So is a place right below a reached one. -/
theorem Reached.concat (h : d.Reached place) (c : String) : d.Below (place ++ [c]) := by
  intro p hp hne
  rcases List.prefix_concat_iff.mp hp with heq | hp
  · exact absurd heq hne
  · exact h p hp

/-- The root is below all. -/
theorem below_nil (d : Disk) : d.Below [] := by
  intro p hp hne
  exact absurd (List.prefix_nil.mp hp) hne

/-- A walk passes reached places only, so it ends at the same place on a disk that still has their
directories. -/
theorem walk_of_reached (h : ∀ p, d.Reached p → d'.isDirectoryAt p = true) {comps : List String}
    {found : Place} (hplace : d.Below place) (hwalk : d.walk place comps = some found) :
    d'.walk place comps = some found ∧ d.Below found := by
  induction comps generalizing place with
  | nil =>
    rw [walk, Option.some.injEq] at hwalk
    subst hwalk
    exact ⟨rfl, hplace⟩
  | cons c rest ih =>
    -- A walk goes on from directories only, and everything above this one is one as well.
    by_cases hdir : d.isDirectoryAt place = true
    · have hreached := hplace.reached hdir
      have hdir' := h place hreached
      simp only [walk, hdir, hdir', Bool.not_true, Bool.false_eq_true, if_false] at hwalk ⊢
      by_cases hstay : (decide (c = "") || decide (c = ".")) = true
      · rw [if_pos hstay] at hwalk ⊢
        exact ih hplace hwalk
      · rw [if_neg hstay] at hwalk ⊢
        by_cases hup : c = ".."
        · rw [if_pos hup] at hwalk ⊢
          exact ih hreached.dropLast hwalk
        · rw [if_neg hup] at hwalk ⊢
          exact ih (hreached.concat c) hwalk
    · simp [walk, hdir] at hwalk

/-- What a path text stands for: its components from the root. -/
theorem locate_ok {cwd path : String} (h : d.locate cwd path = .ok place) :
    path.toList.contains '\x00' = false ∧ path ≠ "" ∧
      d.walk [] (Text.splitOn '/' ((if Path.isAbsolute path then "" else cwd ++ "/") ++ path))
        = some place := by
  unfold locate at h
  -- Refused are a text with a NUL, an empty one, and a walk that leads nowhere.
  split at h
  · cases h
  · rename_i hnul
    split at h
    · cases h
    · rename_i hempty
      refine ⟨by simpa using hnul, hempty, ?_⟩
      simp only at h
      split at h
      · rename_i found hwalk
        rw [← Except.ok.inj h]
        exact hwalk
      · cases h

/-- A path is looked up unless its text has a NUL character. -/
theorem locate_eq_nul_iff (d : Disk) (cwd path : String) :
    d.locate cwd path = .error .nul ↔ '\x00' ∈ path.toList := by
  unfold locate
  split
  · rename_i hnul
    exact ⟨fun _ => List.contains_iff_mem.mp hnul, fun _ => rfl⟩
  · rename_i hnul
    refine ⟨fun h => ?_, fun h => absurd (List.contains_iff_mem.mpr h) hnul⟩
    split at h
    · cases h
    · dsimp only at h
      split at h <;> cases h

/-- A path is located by walking along it. -/
theorem locate_of_walk {cwd path : String} (hnul : path.toList.contains '\x00' = false)
    (hempty : path ≠ "")
    (hwalk : d.walk [] (Text.splitOn '/'
      ((if Path.isAbsolute path then "" else cwd ++ "/") ++ path)) = some place) :
    d.locate cwd path = .ok place := by
  simp only [locate, hnul, Bool.false_eq_true, if_false, hempty, hwalk]

/-- The place that components lead to, where directories are there to be walked. -/
def follow (place : Place) : List String → Place
  | [] => place
  | c :: rest =>
    if c = "" || c = "." then follow place rest
    else if c = ".." then follow place.dropLast rest
    else follow (place ++ [c]) rest

/-- The place that a path text stands for, whatever is on the disk. -/
def placeFrom (cwd path : String) : Place :=
  follow [] (Text.splitOn '/' ((if Path.isAbsolute path then "" else cwd ++ "/") ++ path))

/-- A walk may be made in two parts. -/
theorem follow_append (place : Place) (comps rest : List String) :
    follow place (comps ++ rest) = follow (follow place comps) rest := by
  induction comps generalizing place with
  | nil => rfl
  | cons c comps ih =>
    simp only [List.cons_append, follow]
    split
    · exact ih place
    · split
      · exact ih place.dropLast
      · exact ih (place ++ [c])

/-- Without two dots a walk only leads down. -/
theorem prefix_follow {place : Place} {comps : List String} (h : ".." ∉ comps) :
    place <+: follow place comps := by
  induction comps generalizing place with
  | nil => exact List.prefix_refl place
  | cons c comps ih =>
    rw [List.mem_cons, not_or] at h
    rw [follow]
    split
    · exact ih h.2
    · rw [if_neg (Ne.symm h.1)]
      exact (List.prefix_append place [c]).trans (ih h.2)

/-- A walk that ends anywhere ends at the place that its components lead to. -/
theorem walk_eq_follow {place found : Place} {comps : List String}
    (h : d.walk place comps = some found) : found = follow place comps := by
  -- The walk checks at every step what the other only follows; where it goes on they agree.
  induction comps generalizing place with
  | nil => exact (Option.some.inj h).symm
  | cons c rest ih =>
    rw [walk] at h
    rw [follow]
    split at h
    · cases h
    · split at h
      · rename_i hstay
        rw [if_pos hstay]
        exact ih h
      · rename_i hstay
        rw [if_neg hstay]
        split at h
        · rename_i hup
          rw [if_pos hup]
          exact ih h
        · rename_i hup
          rw [if_neg hup]
          exact ih h

/-- Where a path leads is told by its text alone. -/
theorem eq_placeFrom {cwd path : String} (h : d.locate cwd path = .ok place) :
    place = placeFrom cwd path :=
  walk_eq_follow (locate_ok h).2.2

/-- On a disk with the same directories a path is located as before. -/
theorem locate_of_reached (h : ∀ p, d.Reached p → d'.isDirectoryAt p = true) {cwd path : String}
    (hlocate : d.locate cwd path = .ok place) :
    d'.locate cwd path = .ok place ∧ d.Below place := by
  obtain ⟨hnul, hempty, hwalk⟩ := locate_ok hlocate
  obtain ⟨hwalk', hbelow⟩ := walk_of_reached h (below_nil d) hwalk
  exact ⟨locate_of_walk hnul hempty hwalk', hbelow⟩

/-! ### Disks with more nodes -/

/-- Everything that stands on the first disk stands on the second. -/
def Extends (d d' : Disk) : Prop :=
  ∀ p n, d.get? p = some n → d'.get? p = some n

/-- A disk extends itself. -/
theorem Extends.refl (d : Disk) : d.Extends d :=
  fun _ _ h => h

/-- What extends an extension extends the disk. -/
theorem Extends.trans {d₁ d₂ d₃ : Disk} (h₁ : d₁.Extends d₂) (h₂ : d₂.Extends d₃) :
    d₁.Extends d₃ :=
  fun p n h => h₂ p n (h₁ p n h)

/-- A directory stays one. -/
theorem Extends.isDirectoryAt (h : d.Extends d') {p : Place} (hp : d.isDirectoryAt p = true) :
    d'.isDirectoryAt p = true := by
  cases hget : d.get? p with
  | none =>
    rw [Disk.isDirectoryAt, hget] at hp
    cases hp
  | some n =>
    rw [Disk.isDirectoryAt, hget] at hp
    rw [Disk.isDirectoryAt, h p n hget]
    exact hp

/-- A node found at a path stands at its place. -/
theorem find_ok {cwd path : String} {found : Stamped} (h : d.find cwd path = .ok found) :
    ∃ place, d.locate cwd path = .ok place ∧ d.get? place = some found ∧ found.node ≠ .loop := by
  unfold find at h
  cases hlocate : d.locate cwd path with
  | error e =>
    rw [hlocate] at h
    cases h
  | ok place =>
    rw [hlocate] at h
    simp only [bind, Except.bind] at h
    -- A place was found and something stands there that does not lead back to itself.
    split at h
    · rename_i n hget
      split at h
      · cases h
      · rename_i hloop
        cases h
        exact ⟨place, rfl, hget, hloop⟩
    · cases h

/-- What is at the place of a path is found, unless it is a loop. -/
theorem find_of_get? {cwd path : String} {found : Stamped} (hlocate : d.locate cwd path = .ok place)
    (hget : d.get? place = some found) (hloop : found.node ≠ .loop) :
    d.find cwd path = .ok found := by
  unfold find
  rw [hlocate]
  simp only [bind, Except.bind, hget, hloop, if_false]

/-- What is found is still found where nodes are only added. -/
theorem find_of_extends (h : d.Extends d') {cwd path : String} {found : Stamped}
    (hfind : d.find cwd path = .ok found) : d'.find cwd path = .ok found := by
  obtain ⟨place, hlocate, hget, hloop⟩ := find_ok hfind
  have hlocate' := (locate_of_reached (fun p hp => h.isDirectoryAt (hp p (List.prefix_refl p)))
    hlocate).1
  exact find_of_get? hlocate' (h place found hget) hloop

/-! ### Changes -/

/-- Directories are made where nothing is, and only on the way down to the last of them. -/
theorem get?_makeDirectories_go {comps : List String}
    (h : makeDirectories.go d place comps = .ok d') (p : Place) :
    d'.get? p = d.get? p ∨ d.get? p = none ∧ p <+: follow place comps ∧
      ∃ stamp, d'.get? p = some ⟨.directory false, stamp⟩ := by
  induction comps generalizing d place with
  | nil =>
    rw [makeDirectories.go] at h
    split at h
    · cases h
      exact .inl rfl
    · cases h
  | cons c rest ih =>
    rw [makeDirectories.go] at h
    rw [follow]
    split at h
    · cases h
    · split at h
      · rename_i hstay
        rw [if_pos hstay]
        exact ih h
      · rename_i hstay
        rw [if_neg hstay]
        split at h
        · rename_i hup
          rw [if_pos hup]
          exact ih h
        · rename_i hup
          rw [if_neg hup]
          simp only at h
          split at h
          · -- A directory is made, and no two dots lead up from it.
            rename_i hnone
            split at h
            · cases h
            · rename_i hdown
              have hne : place ++ [c] ≠ [] := by simp
              have hdown : ".." ∉ rest := by simpa using hdown
              rcases ih h with heq | ⟨hmissing, hleads, hmade⟩
              · rw [get?_putNew hne] at heq
                split at heq
                · rename_i hp
                  rw [hp]
                  exact .inr ⟨hnone, prefix_follow hdown, _, hp ▸ heq⟩
                · exact .inl heq
              · rw [get?_putNew hne] at hmissing
                split at hmissing
                · cases hmissing
                · exact .inr ⟨hmissing, hleads, hmade⟩
          · exact ih h

/-- Directories are made where nothing is, and only on the way down to the last of them. -/
theorem get?_makeDirectories {cwd path : String} (h : d.makeDirectories cwd path = .ok d')
    (p : Place) :
    d'.get? p = d.get? p ∨ d.get? p = none ∧ p <+: placeFrom cwd path ∧
      ∃ stamp, d'.get? p = some ⟨.directory false, stamp⟩ := by
  unfold makeDirectories at h
  split at h
  · cases h
  · simp only at h
    split at h
    · cases h
    · rename_i start hstart
      -- The two begin at different places and meet where the path is absolute or the walk has gone.
      have hfollow : follow start (Text.splitOn '/' path) = placeFrom cwd path := by
        rw [placeFrom]
        split at hstart
        · rename_i habsolute
          obtain rfl := Option.some.inj hstart
          rw [if_pos habsolute, String.empty_append]
        · rename_i habsolute
          rw [if_neg habsolute, Text.splitOn_append_slash, follow_append, ← walk_eq_follow hstart]
      rw [← hfollow]
      exact get?_makeDirectories_go h p

/-- Making directories only adds nodes. -/
theorem makeDirectories_extends {cwd path : String} (h : d.makeDirectories cwd path = .ok d') :
    d.Extends d' := by
  intro p n hp
  rcases get?_makeDirectories h p with heq | ⟨hnone, -⟩
  · rw [heq, hp]
  · rw [hp] at hnone
    cases hnone

/-- A written file stands at its place, where no directory was. -/
theorem writeFile_ok {cwd path : String} {content : List UInt8}
    (h : d.writeFile cwd path content = .ok d') :
    ∃ place executable, d.locate cwd path = .ok place ∧ d.isDirectoryAt place = false ∧
      d' = d.putNew place (.file content executable false) := by
  unfold writeFile at h
  cases hlocate : d.locate cwd path with
  | error e =>
    rw [hlocate] at h
    cases h
  | ok place =>
    rw [hlocate] at h
    simp only [bind, Except.bind] at h
    -- A new file, or one that is overwritten and keeps its mode; a directory is refused.
    split at h
    · rename_i hget
      cases h
      exact ⟨place, false, rfl, by rw [isDirectoryAt, hget], rfl⟩
    · rename_i executable _ hget
      cases h
      exact ⟨place, executable, rfl, by rw [isDirectoryAt, hget], rfl⟩
    · cases h

/-- A moved node stands at the new place, and nothing at the old place or below. -/
theorem rename_ok {cwd source target : String} (h : d.rename cwd source target = .ok d') :
    ∃ old new found, d.locate cwd source = .ok old ∧ d.locate cwd target = .ok new ∧
      d.get? old = some found ∧ d.isDirectoryAt new = false ∧
      d' = (d.remove old).put new found := by
  unfold rename at h
  cases hold : d.locate cwd source with
  | error e =>
    rw [hold] at h
    cases h
  | ok old =>
    cases hnew : d.locate cwd target with
    | error e =>
      rw [hold, hnew] at h
      cases h
    | ok new =>
      rw [hold, hnew] at h
      simp only [bind, Except.bind] at h
      -- Both places were found; what is left is that something stood there and no directory is
      -- replaced.
      split at h
      · cases h
      · rename_i found hget
        split at h
        · cases h
        · rename_i hdir
          cases h
          rw [Bool.not_eq_true, Bool.or_eq_false_iff] at hdir
          exact ⟨old, new, found, rfl, rfl, hget, hdir.1, rfl⟩

/-! ### Names -/

/-- Whatever stands on the disk has a name, and so do the directories above it. -/
def Named (d : Disk) : Prop :=
  ∀ n ∈ d.nodes, "" ∉ n.1

instance (d : Disk) : Decidable d.Named :=
  inferInstanceAs (Decidable (∀ n ∈ d.nodes, "" ∉ n.1))

/-- No name on the way to a place is empty. -/
theorem not_mem_placeOf (path : String) : "" ∉ placeOf path := by
  simp [placeOf]

/-- A disk without empty names stays one when a node is put. -/
theorem Named.putNew (h : d.Named) (hplace : "" ∉ place) (node : Node) :
    (d.putNew place node).Named := by
  unfold Named Disk.putNew at *
  simp only
  generalize d.nodes = nodes at h
  induction nodes with
  | nil => simpa [setNode] using hplace
  | cons n rest ih =>
    obtain ⟨p, s⟩ := n
    rw [List.forall_mem_cons] at h
    rw [setNode]
    split
    · exact List.forall_mem_cons.mpr h
    · exact List.forall_mem_cons.mpr ⟨h.1, ih h.2⟩

/-- It stays one when directories are made. -/
theorem Named.makeDirectoriesFrom {comps : List String} (h : d.Named) (hplace : "" ∉ place)
    (hcomps : "" ∉ comps) (hmade : d.makeDirectoriesFrom place comps = some d') : d'.Named := by
  induction comps generalizing d place with
  | nil => exact Option.some.inj hmade ▸ h
  | cons c rest ih =>
    have hnext : "" ∉ place ++ [c] := by
      rw [List.mem_append, List.mem_singleton]
      exact fun hmem => hmem.elim hplace fun hc => hcomps (hc ▸ List.mem_cons_self)
    have hrest := List.not_mem_of_not_mem_cons hcomps
    rw [Disk.makeDirectoriesFrom] at hmade
    split at hmade
    · exact ih (h.putNew hnext _) hnext hrest hmade
    · exact ih h hnext hrest hmade
    · cases hmade

/-- A node that a description of a tree lists by its path has a name. -/
theorem Named.install (h : d.Named) (path : String) (node : Node) :
    (d.install (placeOf path) node).Named := by
  have hplace := not_mem_placeOf path
  have habove : "" ∉ (placeOf path).dropLast := fun hmem => hplace ((List.dropLast_sublist _).mem hmem)
  unfold Disk.install
  refine Named.putNew ?_ hplace node
  cases hmade : d.makeDirectoriesFrom [] (placeOf path).dropLast with
  | none => exact h
  | some d' => exact h.makeDirectoriesFrom List.not_mem_nil habove hmade

/-- The entries of a directory are the nodes right below it. -/
theorem entries_ok {cwd path : String} {found : List (String × Node)}
    (h : d.entries cwd path = .ok found) : ∃ place, found = d.children place := by
  unfold entries at h
  cases hplace : d.locate cwd path with
  | error failure =>
    rw [hplace] at h
    cases h
  | ok place =>
    rw [hplace] at h
    simp only [bind, Except.bind] at h
    split at h
    · exact ⟨place, (Except.ok.inj h).symm⟩
    · cases h

/-- The entries of a directory have names. -/
theorem Named.of_mem_entries (hd : d.Named) {cwd path : String} {found : List (String × Node)}
    (h : d.entries cwd path = .ok found) : ∀ e ∈ found, e.1 ≠ "" := by
  obtain ⟨place, rfl⟩ := entries_ok h
  intro e he
  rw [children, List.mem_filterMap] at he
  obtain ⟨⟨p, s⟩, hnode, he⟩ := he
  -- The name of a node is the last component of its place.
  cases hlast : p.getLast? with
  | none => simp [hlast] at he
  | some name =>
    simp only [hlast, Option.ite_none_right_eq_some, Option.some.injEq] at he
    rw [← he.2]
    rintro rfl
    exact hd _ hnode (List.mem_of_getLast? hlast)

end ShellAssist.Disk
