import ShellAssist.Host.Environment
import ShellAssist.Proofs.Host.Disk
import ShellAssist.Proofs.Text.Basic
import Mathlib.Data.List.Nodup

namespace ShellAssist

/-!
# Entries of directories

On a well-formed disk every node has a place of its own and names have no slashes, so that no two
entries of a directory have the same name. A disk that is described by paths is well-formed.

* `WellFormed`, `WellFormed.install` — the well-formed disks, and that a description gives one;
* `WellFormed.names_nodup`, `WellFormed.not_slash_mem` — the names in a directory;
* `entries_joinRaw_dot` — a directory under a path with a dot behind it;
* `entries_eq_nul_iff` — the only paths that cannot be looked up;
* `Path.nul_of_joinRaw`, `Environment.nul_of_expandHome` — what a path gets its NUL characters from.
-/

/-- Whether a path is absolute is told by its beginning. -/
theorem Path.isAbsolute_append {text : String} (h : text ≠ "") (tail : String) :
    Path.isAbsolute (text ++ tail) = Path.isAbsolute text := by
  obtain ⟨c, rest, htext⟩ := List.exists_cons_of_ne_nil (mt String.toList_eq_nil_iff.mp h)
  simp [Path.isAbsolute, Text.startsWith, htext, List.isPrefixOf]

namespace Disk

variable {d d' : Disk} {place : Place} {cwd path : String} {found : List (String × Node)}

/-- Every node has a place of its own, and no name on the way to it has a slash. -/
structure WellFormed (d : Disk) : Prop where
  nodup : (d.nodes.map Prod.fst).Nodup
  unslashed : ∀ n ∈ d.nodes, ∀ name ∈ n.1, '/' ∉ name.toList

instance (d : Disk) : Decidable d.WellFormed :=
  decidable_of_iff ((d.nodes.map Prod.fst).Nodup ∧ ∀ n ∈ d.nodes, ∀ name ∈ n.1, '/' ∉ name.toList)
    ⟨fun h => ⟨h.1, h.2⟩, fun h => ⟨h.nodup, h.unslashed⟩⟩

/-! ### Described disks -/

/-- A node that is set takes its place, and no other. -/
theorem map_fst_setNode (place : Place) (node : Stamped) (nodes : List (Place × Stamped)) :
    (setNode place node nodes).map Prod.fst
      = if place ∈ nodes.map Prod.fst then nodes.map Prod.fst else nodes.map Prod.fst ++ [place] := by
  induction nodes with
  | nil => simp [setNode]
  | cons n rest ih =>
    obtain ⟨p, s⟩ := n
    by_cases hp : p = place
    · simp [setNode, hp]
    · rw [setNode, if_neg hp, List.map_cons, ih]
      by_cases hrest : place ∈ rest.map Prod.fst <;> simp [hrest, Ne.symm hp]

/-- A node of the new list is at the place that is set, or an old one. -/
theorem mem_setNode {place : Place} {node : Stamped} {nodes : List (Place × Stamped)}
    {n : Place × Stamped} (h : n ∈ setNode place node nodes) : n.1 = place ∨ n ∈ nodes := by
  -- Either the entry is replaced where it stands or the new one goes to the end.
  induction nodes with
  | nil =>
    rw [setNode, List.mem_singleton] at h
    exact .inl (congrArg Prod.fst h)
  | cons m rest ih =>
    obtain ⟨p, s⟩ := m
    rw [setNode] at h
    split at h
    · rename_i hp
      rcases List.mem_cons.mp h with rfl | h
      · exact .inl hp
      · exact .inr (List.mem_cons_of_mem _ h)
    · rcases List.mem_cons.mp h with rfl | h
      · exact .inr List.mem_cons_self
      · exact (ih h).imp_right (List.mem_cons_of_mem _)

namespace WellFormed

/-- A disk stays well-formed when a node is put. -/
theorem putNew (h : d.WellFormed) (hplace : ∀ name ∈ place, '/' ∉ name.toList) (node : Node) :
    (d.putNew place node).WellFormed where
  nodup := by
    rw [Disk.putNew, map_fst_setNode]
    split
    · exact h.nodup
    · rename_i hnew
      exact List.Nodup.append h.nodup (List.nodup_singleton place)
        (List.disjoint_singleton.mpr hnew)
  unslashed n hn := by
    rcases mem_setNode hn with rfl | hn
    · exact hplace
    · exact h.unslashed n hn

/-- It stays so when directories are made. -/
theorem makeDirectoriesFrom {comps : List String} (h : d.WellFormed)
    (hplace : ∀ name ∈ place, '/' ∉ name.toList) (hcomps : ∀ name ∈ comps, '/' ∉ name.toList)
    (hmade : d.makeDirectoriesFrom place comps = some d') : d'.WellFormed := by
  -- The place grows by one component, whose name holds no slash.
  induction comps generalizing d place with
  | nil => exact Option.some.inj hmade ▸ h
  | cons c rest ih =>
    rw [List.forall_mem_cons] at hcomps
    have hnext : ∀ name ∈ place ++ [c], '/' ∉ name.toList := by
      intro name hname
      rcases List.mem_append.mp hname with hname | hname
      · exact hplace name hname
      · exact List.mem_singleton.mp hname ▸ hcomps.1
    rw [Disk.makeDirectoriesFrom] at hmade
    split at hmade
    · exact ih (h.putNew hnext _) hnext hcomps.2 hmade
    · exact ih h hnext hcomps.2 hmade
    · cases hmade

/-- No name on the way to a place holds a slash. -/
theorem not_slash_mem_placeOf (path : String) : ∀ name ∈ placeOf path, '/' ∉ name.toList := by
  intro name hname
  rw [placeOf, List.mem_filter, Text.splitOn, List.mem_map] at hname
  obtain ⟨⟨piece, hpiece, rfl⟩, -⟩ := hname
  rw [String.toList_ofList]
  exact Chars.not_mem_of_mem_splitOn piece hpiece

/-- A node that a description of a tree lists by its path is put on a well-formed disk. -/
theorem install (h : d.WellFormed) (path : String) (node : Node) :
    (d.install (placeOf path) node).WellFormed := by
  have hplace := not_slash_mem_placeOf path
  have habove : ∀ name ∈ (placeOf path).dropLast, '/' ∉ name.toList := fun name hname =>
    hplace name (List.dropLast_subset _ hname)
  unfold Disk.install
  refine putNew ?_ hplace node
  cases hmade : d.makeDirectoriesFrom [] (placeOf path).dropLast with
  | none => exact h
  | some d' => exact h.makeDirectoriesFrom (by simp) habove hmade

end WellFormed

/-! ### Names -/

/-- The name of an entry is the last of its place. -/
def nameIn (place p : Place) : Option String :=
  if p.dropLast = place then p.getLast? else none

/-- A name in a directory is the last one of its place. -/
theorem eq_of_nameIn {p : Place} {name : String} (h : nameIn place p = some name) :
    p = place ++ [name] := by
  rw [nameIn] at h
  split at h
  · rename_i hplace
    obtain ⟨init, rfl⟩ := List.getLast?_eq_some_iff.mp h
    rw [List.dropLast_concat] at hplace
    rw [hplace]
  · cases h

/-- The names in a directory are told by the places of the nodes. -/
theorem map_fst_children (d : Disk) (place : Place) :
    (d.children place).map Prod.fst = (d.nodes.map Prod.fst).filterMap (nameIn place) := by
  rw [children, List.map_filterMap, List.filterMap_map]
  refine congrArg (List.filterMap · d.nodes) (funext fun n => ?_)
  obtain ⟨p, s⟩ := n
  by_cases hplace : p.dropLast = place
  · cases hlast : p.getLast? <;> simp [nameIn, hplace, hlast]
  · cases hlast : p.getLast? <;> simp [nameIn, hplace, hlast]

/-- No two entries of a directory have the same name. -/
theorem WellFormed.names_nodup (hd : d.WellFormed) (h : d.entries cwd path = .ok found) :
    (found.map Prod.fst).Nodup := by
  obtain ⟨place, rfl⟩ := entries_ok h
  rw [map_fst_children]
  refine hd.nodup.filterMap fun p p' name hp hp' => ?_
  rw [eq_of_nameIn hp, eq_of_nameIn hp']

/-- The name of an entry has no slash. -/
theorem WellFormed.not_slash_mem (hd : d.WellFormed) (h : d.entries cwd path = .ok found) :
    ∀ e ∈ found, '/' ∉ e.1.toList := by
  obtain ⟨place, rfl⟩ := entries_ok h
  intro e he
  have hname := List.mem_map_of_mem (f := Prod.fst) he
  rw [map_fst_children, List.mem_filterMap] at hname
  obtain ⟨p, hp, hname⟩ := hname
  obtain ⟨n, hn, rfl⟩ := List.mem_map.mp hp
  exact hd.unslashed n hn e.1 (by rw [eq_of_nameIn hname]; simp)

/-! ### The directory itself -/

/-- A walk may be made in two parts. -/
theorem walk_append (d : Disk) (place : Place) (comps rest : List String) :
    d.walk place (comps ++ rest) = (d.walk place comps).bind (d.walk · rest) := by
  induction comps generalizing place with
  | nil => rfl
  | cons c comps ih =>
    simp only [List.cons_append, walk]
    split
    · rfl
    · split
      · exact ih place
      · split
        · exact ih place.dropLast
        · exact ih (place ++ [c])

/-- One dot leads from a directory to itself, and so does a slash behind its path. -/
theorem walk_dot (h : d.isDirectoryAt place = true) : d.walk place ["."] = some place := by
  simp [walk, h]

/-- An empty name leads where a dot does. -/
theorem walk_empty_eq_dot (d : Disk) : (d.walk · [""]) = (d.walk · ["."]) := by
  funext place
  simp [walk]

/-- A directory with a dot behind it is the directory. -/
theorem locate_joinRaw_dot (h : d.locate cwd path = .ok place)
    (hdir : d.isDirectoryAt place = true) : d.locate cwd (Path.joinRaw path ".") = .ok place := by
  obtain ⟨hnul, hempty, hwalk⟩ := locate_ok h
  have hdot : Text.splitOn '/' "." = ["."] := by decide
  have hmore {tail : String} (htail : '\x00' ∉ tail.toList)
      (hwalk : d.walk [] (Text.splitOn '/'
        ((if Path.isAbsolute path then "" else cwd ++ "/") ++ (path ++ tail))) = some place) :
      d.locate cwd (path ++ tail) = .ok place := by
    refine locate_of_walk ?_ ?_ ?_
    · rw [String.toList_append, List.contains_append, hnul, Bool.false_or, ← Bool.not_eq_true]
      exact mt List.contains_iff_mem.mp htail
    · exact fun h => hempty (String.append_eq_empty_iff.mp h).1
    · rwa [Path.isAbsolute_append hempty]
  rw [Path.joinRaw, if_neg (by decide)]
  by_cases hslash : Text.endsWith path "/" = true
  · -- The dot stands in the place of the nothing behind the slash.
    rw [if_pos (by simp [hslash])]
    obtain ⟨front, hfront⟩ := List.isSuffixOf_iff_suffix.mp hslash
    obtain rfl : String.ofList front ++ "/" = path := by
      rw [← String.toList_inj, String.toList_append, String.toList_ofList, hfront]
    have hlast (text : String) : Text.splitOn '/' (text ++ "/") = Text.splitOn '/' text ++ [""] := by
      have hsplit := Text.splitOn_append_slash text ""
      rwa [String.append_empty] at hsplit
    refine hmore (by decide) ?_
    rw [← String.append_assoc, hlast, walk_append] at hwalk
    rw [← String.append_assoc, ← String.append_assoc, Text.splitOn_append_slash, walk_append, hdot,
      ← walk_empty_eq_dot]
    exact hwalk
  · rw [if_neg (by simp [hslash, hempty]), String.append_assoc]
    refine hmore (by decide) ?_
    rw [← String.append_assoc, ← String.append_assoc, Text.splitOn_append_slash, walk_append, hwalk,
      hdot, Option.bind_some, walk_dot hdir]

/-- A directory has the entries of the dot in it. -/
theorem entries_joinRaw_dot (h : d.entries cwd path = .ok found) :
    d.entries cwd (Path.joinRaw path ".") = .ok found := by
  unfold entries at h ⊢
  cases hplace : d.locate cwd path with
  | error e =>
    rw [hplace] at h
    cases h
  | ok place =>
    rw [hplace] at h
    -- Only a directory has entries, and a dot leads from it back to itself.
    have hdir : d.isDirectoryAt place = true := by
      simp only [bind, Except.bind] at h
      split at h
      · rename_i hget
        rw [isDirectoryAt, hget]
      · cases h
    rw [locate_joinRaw_dot hplace hdir]
    exact h

/-! ### Paths that cannot be looked up -/

/-- Listing fails for a NUL just if the path has one. -/
theorem entries_eq_nul_iff (d : Disk) (cwd path : String) :
    d.entries cwd path = .error .nul ↔ '\x00' ∈ path.toList := by
  rw [← locate_eq_nul_iff d cwd path]
  unfold entries
  cases d.locate cwd path with
  | error e =>
    show (Except.error e : Except AccessError (List (String × Node))) = .error .nul ↔ _
    simp
  | ok place =>
    refine ⟨fun h => ?_, fun h => nomatch h⟩
    simp only [bind, Except.bind] at h
    split at h <;> cases h

end Disk

/-- A NUL in a joined path is in one of both parts. -/
theorem Path.nul_of_joinRaw {base text : String} (h : '\x00' ∈ (Path.joinRaw base text).toList) :
    '\x00' ∈ base.toList ∨ '\x00' ∈ text.toList := by
  unfold Path.joinRaw at h
  split at h
  · exact .inr h
  · split at h
    · rwa [String.toList_append, List.mem_append] at h
    · simpa [String.toList_append, or_assoc] using h

/-- No home directory that the system lists holds a NUL. -/
theorem Environment.nul_of_homeOfName {env : Environment} {users : Users} {name directory : String}
    (h : Environment.homeOfName? env users name = some directory) (hnul : '\x00' ∈ directory.toList) :
    ∃ home, Environment.get? env "HOME" = some home ∧ '\x00' ∈ home.toList := by
  unfold Environment.homeOfName? at h
  split at h
  · obtain rfl := Option.some.inj h
    rw [Environment.homeText] at hnul
    cases hhome : Environment.get? env "HOME" with
    | none =>
      rw [hhome, Option.getD_none] at hnul
      exact absurd hnul users.own_plain
    | some home =>
      rw [hhome, Option.getD_some] at hnul
      exact ⟨home, rfl, hnul⟩
  · obtain ⟨before, after, hnamed, -⟩ := List.lookup_eq_some_iff.mp h
    exact absurd hnul (users.named_plain (name, directory) (by simp [hnamed]))

/-- A NUL behind a tilde is in the path or in the home directory. -/
theorem Environment.nul_of_expandHome {env : Environment} {users : Users} {text : String}
    (h : '\x00' ∈ (Environment.expandHome env users text).toList) :
    '\x00' ∈ text.toList ∨
      ∃ home, Environment.get? env "HOME" = some home ∧ '\x00' ∈ home.toList := by
  unfold Environment.expandHome at h
  split at h
  · rename_i rest htext
    split at h
    · exact .inl h
    · rename_i directory hdirectory
      dsimp only at h
      split at h
      · simp at h
      · rw [String.toList_append, List.mem_append, String.toList_ofList] at h
        -- The home stands in front, without its last slashes, and the text behind it.
        rcases h with h | h
        · rw [Environment.dropSlashes, String.toList_ofList] at h
          exact .inr (nul_of_homeOfName hdirectory ((Chars.dropEndWhile_prefix _ _).subset h))
        · refine .inl (htext ▸ List.mem_cons_of_mem _ ?_)
          exact (List.dropWhile_sublist _).mem h
  · exact .inl h

end ShellAssist
