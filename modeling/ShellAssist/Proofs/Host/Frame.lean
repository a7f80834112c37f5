import ShellAssist.Proofs.Host.Disk

namespace ShellAssist.Disk

/-!
# What a change of the disk is confined to

A program that replaces a file by a new one beside it changes the nodes at two places and makes the
directories above that are missing. Everything else on the disk stays as it is, whatever goes wrong
on the way.

* `OnlyChanges` — the disks that differ in this way, closed under `OnlyChanges.trans`;
* `OnlyChanges.find` — every other path still finds what it found;
* `onlyChanges_makeDirectories`, `onlyChanges_writeFile`, `onlyChanges_rename` — the three changes;
* `contentAt?` — the bytes of the file at a place.
-/

variable {d d' : Disk} {place beside above p : Place}

/-- The bytes of the file at a place, whether they may be read or not. -/
def contentAt? (d : Disk) (place : Place) : Option (List UInt8) :=
  match d.get? place with
  | some ⟨.file content _ _, _⟩ => some content
  | _ => none

theorem contentAt?_congr (h : d'.get? p = d.get? p) : d'.contentAt? p = d.contentAt? p := by
  rw [contentAt?, contentAt?, h]

/-! ### Confined changes -/

/-- The places whose nodes may be replaced: two, and what would be below the second. Nothing stands
below a file, and where a directory is, that is not touched. -/
def Exposed (d : Disk) (place beside p : Place) : Prop :=
  p = place ∨ beside <+: p ∧ d.isDirectoryAt beside = false

/-- The second disk is the first one but for the nodes at two places, where no directory is replaced,
and for directories that were missing on the way down to another place. -/
structure OnlyChanges (place beside above : Place) (d d' : Disk) : Prop where
  kept : ∀ p n, ¬ d.Exposed place beside p → d.get? p = some n → d'.get? p = some n
  made : ∀ p n, ¬ d.Exposed place beside p → d.get? p = none → d'.get? p = some n →
    n.node = .directory false ∧ p <+: above
  directory : d.isDirectoryAt place = true → d'.get? place = d.get? place

namespace OnlyChanges

theorem refl (d : Disk) : OnlyChanges place beside above d d where
  kept _ _ _ h := h
  made _ _ _ hnone hsome := by
    rw [hnone] at hsome
    cases hsome
  directory _ := rfl

/-- A directory that is not at an exposed place is still one. -/
theorem isDirectoryAt (h : OnlyChanges place beside above d d') (hp : d.isDirectoryAt p = true)
    (hexposed : beside <+: p → d.isDirectoryAt beside = true) : d'.isDirectoryAt p = true := by
  by_cases hplace : p = place
  · subst hplace
    rw [isDirectoryAt_congr (h.directory hp), hp]
  -- A directory is not exposed: it is neither the place itself nor a file in its way.
  · have hkept : ¬ d.Exposed place beside p := by
      rintro (heq | ⟨hleads, hfile⟩)
      · exact hplace heq
      · rw [hexposed hleads] at hfile
        cases hfile
    cases hget : d.get? p with
    | none =>
      rw [Disk.isDirectoryAt, hget] at hp
      cases hp
    | some n =>
      rw [isDirectoryAt_congr ((h.kept p n hkept hget).trans hget.symm), hp]

/-- What a later change may replace, the changes together may. -/
theorem not_exposed (h : OnlyChanges place beside above d d') (hp : ¬ d.Exposed place beside p) :
    ¬ d'.Exposed place beside p := by
  rintro (heq | ⟨hleads, hfile⟩)
  · exact hp (.inl heq)
  · have hdirectory : d.isDirectoryAt beside = true := by
      by_contra hfile
      exact hp (.inr ⟨hleads, by simpa using hfile⟩)
    rw [h.isDirectoryAt hdirectory fun _ => hdirectory] at hfile
    cases hfile

theorem trans {d₁ d₂ d₃ : Disk} (h₁ : OnlyChanges place beside above d₁ d₂)
    (h₂ : OnlyChanges place beside above d₂ d₃) : OnlyChanges place beside above d₁ d₃ where
  kept p n hp hn := h₂.kept p n (h₁.not_exposed hp) (h₁.kept p n hp hn)
  made p n hp hnone hn := by
    cases hmade : d₂.get? p with
    | none => exact h₂.made p n (h₁.not_exposed hp) hmade hn
    | some m =>
      have hm := h₂.kept p m (h₁.not_exposed hp) hmade
      obtain rfl : m = n := Option.some.inj (hm.symm.trans hn)
      exact h₁.made p m hp hnone hmade
  directory hp := by
    have hkept := h₁.directory hp
    rw [h₂.directory ((isDirectoryAt_congr hkept).trans hp), hkept]

/-- **A path to any other place still finds what it found.** -/
theorem find {cwd path : String} {found : Stamped} (h : OnlyChanges place beside above d d')
    (hplace : placeFrom cwd path ≠ place) (hbeside : placeFrom cwd path ≠ beside)
    (hfind : d.find cwd path = .ok found) : d'.find cwd path = .ok found := by
  obtain ⟨p, hlocate, hget, hloop⟩ := find_ok hfind
  -- A walk passes directories in directories only, and none of these is exposed.
  have hwalk (q : Place) (hq : d.Reached q) : d'.isDirectoryAt q = true :=
    h.isDirectoryAt (hq q (List.prefix_refl q)) fun hleads => hq beside hleads
  obtain ⟨hlocate', hbelow⟩ := locate_of_reached hwalk hlocate
  rw [← eq_placeFrom hlocate] at hplace hbeside
  have hkept : ¬ d.Exposed place beside p := by
    rintro (heq | ⟨hleads, hfile⟩)
    · exact hplace heq
    · rw [hbelow beside hleads hbeside.symm] at hfile
      cases hfile
  exact find_of_get? hlocate' (h.kept p found hkept hget) hloop

end OnlyChanges

/-! ### The changes of a saving program -/

theorem onlyChanges_makeDirectories {cwd path : String}
    (h : d.makeDirectories cwd path = .ok d') :
    OnlyChanges place beside (placeFrom cwd path) d d' where
  kept p n _ hn := makeDirectories_extends h p n hn
  made p n _ hnone hn := by
    rcases get?_makeDirectories h p with heq | ⟨-, hleads, stamp, hmade⟩
    · rw [heq, hnone] at hn
      cases hn
    · obtain rfl := Option.some.inj (hmade.symm.trans hn)
      exact ⟨rfl, hleads⟩
  directory hp := by
    rcases get?_makeDirectories h place with heq | ⟨hnone, -⟩
    · exact heq
    · rw [Disk.isDirectoryAt, hnone] at hp
      cases hp

/-- A new version of a file where no directory is. -/
theorem onlyChanges_putNew (hbeside : d.isDirectoryAt beside = false) (node : Node) :
    OnlyChanges place beside above d (d.putNew beside node) := by
  have hget (p : Place) (hp : p ≠ beside) : (d.putNew beside node).get? p = d.get? p := by
    rw [get?_putNew (ne_nil_of_not_directory hbeside), if_neg hp]
  have hne {p : Place} (hp : ¬ d.Exposed place beside p) : p ≠ beside := by
    rintro rfl
    exact hp (.inr ⟨List.prefix_refl p, hbeside⟩)
  refine ⟨fun p n hp hn => ?_, fun p n hp hnone hn => ?_, fun hplace => hget place ?_⟩
  · rw [hget p (hne hp), hn]
  · rw [hget p (hne hp), hnone] at hn
    cases hn
  · rintro rfl
    rw [hbeside] at hplace
    cases hplace

theorem onlyChanges_writeFile {cwd path : String} {content : List UInt8}
    (h : d.writeFile cwd path content = .ok d') :
    OnlyChanges place (placeFrom cwd path) above d d' := by
  obtain ⟨beside, executable, hlocate, hbeside, rfl⟩ := writeFile_ok h
  rw [← eq_placeFrom hlocate]
  exact onlyChanges_putNew hbeside _

/-- A file is moved onto another place. -/
theorem onlyChanges_rename {cwd source target : String}
    (h : d.rename cwd source target = .ok d')
    (hfile : d.isDirectoryAt (placeFrom cwd source) = false) :
    OnlyChanges (placeFrom cwd target) (placeFrom cwd source) above d d' := by
  obtain ⟨old, new, found, hold, hnew, -, hdirectory, rfl⟩ := rename_ok h
  rw [← eq_placeFrom hold] at hfile ⊢
  rw [← eq_placeFrom hnew]
  have hget {p : Place} (hp : ¬ d.Exposed new old p) : ((d.remove old).put new found).get? p = d.get? p := by
    obtain ⟨hnew, hold⟩ := not_or.mp hp
    rw [get?_put (ne_nil_of_not_directory hdirectory), if_neg hnew,
      get?_remove fun hleads => hold ⟨hleads, hfile⟩]
  refine ⟨fun p n hp hn => ?_, fun p n hp hnone hn => ?_, fun hplace => ?_⟩
  · rw [hget hp, hn]
  · rw [hget hp, hnone] at hn
    cases hn
  · rw [hdirectory] at hplace
    cases hplace

end ShellAssist.Disk
