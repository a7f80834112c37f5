import ShellAssist.History.Store
import ShellAssist.Proofs.Host.Disk

namespace ShellAssist

/-!
# Files are replaced as a whole

A file is replaced by writing a new one beside it and moving that into place. Whatever fails on the
way, a file that was there is left as it was; if nothing fails, the new content is there.

* `Store.replaceFile_cases` — how far replacing a file can get;
* `Store.replaceFile_ok` — the new content is read from the file;
* `Store.replaceFile_failed` — a file found at the path is still found, with its content and stamp.

The new file's path text is the old one with four characters behind it, so that the two walk the
same directories and end at different names.
-/

/-! ### Names with characters behind them -/

namespace Path

/-- The path of the new file beside an old one. -/
theorem toString_beside {path beside : Path} {suffix : String}
    (h : path.withName? (path.name ++ suffix) = some beside) :
    beside.toString = path.toString ++ suffix := by
  unfold withName? at h
  split at h
  · cases h
  · rename_i hfilled
    have hne : path.components ≠ [] := by simpa using hfilled
    have hname : path.name = path.components.getLast hne := by
      rw [name, List.getLast?_eq_getLast_of_ne_nil hne, Option.getD_some]
    have hcomponents := List.dropLast_append_getLast hne
    -- What is put behind the last component is put behind the whole text.
    have hjoin (init : List String) (last : String) :
        String.intercalate "/" (init ++ [last ++ suffix])
          = String.intercalate "/" (init ++ [last]) ++ suffix := by
      cases init with
      | nil => simp
      | cons c init =>
        rw [String.intercalate_append_of_ne_nil (by simp) (by simp),
          String.intercalate_append_of_ne_nil (by simp) (by simp), String.intercalate_singleton,
          String.intercalate_singleton, ← String.append_assoc]
    rw [← Option.some.inj h]
    simp only [toString]
    rw [if_neg (by simp), if_neg (by simp [hne]), hjoin, hname, hcomponents, String.append_assoc]

theorem isAbsolute_tmp (text : String) : isAbsolute (text ++ ".tmp") = isAbsolute text := by
  cases htext : text.toList with
  | nil => simp [isAbsolute, Text.startsWith, htext, List.isPrefixOf]
  | cons c cs => simp [isAbsolute, Text.startsWith, htext, List.isPrefixOf]

end Path

namespace Disk

variable {d d' : Disk} {cwd path : String}

/-- The new file does not stand at the old one's place. -/
theorem placeFrom_beside_ne (cwd path : String) :
    placeFrom cwd path ≠ placeFrom cwd (path ++ ".tmp") := by
  rw [placeFrom, placeFrom, Path.isAbsolute_tmp, ← String.append_assoc]
  obtain ⟨init, last, hsplit, happend⟩ := Chars.splitOn_append '/'
    ((if Path.isAbsolute path then "" else cwd ++ "/") ++ path).toList
  have hsuffix := happend ".tmp".toList (by decide)
  rw [← String.toList_append] at hsuffix
  -- Both paths lead to one directory, and one more component on from there.
  rw [Text.splitOn, Text.splitOn, hsplit, hsuffix, List.map_append, List.map_append, List.map_singleton,
    List.map_singleton, follow_append, follow_append]
  generalize follow [] (init.map String.ofList) = above
  -- With four characters behind it the last component is a name of its own.
  have hlong (text : String) (hshort : text.toList.length < 4) :
      String.ofList (last ++ ".tmp".toList) ≠ text := by
    rintro rfl
    rw [String.toList_ofList, List.length_append] at hshort
    have : ".tmp".toList.length = 4 := rfl
    omega
  have hbeside : follow above [String.ofList (last ++ ".tmp".toList)]
      = above ++ [String.ofList (last ++ ".tmp".toList)] := by
    simp only [follow, hlong "" (by decide), hlong "." (by decide), hlong ".." (by decide), decide_false,
      Bool.or_self, Bool.false_eq_true, if_false]
  rw [hbeside, follow, follow]
  intro heq
  -- So the old file stands right below that directory too, under a shorter name.
  have hlength := congrArg List.length heq
  rw [List.length_append, List.length_singleton] at hlength
  split at heq
  · rw [if_pos ‹_›] at hlength
    omega
  · rename_i hstay
    rw [if_neg hstay] at hlength
    split at heq
    · rw [if_pos ‹_›, follow, List.length_dropLast] at hlength
      omega
    · have hnames := List.append_cancel_left heq
      have hlast : last = last ++ ".tmp".toList := String.ofList_injective (List.cons.inj hnames).1
      have hzero := congrArg List.length hlast
      rw [List.length_append] at hzero
      have : ".tmp".toList.length = 4 := rfl
      omega

theorem locate_beside_ne {place beside : Place} (h : d.locate cwd path = .ok place)
    (hbeside : d.locate cwd (path ++ ".tmp") = .ok beside) : place ≠ beside := by
  rw [eq_placeFrom h, eq_placeFrom hbeside]
  exact placeFrom_beside_ne cwd path

/-- A new node where no directory is leaves every path at its place. -/
theorem locate_putNew {place found : Place} (hplace : d.isDirectoryAt place = false) (node : Node)
    (h : d.locate cwd path = .ok found) : (d.putNew place node).locate cwd path = .ok found := by
  refine (locate_of_reached (fun p hp => ?_) h).1
  have hp := hp p (List.prefix_refl p)
  rw [isDirectoryAt_congr, hp]
  rw [get?_putNew (ne_nil_of_not_directory hplace), if_neg]
  rintro rfl
  rw [hplace] at hp
  cases hp

/-- Writing the new file leaves the old one as it is. -/
theorem find_writeFile_beside {content : List UInt8} {found : Stamped}
    (hwrite : d.writeFile cwd (path ++ ".tmp") content = .ok d')
    (hfind : d.find cwd path = .ok found) : d'.find cwd path = .ok found := by
  obtain ⟨beside, executable, hbeside, hnew, rfl⟩ := writeFile_ok hwrite
  obtain ⟨place, hplace, hget, hloop⟩ := find_ok hfind
  have hne := locate_beside_ne hplace hbeside
  refine find_of_get? (locate_putNew hnew _ hplace) ?_ hloop
  rw [get?_putNew (ne_nil_of_not_directory hnew), if_neg hne, hget]

/-- A file that is written and moved is found at the new path. -/
theorem find_writeFile_rename {d₁ d₂ : Disk} {source target : String} {content : List UInt8}
    (hwrite : d.writeFile cwd source content = .ok d₁)
    (hrename : d₁.rename cwd source target = .ok d₂) :
    ∃ executable stamp, d₂.find cwd target = .ok ⟨.file content executable false, stamp⟩ := by
  obtain ⟨place, executable, hplace, hnew, rfl⟩ := writeFile_ok hwrite
  obtain ⟨old, new, found, hold, htarget, hfound, hdir, rfl⟩ := rename_ok hrename
  obtain rfl : place = old := Except.ok.inj ((locate_putNew hnew _ hplace).symm.trans hold)
  have hne := ne_nil_of_not_directory hnew
  rw [get?_putNew hne, if_pos rfl, Option.some.injEq] at hfound
  subst hfound
  have hlocate : (((d.putNew place (.file content executable false)).remove place).put new
      ⟨.file content executable false, d.nextStamp⟩).locate cwd target = .ok new := by
    -- The walk to the target passes neither the moved file nor the target.
    refine (locate_of_reached (fun p hp => ?_) htarget).1
    have hp' := hp p (List.prefix_refl p)
    have hfile : ¬ place <+: p := by
      intro hpre
      have hdirectory := hp place hpre
      rw [isDirectoryAt, get?_putNew hne, if_pos rfl] at hdirectory
      cases hdirectory
    have htarget' : p ≠ new := by
      rintro rfl
      rw [hdir] at hp'
      cases hp'
    rw [isDirectoryAt_congr, hp']
    rw [get?_put (ne_nil_of_not_directory hdir), if_neg htarget', get?_remove hfile]
  have hget : (((d.putNew place (.file content executable false)).remove place).put new
      ⟨.file content executable false, d.nextStamp⟩).get? new
        = some ⟨.file content executable false, d.nextStamp⟩ := by
    rw [get?_put (ne_nil_of_not_directory hdir), if_pos rfl]
  exact ⟨executable, d.nextStamp, find_of_get? hlocate hget (by simp)⟩

end Disk

namespace History.Store

variable {path : Path} {content : List UInt8} {w w' : World}

/-! ### Replacing a file -/

theorem takeSaveFault_world (w : World) :
    ∃ saveFaults, w.takeSaveFault.2 = { w with saveFaults } := by
  unfold World.takeSaveFault
  split
  · exact ⟨w.saveFaults, rfl⟩
  · rename_i rest _
    exact ⟨rest, rfl⟩

/-- What replacing a file can leave on the disk. Only the last step answers that it worked. -/
inductive Replaces (path : Path) (content : List UInt8) (w : World) :
    Except Failure Bool → Disk → Prop
  /-- The directories could not be made. -/
  | untouched {result : Except Failure Bool} (hresult : result ≠ .ok true) :
      Replaces path content w result w.disk
  /-- The directories were made, and the new file could not be. -/
  | made {result : Except Failure Bool} {disk : Disk} (hresult : result ≠ .ok true)
      (hmade : w.disk.makeDirectories w.cwd path.parent.toString = .ok disk) :
      Replaces path content w result disk
  /-- The new file was written, in part perhaps, and could not be moved. -/
  | written {result : Except Failure Bool} {disk disk₁ : Disk} {kept : List UInt8}
      (hresult : result ≠ .ok true)
      (hmade : w.disk.makeDirectories w.cwd path.parent.toString = .ok disk)
      (hwritten : disk.writeFile w.cwd (path.toString ++ ".tmp") kept = .ok disk₁) :
      Replaces path content w result disk₁
  /-- The new file was written as a whole and moved into place. -/
  | moved {disk disk₁ disk₂ : Disk}
      (hmade : w.disk.makeDirectories w.cwd path.parent.toString = .ok disk)
      (hwritten : disk.writeFile w.cwd (path.toString ++ ".tmp") content = .ok disk₁)
      (hmoved : disk₁.rename w.cwd (path.toString ++ ".tmp") path.toString = .ok disk₂) :
      Replaces path content w (.ok true) disk₂

/-- Replacing a file changes the disk, as `Replaces` says, and uses up a fault. -/
theorem replaceFile_cases (path : Path) (content : List UInt8) (w : World) :
    ∃ disk saveFaults, (replaceFile path content w).2 = { w with disk, saveFaults } ∧
      Replaces path content w (replaceFile path content w).1 disk := by
  obtain ⟨saveFaults, hfaults⟩ := takeSaveFault_world w
  unfold replaceFile
  rcases htake : w.takeSaveFault with ⟨fault, w₁⟩
  rw [htake] at hfaults
  simp only at hfaults
  subst hfaults
  simp only
  -- The cases are the steps that can fail, by a fault or by themselves, in their order.
  split
  · rename_i failure _
    exact ⟨_, saveFaults, rfl, .untouched (by cases failure <;> simp)⟩
  · rename_i disk hmade
    have hdisk : w.disk.makeDirectories w.cwd path.parent.toString = .ok disk := by
      split at hmade
      · cases hmade
      · exact hmade
    split
    · exact ⟨_, saveFaults, rfl, .made (by simp) hdisk⟩
    · rename_i beside hbeside
      rw [Path.toString_beside hbeside]
      split
      · rename_i failure _
        exact ⟨_, saveFaults, rfl, .made (by cases failure <;> simp) hdisk⟩
      · rename_i disk₁ hwritten
        split at hwritten
        · cases hwritten
        · split
          · exact ⟨_, saveFaults, rfl, .written (by simp) hdisk hwritten⟩
          · split
            · rename_i failure _
              exact ⟨_, saveFaults, rfl, .written (by cases failure <;> simp) hdisk hwritten⟩
            · rename_i disk₂ hmoved
              exact ⟨_, saveFaults, rfl, .moved hdisk hwritten hmoved⟩

/-- **A replaced file holds the new content.** -/
theorem replaceFile_ok (h : replaceFile path content w = (.ok true, w')) :
    ∃ executable stamp,
      w'.disk.find w'.cwd path.toString = .ok ⟨.file content executable false, stamp⟩ := by
  obtain ⟨disk, saveFaults, hworld, hreplaces⟩ := replaceFile_cases path content w
  rw [h] at hworld hreplaces
  obtain rfl : w' = { w with disk, saveFaults } := hworld
  cases hreplaces with
  | untouched hresult => exact absurd rfl hresult
  | made hresult => exact absurd rfl hresult
  | written hresult => exact absurd rfl hresult
  | moved _ hwritten hmoved => exact Disk.find_writeFile_rename hwritten hmoved

/-- **A file that could not be replaced is left as it was.** -/
theorem replaceFile_failed {result : Except Failure Bool} (hresult : result ≠ .ok true)
    (h : replaceFile path content w = (result, w')) {found : Stamped}
    (hfound : w.disk.find w.cwd path.toString = .ok found) :
    w'.disk.find w'.cwd path.toString = .ok found := by
  obtain ⟨disk, saveFaults, hworld, hreplaces⟩ := replaceFile_cases path content w
  rw [h] at hworld hreplaces
  obtain rfl : w' = { w with disk, saveFaults } := hworld
  cases hreplaces with
  | untouched => exact hfound
  | made _ hmade => exact Disk.find_of_extends (Disk.makeDirectories_extends hmade) hfound
  | written _ hmade hwritten =>
    exact Disk.find_writeFile_beside hwritten
      (Disk.find_of_extends (Disk.makeDirectories_extends hmade) hfound)
  | moved => exact absurd rfl hresult

end History.Store

end ShellAssist
