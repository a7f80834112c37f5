import ShellAssist.Proofs.History.Journal
import ShellAssist.Proofs.History.Replacement

namespace ShellAssist.History

/-!
# What a store reads and writes

A store reads its file once and writes it as a whole, so all that matters about the file is which
entries a store of the same configuration would read from it.

* `Store.reading` — the entries that are read from the file now;
* `Store.save_cases` — a save that works makes the file read as the entries that are held, and one
  that fails leaves a file that was there as it was;
* `Store.heldBytes?` — the bytes of the file, readable or not.
-/

namespace Store

variable {s s' : Store} {w w' : World} {entries : List Entry}

/-! ### Keeping the newest -/

@[simp] theorem trim_nil (s : Store) : s.trim [] = [] := by
  unfold trim Slice.after
  split <;> simp

/-- Without a limit all entries are kept. -/
theorem trim_of_zero (h : s.maxEntries = 0) (entries : List Entry) : s.trim entries = entries := by
  simp [trim, h]

/-- With a limit that is not negative the newest are kept. -/
theorem trim_of_nonneg (h : 0 ≤ s.maxEntries) (entries : List Entry) :
    s.trim entries = if s.maxEntries = 0 then entries
      else entries.drop (entries.length - s.maxEntries.toNat) := by
  by_cases hzero : s.maxEntries = 0
  · simp [trim, hzero]
  · rw [if_neg hzero]
    by_cases hlong : s.maxEntries < entries.length
    · have hposition : Slice.position entries.length (-s.maxEntries)
          = entries.length - s.maxEntries.toNat := by
        unfold Slice.position
        rw [if_pos (by omega)]
        omega
      simp [trim, hzero, hlong, Slice.after, hposition]
    · have hnone : entries.length - s.maxEntries.toNat = 0 := by omega
      simp [trim, hlong, hnone]

/-- With a negative limit some entry is dropped whenever there are any. -/
theorem eq_nil_of_trim_eq (h : s.maxEntries < 0)
    (htrim : (s.trim entries).length = entries.length) : entries = [] := by
  have hposition : Slice.position entries.length (-s.maxEntries)
      = min (-s.maxEntries).toNat entries.length := by
    unfold Slice.position
    rw [if_neg (by omega)]
  -- Any number of entries is above the limit, and as many as its size are dropped in front.
  have hlong : (decide (s.maxEntries ≠ 0) && decide (s.maxEntries < entries.length)) = true := by
    simp only [Bool.and_eq_true, decide_eq_true_eq]
    omega
  rw [trim, if_pos hlong, Slice.after, List.length_drop, hposition] at htrim
  exact List.eq_nil_of_length_eq_zero (by omega)

/-- With a limit that is not negative, keeping the newest twice is keeping them once. -/
theorem trim_trim (h : 0 ≤ s.maxEntries) (entries : List Entry) :
    s.trim (s.trim entries) = s.trim entries := by
  simp only [trim_of_nonneg h]
  split
  · rfl
  · rw [List.drop_drop, List.length_drop]
    congr 1
    omega

/-- Entries may be changed before or after the newest are kept. -/
theorem trim_map (s : Store) (f : Entry → Entry) (entries : List Entry) :
    s.trim (entries.map f) = (s.trim entries).map f := by
  unfold trim Slice.after
  rw [List.length_map]
  split
  · rw [List.map_drop]
  · rfl

/-- What is kept was there. -/
theorem mem_of_mem_trim {e : Entry} (h : e ∈ s.trim entries) : e ∈ entries := by
  unfold trim Slice.after at h
  split at h
  · exact List.mem_of_mem_drop h
  · exact h

/-! ### Reading -/

/-- The entries that are read from the file now. -/
def reading (s : Store) (w : World) : Except Failure (List Entry) :=
  match w.disk.readText w.cwd s.path.toString with
  | .ok content => s.parse content
  | .error .refused => .ok []
  | .error .nul => .error .embeddedNul

/-- Two stores that take the same entries and keep as many of them in the same file, nested as deep. -/
structure SameConfig (s s' : Store) : Prop where
  path : s'.path = s.path
  maxEntries : s'.maxEntries = s.maxEntries
  saveCorrections : s'.saveCorrections = s.saveCorrections
  nesting : s'.nesting = s.nesting

/-- A store has its own configuration. -/
theorem SameConfig.refl (s : Store) : s.SameConfig s :=
  ⟨rfl, rfl, rfl, rfl⟩

/-- Stores that share one with a third share it. -/
theorem SameConfig.trans {s₁ s₂ s₃ : Store} (h₁ : s₁.SameConfig s₂) (h₂ : s₂.SameConfig s₃) :
    s₁.SameConfig s₃ :=
  ⟨h₂.path.trans h₁.path, h₂.maxEntries.trans h₁.maxEntries,
    h₂.saveCorrections.trans h₁.saveCorrections, h₂.nesting.trans h₁.nesting⟩

/-- They keep as many entries. -/
theorem SameConfig.trim (h : SameConfig s s') (entries : List Entry) :
    s'.trim entries = s.trim entries := by
  rw [Store.trim, Store.trim, h.maxEntries]

/-- They parse a text in the same way. -/
theorem SameConfig.parse (h : SameConfig s s') (content : String) :
    s'.parse content = s.parse content := by
  have htrim : s'.trim = s.trim := funext h.trim
  rw [Store.parse, Store.parse, htrim, h.nesting]

/-- They read the same. -/
theorem SameConfig.reading (h : SameConfig s s') (w : World) : s'.reading w = s.reading w := by
  rw [Store.reading, Store.reading, h.path]
  split
  · exact h.parse _
  · rfl
  · rfl

/-- Loading takes what is read, and changes nothing if that fails. -/
theorem load_eq (s : Store) (w : World) : s.load w = match s.reading w with
    | .error failure => (.error failure, s)
    | .ok entries => (.ok (), { s with entries, loaded := true }) := rfl

/-- Entries of a file's text would come back as they are. -/
theorem parse_owned {content : String} (h : s.parse content = .ok entries) :
    ∀ e ∈ entries, e.Owned ∧ e.plain = e := by
  unfold parse at h
  cases hparse : Journal.parse s.nesting content with
  | error failure =>
    rw [hparse] at h
    cases h
  | ok found =>
    rw [hparse] at h
    cases h
    exact fun e he => Journal.parse_owned hparse e (mem_of_mem_trim he)

/-- Whatever is read would come back as it is. -/
theorem reading_owned (h : s.reading w = .ok entries) : ∀ e ∈ entries, e.Owned ∧ e.plain = e := by
  unfold reading at h
  split at h
  · exact parse_owned h
  · cases h
    exact fun e he => nomatch he
  · cases h

/-- Whatever is read would come back as it is. -/
theorem reading_plain (h : s.reading w = .ok entries) : entries.map Entry.plain = entries := by
  refine (List.map_congr_left fun e he => ?_).trans (List.map_id entries)
  exact (reading_owned h e he).2

/-- Entries that are read are no more than are kept. -/
theorem trim_reading (hmax : 0 ≤ s.maxEntries) (h : s.reading w = .ok entries) :
    s.trim entries = entries := by
  unfold reading at h
  split at h
  · rename_i content _
    -- What the parser gives has been trimmed already, and trimming twice is trimming once.
    unfold parse at h
    cases hparse : Journal.parse s.nesting content with
    | error failure =>
      rw [hparse] at h
      cases h
    | ok found =>
      rw [hparse] at h
      cases h
      exact trim_trim hmax found
  · cases h
    exact trim_nil s
  · cases h

/-! ### Bytes -/

/-- The bytes of the file, whether they may be read or not. -/
def heldBytes? (s : Store) (w : World) : Option (List UInt8) :=
  match w.disk.find w.cwd s.path.toString with
  | .ok ⟨.file content _ _, _⟩ => some content
  | _ => none

/-- The text of a file's bytes as it is read. -/
def textOf (content : List UInt8) : String :=
  String.ofList (Chars.unifyNewlines (Text.decodeLossy content))

/-- A file is there that may not be read. -/
def IsLocked (s : Store) (w : World) : Prop :=
  ∃ content executable stamp,
    w.disk.find w.cwd s.path.toString = .ok ⟨.file content executable true, stamp⟩

/-- Where there are bytes there is a file. -/
theorem heldBytes?_eq_some {content : List UInt8} (h : s.heldBytes? w = some content) :
    ∃ executable unreadable stamp,
      w.disk.find w.cwd s.path.toString = .ok ⟨.file content executable unreadable, stamp⟩ := by
  unfold heldBytes? at h
  split at h
  · rename_i executable unreadable stamp hfind
    cases h
    exact ⟨executable, unreadable, stamp, hfind⟩
  · cases h

/-- A file that may be read is read as its bytes are parsed. -/
theorem reading_of_heldBytes? {content : List UInt8} (h : s.heldBytes? w = some content)
    (hlocked : ¬ s.IsLocked w) : s.reading w = s.parse (textOf content) := by
  obtain ⟨executable, unreadable, stamp, hfind⟩ := heldBytes?_eq_some h
  cases unreadable with
  | true => exact absurd ⟨content, executable, stamp, hfind⟩ hlocked
  | false =>
    have hread : w.disk.readText w.cwd s.path.toString = .ok (textOf content) := by
      rw [Disk.readText, Disk.read, hfind]
      rfl
    rw [reading, hread]

/-- A file that may not be read counts as empty. -/
theorem reading_of_locked (h : s.IsLocked w) : s.reading w = .ok [] := by
  obtain ⟨content, executable, stamp, hfind⟩ := h
  have hread : w.disk.readText w.cwd s.path.toString = .error .refused := by
    rw [Disk.readText, Disk.read, hfind]
    rfl
  rw [reading, hread]

/-! ### Saving -/

/-- What a save can do. It either works, and then the file holds the entries, or it fails, and then
a file that was there is left as it was. -/
inductive SaveEffect (s : Store) (w : World) : StoreStep Bool → Prop
  | written {w' : World} {text : String} {executable : Bool} {stamp : Nat}
      (hrender : Journal.render s.nesting (s.trim s.entries) = .ok text)
      (hfind : w'.disk.find w'.cwd s.path.toString
        = .ok ⟨.file (Text.encode text.toList) executable false, stamp⟩) :
      SaveEffect s w (.ok true, { s with entries := s.trim s.entries, dirty := false }, w')
  | failed {result : Except Failure Bool} {w' : World} (hresult : result ≠ .ok true)
      (hkept : ∀ found, w.disk.find w.cwd s.path.toString = .ok found →
        w'.disk.find w'.cwd s.path.toString = .ok found) :
      SaveEffect s w (result, { s with entries := s.trim s.entries }, w')

/-- A save does one of both. -/
theorem save_cases (s : Store) (w : World) : SaveEffect s w (s.save w) := by
  unfold save
  simp only
  split
  · exact .failed (by simp) fun found h => h
  · -- The file is replaced, which works, fails or raises.
    rename_i text hrender
    split
    · rename_i w' hreplaced
      obtain ⟨executable, stamp, hfind⟩ := replaceFile_ok hreplaced
      exact .written hrender hfind
    · rename_i w' hreplaced
      exact .failed (by simp) fun found h => replaceFile_failed (by simp) hreplaced h
    · rename_i w' hreplaced
      exact .failed (by simp) fun found h => replaceFile_failed (by simp) hreplaced h

/-- A file that was written reads as what was written. -/
theorem reading_of_written {text : String} {executable : Bool} {stamp : Nat}
    (howned : ∀ e ∈ entries, e.Owned) (hrender : Journal.render s.nesting entries = .ok text)
    (hfind : w.disk.find w.cwd s.path.toString
      = .ok ⟨.file (Text.encode text.toList) executable false, stamp⟩) :
    s.reading w = .ok (s.trim (entries.map Entry.plain)) := by
  have hread : w.disk.readText w.cwd s.path.toString = .ok text := by
    rw [Disk.readText, Disk.read, hfind]
    show Except.ok (String.ofList (Chars.unifyNewlines (Text.decodeLossy
      (Text.encode text.toList)))) = _
    rw [Journal.decode_render hrender]
  rw [reading, hread]
  simp only [parse, Journal.parse_render howned hrender]
  rfl

end Store

end ShellAssist.History
