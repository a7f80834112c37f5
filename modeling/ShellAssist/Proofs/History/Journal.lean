import ShellAssist.History.Dialect.Journal
import ShellAssist.Host.Disk
import ShellAssist.Proofs.Failure
import ShellAssist.Proofs.Json.Values
import ShellAssist.Proofs.Text.Lines
import Mathlib.Data.List.TakeWhile

namespace ShellAssist

/-!
# The history file is written and read back

A record stands on one line of printable ASCII characters, so that neither the bytes nor the line
ends nor the white space around a line touch it.

* `Journal.parse_render` — the entries of a file come back from its text;
* `Journal.decode_render` — the text of a file comes back from its bytes;
* `Journal.parse_owned` — whatever a file holds is read as entries that would come back as they are.

What an entry has to be for that is `Entry.Owned`, and how it comes back is `Entry.plain`: only its
metadata can change, and they come back as a value does.
-/

/-! ### Lines -/

namespace Chars

/-- A text of printable characters and line feeds. -/
def PrintableLines (text : List Char) : Prop :=
  ∀ c ∈ text, c = '\n' ∨ (0x20 ≤ c.toNat ∧ c.toNat < 0x7F)

/-- Such a text is ASCII. -/
theorem PrintableLines.isAscii {text : List Char} (h : PrintableLines text) :
    ∀ c ∈ text, c.toNat < 0x80 := by
  intro c hc
  rcases h c hc with rfl | h
  · decide
  · omega

/-- No printable character ends a line. -/
theorem isLineBreak_of_printable {c : Char} (h : 0x20 ≤ c.toNat ∧ c.toNat < 0x7F) :
    isLineBreak c = false := by
  simp only [isLineBreak, inRanges, List.any_cons, List.any_nil, Bool.or_false,
    Bool.or_eq_false_iff, Bool.and_eq_false_iff, decide_eq_false_iff_not]
  omega

/-- So a printable text is a line. -/
theorem Printable.unbroken {line : List Char} (h : Printable line) : Unbroken line :=
  fun c hc => isLineBreak_of_printable (h c hc)

/-- Text without white space at its ends is left as it is. -/
theorem strip_eq_self {text : List Char} (hhead : ∀ c ∈ text.head?, isBlank c = false)
    (hlast : ∀ c ∈ text.getLast?, isBlank c = false) : strip text = text := by
  have hdrop {l : List Char} (h : ∀ c ∈ l.head?, isBlank c = false) : l.dropWhile isBlank = l := by
    cases l with
    | nil => rfl
    | cons c l => simp [h c (by simp)]
  rw [strip, trim, dropEndWhile, hdrop hhead, hdrop (by rwa [List.head?_reverse]),
    List.reverse_reverse]

/-- Nothing is left of white space. -/
theorem strip_eq_nil {text : List Char} (h : text.all isBlank = true) : strip text = [] := by
  have hdrop : text.dropWhile isBlank = [] :=
    List.dropWhile_eq_nil_iff.mpr fun c hc => List.all_eq_true.mp h c hc
  rw [strip, trim, hdrop]
  rfl

/-- A carriage return is not printable. -/
theorem PrintableLines.return_not_mem {text : List Char} (h : PrintableLines text) : '\r' ∉ text := by
  intro hmem
  rcases h '\r' hmem with h | h
  · exact absurd h (by decide)
  · exact absurd h.1 (by decide)

end Chars

/-! ### Bytes -/

namespace Text

/-- An ASCII character is one byte. -/
theorem encode_of_isAscii {text : List Char} (h : ∀ c ∈ text, c.toNat < 0x80) :
    encode text = text.map fun c => UInt8.ofNat c.toNat := by
  rw [encode, List.map_eq_flatMap]
  refine List.flatMap_congr fun c hc => ?_
  rw [String.utf8EncodeChar, if_pos (show c.val.toNat ≤ 0x7f from Nat.le_of_lt_succ (h c hc))]
  rfl

/-- ASCII text comes back from its bytes. -/
theorem decodeLossy_encode {text : List Char} (h : ∀ c ∈ text, c.toNat < 0x80) :
    decodeLossy (encode text) = text := by
  induction text with
  | nil => rfl
  | cons c text ih =>
    have hc : c.toNat < 0x80 := h c List.mem_cons_self
    have htext : ∀ d ∈ text, d.toNat < 0x80 := fun d hd => h d (List.mem_cons_of_mem _ hd)
    have hrest := ih htext
    have hbyte : (UInt8.ofNat c.toNat).toNat = c.toNat := by
      rw [UInt8.toNat_ofNat']
      omega
    unfold decodeLossy at hrest ⊢
    rw [encode_of_isAscii h, List.map_cons, ← encode_of_isAscii htext]
    simp [decodeFrom, Utf8State.ofFirst, hbyte, hc, hrest]

end Text

namespace History

/-! ### Entries of the program's own history -/

/-- An entry as programs make it: its command is not blank. -/
structure Entry.Valid (e : Entry) : Prop where
  command : Text.isBlank e.command = false

/-- An entry as the program's own history holds it. -/
structure Entry.Owned (e : Entry) : Prop extends e.Valid where
  source : e.source = Journal.sourceName

/-- An entry as it comes back from the file. -/
def Entry.plain (e : Entry) : Entry :=
  { e with metadata := Members.ofList (Value.plainMembers e.metadata) }

/-- What comes back of an entry of the program's own history is one. -/
theorem Entry.Owned.plain {e : Entry} (h : e.Owned) : e.plain.Owned :=
  ⟨⟨h.command⟩, h.source⟩

/-! ### Records -/

namespace Entry

/-- A record comes back as that of the entry that does. -/
theorem plain_toRecord (e : Entry) : e.toRecord.plain = e.plain.toRecord := by
  have hwhole (n : Option Int) : (Value.ofInt? n).plain = .ofInt? n := by
    cases n <;> rfl
  have htext (s : Option String) : (Value.ofString? s).plain = .ofString? s := by
    cases s <;> rfl
  have hmembers : Value.plainMembers e.recordMembers = e.plain.recordMembers := by
    simp only [recordMembers, Value.plainMembers, hwhole, htext, plain, Value.plain, Key.plain,
      Key.text]
  have hnodup : (e.plain.recordMembers.map Prod.fst).Nodup := by
    simp [recordMembers]
  rw [toRecord, Value.plain, hmembers, Members.ofList_of_nodup hnodup, toRecord]

/-- The members of an object that holds each field of an entry under its first name. -/
def fieldMembers (e : Entry) (metadata : Members) : Members :=
  [("command", .str e.command), ("timestamp", .ofInt? e.timestamp),
   ("exit_code", .ofInt? e.exitCode), ("cwd", .ofString? e.cwd),
   ("duration", .ofInt? e.duration), ("metadata", .obj metadata)]

/-- A record is read from such an object. -/
theorem exists_of_ofJson_eq_toRecord {e : Entry} {j : Json} (h : Value.ofJson j = e.toRecord) :
    ∃ metadata, Value.ofMembers metadata = e.metadata ∧ j = .obj (e.fieldMembers metadata) := by
  obtain ⟨fields, rfl, hfields⟩ := Value.exists_of_ofJson_eq_dict h
  obtain ⟨command, record, rfl, hcommand, h⟩ := Value.exists_of_ofMembers_eq_cons hfields
  obtain ⟨timestamp, record, rfl, htimestamp, h⟩ := Value.exists_of_ofMembers_eq_cons h
  obtain ⟨exitCode, record, rfl, hexit, h⟩ := Value.exists_of_ofMembers_eq_cons h
  obtain ⟨cwd, record, rfl, hcwd, h⟩ := Value.exists_of_ofMembers_eq_cons h
  obtain ⟨duration, record, rfl, hduration, h⟩ := Value.exists_of_ofMembers_eq_cons h
  obtain ⟨metadata, record, rfl, hmetadata, h⟩ := Value.exists_of_ofMembers_eq_cons h
  -- The record has six members and no seventh.
  obtain rfl : record = [] := by
    cases record with
    | nil => rfl
    | cons p record => cases h
  obtain ⟨members, rfl, hmembers⟩ := Value.exists_of_ofJson_eq_dict hmetadata
  refine ⟨members, hmembers, ?_⟩
  rw [Value.eq_str_of_ofJson hcommand, Value.eq_ofInt?_of_ofJson htimestamp,
    Value.eq_ofInt?_of_ofJson hexit, Value.eq_ofString?_of_ofJson hcwd,
    Value.eq_ofInt?_of_ofJson hduration, fieldMembers]

/-- A whole number is found under its name, and under no older one if it is missing. -/
theorem wholeOf_firstOf {record : Members} {name : String} {older : List String} (n : Option Int)
    (hname : Members.get? record name = some (Json.ofInt? n))
    (holder : firstOf record older = none) : wholeOf (firstOf record (name :: older)) = .ok n := by
  rw [firstOf, List.findSome?_cons, hname]
  cases n with
  | none => exact congrArg wholeOf holder
  | some n => rfl

/-- So is a text. -/
theorem textOf_firstOf {record : Members} {name : String} {older : List String} (s : Option String)
    (hname : Members.get? record name = some (Json.ofString? s))
    (holder : firstOf record older = none) : textOf (firstOf record (name :: older)) = s := by
  rw [firstOf, List.findSome?_cons, hname]
  cases s with
  | none => exact congrArg textOf holder
  | some s => rfl

/-- An entry is read from the JSON value of its record. -/
theorem ofValue_of_ofJson_eq_toRecord {e : Entry} (he : e.Owned) {j : Json}
    (h : Value.ofJson j = e.toRecord) : Entry.ofValue j Journal.sourceName = .ok e := by
  obtain ⟨metadata, hmembers, rfl⟩ := exists_of_ofJson_eq_toRecord h
  -- Each field is found under its first name; the older names are not in the object.
  have hcommand : textOf (firstOf (e.fieldMembers metadata) ["command", "cmd"]) = some e.command :=
    textOf_firstOf (some e.command)
      (by simp [fieldMembers, Members.get?, Json.ofString?])
      (by simp [fieldMembers, Members.get?, firstOf, List.lookup_cons])
  have htimestamp : wholeOf (firstOf (e.fieldMembers metadata) ["timestamp", "ts"])
      = .ok e.timestamp :=
    wholeOf_firstOf _ (by simp [fieldMembers, Members.get?, List.lookup_cons])
      (by simp [fieldMembers, Members.get?, firstOf, List.lookup_cons])
  have hexit : wholeOf (firstOf (e.fieldMembers metadata) ["exit_code", "exitCode", "exit"])
      = .ok e.exitCode :=
    wholeOf_firstOf _ (by simp [fieldMembers, Members.get?, List.lookup_cons])
      (by simp [fieldMembers, Members.get?, firstOf, List.lookup_cons])
  have hcwd : textOf (firstOf (e.fieldMembers metadata) ["cwd", "dir"]) = e.cwd :=
    textOf_firstOf _ (by simp [fieldMembers, Members.get?, List.lookup_cons])
      (by simp [fieldMembers, Members.get?, firstOf, List.lookup_cons])
  have hduration : wholeOf (firstOf (e.fieldMembers metadata) ["duration", "dur"])
      = .ok e.duration :=
    wholeOf_firstOf _ (by simp [fieldMembers, Members.get?, List.lookup_cons])
      (by simp [fieldMembers, Members.get?, firstOf, List.lookup_cons])
  have hmetadata : Members.get? (e.fieldMembers metadata) "metadata" = some (.obj metadata) := by
    simp [fieldMembers, Members.get?, List.lookup_cons]
  rw [ofValue, ofRecord, hcommand]
  simp only [htimestamp, hexit, hcwd, hduration, hmetadata, bind, Except.bind, checked, he.command,
    Bool.false_eq_true, if_false]
  rw [hmembers, ← he.source]

end Entry

/-! ### Lines and files -/

namespace Journal

variable {nesting : Nat} {entries : List Entry} {texts : List String} {text : String}

/-- What is written for a mapping is an object. -/
theorem exists_of_toJson_dict {room : Nat} {members : List (Key × Value)} {j : Json}
    (h : (Value.dict members).toJson room = .ok j) : ∃ js, j = .obj js := by
  unfold Value.toJson at h
  split at h
  · cases h
  · obtain ⟨js, -, rfl⟩ := map_ok_iff.mp h
    exact ⟨js, rfl⟩

/-- The line of a record is the text of an object. -/
theorem encode_toRecord {e : Entry} (h : e.toRecord.encode nesting = .ok text) :
    Chars.Printable text.toList ∧ text.toList.head? = some '\x7b' ∧
      text.toList.getLast? = some '\x7d' := by
  obtain ⟨j, hj, rfl⟩ := map_ok_iff.mp h
  obtain ⟨members, rfl⟩ := exists_of_toJson_dict hj
  rw [Json.render, String.toList_ofList]
  refine ⟨Json.printable_write 0 _, ?_, ?_⟩
  · cases members <;> rw [Json.write] <;> rfl
  · cases members with
    | nil =>
      rw [Json.write]
      rfl
    | cons p members =>
      rw [Json.write, ← List.cons_append]
      exact List.getLast?_concat

/-- The line of a record is read as its entry. -/
theorem entriesOfLine_encode {e : Entry} (he : e.Owned)
    (h : e.toRecord.encode nesting = .ok text) :
    entriesOfLine nesting text.toList = .ok [e.plain] := by
  obtain ⟨hprintable, hhead, hlast⟩ := encode_toRecord h
  -- The line begins and ends with a brace, so that nothing is stripped.
  have hstrip : Chars.strip text.toList = text.toList := by
    refine Chars.strip_eq_self ?_ ?_
    · intro c hc
      rw [hhead] at hc
      cases hc
      decide
    · intro c hc
      rw [hlast] at hc
      cases hc
      decide
  obtain ⟨j, hj, -, hread⟩ := Value.read_encode h
  have hback : Value.ofJson j.plain = e.plain.toRecord :=
    (Value.isWrittenAs_toJson _ j hj).comesBack.trans (Entry.plain_toRecord e)
  have hvalue := Entry.ofValue_of_ofJson_eq_toRecord he.plain hback
  have hrecord : recordOf nesting text.toList = .ok (some e.plain) := by
    obtain ⟨rest, hcons⟩ : ∃ rest, text.toList = '\x7b' :: rest :=
      ⟨text.toList.tail, List.eq_cons_of_mem_head? hhead⟩
    rw [hcons] at hread ⊢
    have hbind : (Json.read nesting ('\x7b' :: rest) >>= fun value => Entry.ofValue value sourceName)
        = .ok e.plain := by
      rw [hread]
      exact hvalue
    simp only [recordOf, hbind]
  have hempty : text.toList.isEmpty = false := by
    rw [List.isEmpty_eq_false_iff]
    intro hnil
    rw [hnil] at hhead
    cases hhead
  simp only [entriesOfLine, hstrip, hempty, Bool.false_eq_true, if_false, hrecord]
  rfl

/-- The lines of a file's text. -/
theorem render_ok (h : render nesting entries = .ok text) :
    ∃ texts, List.Forall₂ (fun (e : Entry) t => e.toRecord.encode nesting = .ok t) entries texts ∧
      text = String.join (texts.map (· ++ "\n")) := by
  unfold render at h
  cases hlines : entries.mapM (fun e => e.toRecord.encode nesting) with
  | error failure =>
    rw [hlines] at h
    cases h
  | ok texts =>
    rw [hlines] at h
    exact ⟨texts, mapM_ok_iff.mp hlines, (Except.ok.inj h).symm⟩

/-- Each line has a line feed behind it. -/
theorem toList_join_cons (line : String) (texts : List String) :
    (String.join ((line :: texts).map (· ++ "\n"))).toList
      = line.toList ++ '\n' :: (String.join (texts.map (· ++ "\n"))).toList := by
  simp [String.toList_join]

/-- The lines of the text are read again. -/
theorem lines_join (h : ∀ t ∈ texts, Chars.Printable t.toList) :
    Chars.lines (String.join (texts.map (· ++ "\n"))).toList = texts.map String.toList := by
  induction texts with
  | nil => rfl
  | cons t texts ih =>
    rw [toList_join_cons, Chars.lines_append_feed (h t List.mem_cons_self).unbroken,
      ih fun u hu => h u (List.mem_cons_of_mem _ hu), List.map_cons]

/-- The text is printable but for its line feeds. -/
theorem printableLines_join (h : ∀ t ∈ texts, Chars.Printable t.toList) :
    Chars.PrintableLines (String.join (texts.map (· ++ "\n"))).toList := by
  induction texts with
  | nil =>
    intro c hc
    cases hc
  | cons t texts ih =>
    rw [toList_join_cons]
    intro c hc
    rcases List.mem_append.mp hc with hc | hc
    · exact .inr (h t List.mem_cons_self c hc)
    · rcases List.mem_cons.mp hc with rfl | hc
      · exact .inl rfl
      · exact ih (fun u hu => h u (List.mem_cons_of_mem _ hu)) c hc

/-- The lines of records are printable. -/
theorem printable_of_forall₂
    (h : List.Forall₂ (fun (e : Entry) t => e.toRecord.encode nesting = .ok t) entries texts) :
    ∀ t ∈ texts, Chars.Printable t.toList := by
  induction h with
  | nil =>
    intro t ht
    cases ht
  | cons hline _ ih =>
    intro t ht
    rcases List.mem_cons.mp ht with rfl | ht
    · exact (encode_toRecord hline).1
    · exact ih t ht

/-- **The entries of a file come back from its text.** -/
theorem parse_render (howned : ∀ e ∈ entries, e.Owned) (h : render nesting entries = .ok text) :
    parse nesting text = .ok (entries.map Entry.plain) := by
  obtain ⟨texts, hlines, rfl⟩ := render_ok h
  have hmap : (texts.map String.toList).mapM (entriesOfLine nesting)
      = .ok (entries.map fun e => [e.plain]) := by
    rw [mapM_ok_iff]
    clear h
    induction hlines with
    | nil => exact .nil
    | cons hline _ ih =>
      exact .cons (entriesOfLine_encode (howned _ List.mem_cons_self) hline)
        (ih fun e he => howned e (List.mem_cons_of_mem _ he))
  rw [parse, lines_join (printable_of_forall₂ hlines), hmap]
  show Except.ok (entries.map fun e => [e.plain]).flatten = _
  rw [← List.flatMap_def, List.map_eq_flatMap]

/-- **The text of a file comes back from its bytes.** -/
theorem decode_render (h : render nesting entries = .ok text) :
    String.ofList (Chars.unifyNewlines (Text.decodeLossy (Text.encode text.toList))) = text := by
  obtain ⟨texts, hlines, rfl⟩ := render_ok h
  have hprintable := printableLines_join (printable_of_forall₂ hlines)
  rw [Text.decodeLossy_encode hprintable.isAscii, Chars.unifyNewlines_eq_self hprintable.return_not_mem,
    String.ofList_toList]

/-! ### Whatever a file holds -/

/-- An entry that passes the check is not blank, and left as it is. -/
theorem checked_ok {e e' : Entry} (h : e.checked = .ok e') :
    Text.isBlank e.command = false ∧ e' = e := by
  unfold Entry.checked at h
  split at h
  · cases h
  · rename_i hblank
    exact ⟨by simpa using hblank, (Except.ok.inj h).symm⟩

/-- An entry that a record stores has a command, and its metadata, if any, are those of a member. -/
theorem ofRecord_ok {record : Members} {source : String} {e : Entry}
    (h : Entry.ofRecord record source = .ok e) :
    Text.isBlank e.command = false ∧ e.source = source ∧
      (e.metadata = [] ∨ ∃ members, Members.get? record "metadata" = some (.obj members) ∧
        e.metadata = Value.ofMembers members) := by
  unfold Entry.ofRecord at h
  cases hcommand : Entry.textOf (Entry.firstOf record ["command", "cmd"]) with
  | none =>
    simp only [hcommand] at h
    cases h
  | some command =>
    simp only [hcommand, bind, Except.bind] at h
    split at h
    · cases h
    · split at h
      · cases h
      · split at h
        · cases h
        · -- Metadata that are no object are taken as none.
          obtain ⟨hblank, rfl⟩ := checked_ok h
          refine ⟨hblank, rfl, ?_⟩
          simp only
          split
          · rename_i members hmembers
            exact .inr ⟨members, hmembers, rfl⟩
          · exact .inl rfl

/-- An entry that was read from what comes back does so too. -/
theorem ofValue_owned {v : Json} {e : Entry} (hv : Json.ComesBack v)
    (h : Entry.ofValue v sourceName = .ok e) : e.Owned ∧ e.plain = e := by
  cases v with
  | obj record =>
    obtain ⟨hcommand, hsource, hmetadata⟩ := ofRecord_ok h
    have hback : Members.ofList (Value.plainMembers e.metadata) = e.metadata := by
      rcases hmetadata with hnone | ⟨members, hget, hmembers⟩
      · rw [hnone]
        rfl
      · have hcomes : Members.ofList (Json.plainMembers members) = members := by
          have hobj : (Json.obj members).plain = .obj members := hv.of_get? hget
          rwa [Json.plain, Json.obj.injEq] at hobj
        rw [hmembers, Value.ofList_plainMembers_ofMembers, hcomes]
    exact ⟨⟨⟨hcommand⟩, hsource⟩, by rw [Entry.plain, hback]⟩
  | _ => cases h

/-- The same of the entry of a line. -/
theorem recordOf_owned {line : List Char} {e : Entry} (h : recordOf nesting line = .ok (some e)) :
    e.Owned ∧ e.plain = e := by
  unfold recordOf at h
  split at h
  · rename_i rest
    cases hread : Json.read nesting ('\x7b' :: rest) with
    | error failure =>
      -- What cannot be parsed is no record, whether that is passed on or not.
      rw [hread] at h
      simp only [bind, Except.bind] at h
      split at h <;> cases h
    | ok v =>
      rw [hread] at h
      simp only [bind, Except.bind] at h
      cases hvalue : Entry.ofValue v sourceName with
      | error failure =>
        rw [hvalue] at h
        simp only at h
        split at h <;> cases h
      | ok e' =>
        rw [hvalue] at h
        cases h
        exact ofValue_owned (Json.comesBack_read hread) hvalue
  · cases h

/-- A line that is no record is a command that comes back as well. -/
theorem entriesOfLine_owned {line : List Char} {found : List Entry}
    (h : entriesOfLine nesting line = .ok found) : ∀ e ∈ found, e.Owned ∧ e.plain = e := by
  unfold entriesOfLine at h
  simp only at h
  split at h
  · cases h
    intro e he
    cases he
  · rename_i hfilled
    cases hrecord : recordOf nesting (Chars.strip line) with
    | error failure =>
      rw [hrecord] at h
      cases h
    | ok found =>
      rw [hrecord] at h
      cases h
      intro e he
      obtain rfl := List.mem_singleton.mp he
      cases found with
      | some e => exact recordOf_owned hrecord
      | none =>
        -- A line that is no record is a bare command, and not blank as something was left of it.
        have hblank : Text.isBlank (String.ofList line) = false := by
          rw [Text.isBlank, String.toList_ofList, Bool.eq_false_iff]
          intro hall
          exact hfilled (by rw [Chars.strip_eq_nil hall]; rfl)
        exact ⟨⟨⟨hblank⟩, rfl⟩, rfl⟩

/-- **Whatever a file holds is read as entries that would come back as they are.** -/
theorem parse_owned {content : String} (h : parse nesting content = .ok entries) :
    ∀ e ∈ entries, e.Owned ∧ e.plain = e := by
  unfold parse at h
  cases hlines : (Chars.lines content.toList).mapM (entriesOfLine nesting) with
  | error failure =>
    rw [hlines] at h
    cases h
  | ok found =>
    rw [hlines] at h
    cases h
    intro e he
    obtain ⟨group, hgroup, he⟩ := List.mem_flatten.mp he
    obtain ⟨line, hline⟩ := exists_of_mem_mapM hlines hgroup
    exact entriesOfLine_owned hline e he

end Journal

end History

end ShellAssist
