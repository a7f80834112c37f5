import ShellAssist.Json.Value
import ShellAssist.Proofs.Failure
import ShellAssist.Proofs.Json.RoundTrip

namespace ShellAssist

/-!
# Values of a program that are written and read back

A value that is written comes back as JSON text has it: tuples as lists, keys as their texts, of several
keys of one text the last value at the place of the first, and all that is no number as one value.

* `Value.plain` — how a value comes back;
* `Value.read_encode` — that it comes back so, whatever the limits are, if it can be written within them;
* `Value.plain_ofJson` — what was read comes back as it is;
* `Value.eq_str_of_ofJson`, `Value.exists_of_ofJson_eq_dict` and others — which JSON value was read.
-/

open Json (ComesBack)

/-- A key as it comes back. -/
def Key.plain (key : Key) : Key :=
  match key.text with
  | .ok name => .str name
  | .error _ => key

namespace Value

mutual

/-- A value as it comes back from its text. -/
def plain : Value → Value
  | .float d => .float (if d.isNaN then .nan else d)
  | .list items => .list (plainItems items)
  | .tuple items => .list (plainItems items)
  | .dict members => .dict (Members.ofList (plainMembers members))
  | value => value

/-- Items as they come back. -/
def plainItems : List Value → List Value
  | [] => []
  | item :: items => plain item :: plainItems items

/-- The members of a mapping as they come back, before those of the same text are put together. -/
def plainMembers : List (Key × Value) → List (Key × Value)
  | [] => []
  | (key, value) :: members => (key.plain, plain value) :: plainMembers members

end

/-! ### What is written -/

/-- What is known of the JSON value that is written for a value: it keeps to the limits, and what it
comes back as is what the value comes back as. -/
structure IsWrittenAs (room : Nat) (v : Value) (j : Json) : Prop where
  depth : j.depth ≤ room
  wholesFit : j.wholesFit = true
  comesBack : ofJson j.plain = v.plain

/-- The same of items. -/
structure AreWrittenAs (room : Nat) (items : List Value) (js : List Json) : Prop where
  depth : Json.depthOfItems js ≤ room
  wholesFit : Json.wholesFitItems js = true
  comeBack : ofItems (Json.plainItems js) = plainItems items

/-- The same of members. -/
structure MembersWrittenAs (room : Nat) (members : List (Key × Value)) (js : Members) : Prop where
  depth : Json.depthOfMembers js ≤ room
  wholesFit : Json.wholesFitMembers js = true
  comeBack : ofMembers (Json.plainMembers js) = plainMembers members

/-- A whole number is written if it is not too long. -/
theorem toJson_int_ok {room : Nat} {n : Int} {j : Json} (h : (int n).toJson room = .ok j) :
    Number.Decimal.isWritable n = true ∧ j = .int n := by
  unfold toJson at h
  by_cases hwritable : Number.Decimal.isWritable n = true
  · rw [if_pos hwritable] at h
    exact ⟨hwritable, (Except.ok.inj h).symm⟩
  · rw [if_neg hwritable] at h
    cases h

/-- So it comes back. -/
theorem isWrittenAs_int {room : Nat} {n : Int} {j : Json} (h : (int n).toJson room = .ok j) :
    IsWrittenAs room (int n) j := by
  obtain ⟨hwritable, rfl⟩ := toJson_int_ok h
  refine ⟨Nat.zero_le room, ?_, rfl⟩
  rw [Json.wholesFit]
  exact hwritable

/-- The members of a mapping are those of an object one by one. -/
theorem ofMembers_eq_map (members : Members) :
    ofMembers members = members.map (Prod.map Key.str ofJson) := by
  induction members with
  | nil => rfl
  | cons p members ih => rw [ofMembers, ih, List.map_cons]; rfl

/-- Names are put together before or after they are taken for keys. -/
theorem ofMembers_ofList (members : Members) :
    ofMembers (Members.ofList members) = Members.ofList (ofMembers members) := by
  rw [ofMembers_eq_map, ofMembers_eq_map, Members.map_ofList fun _ _ => Key.str.inj]

/-- A list or tuple is written as an array of its items. -/
theorem AreWrittenAs.arr {room : Nat} {items : List Value} {js : List Json}
    (h : AreWrittenAs room items js) :
    (Json.arr js).depth ≤ room + 1 ∧ (Json.arr js).wholesFit = true ∧
      ofJson (Json.arr js).plain = .list (plainItems items) := by
  refine ⟨?_, ?_, ?_⟩
  · rw [Json.depth]
    exact Nat.succ_le_succ h.depth
  · rw [Json.wholesFit]
    exact h.wholesFit
  · rw [Json.plain, ofJson, h.comeBack]

/-- A mapping is written as an object of its members. -/
theorem MembersWrittenAs.obj {room : Nat} {members : List (Key × Value)} {js : Members}
    (h : MembersWrittenAs room members js) : IsWrittenAs (room + 1) (.dict members) (.obj js) where
  depth := by
    rw [Json.depth]
    exact Nat.succ_le_succ h.depth
  wholesFit := by
    rw [Json.wholesFit]
    exact h.wholesFit
  comesBack := by rw [Json.plain, ofJson, ofMembers_ofList, h.comeBack, plain]

mutual

/-- **What is written for a value** keeps to the limits and comes back as the value does. -/
theorem isWrittenAs_toJson {room : Nat} : (v : Value) → ∀ j, v.toJson room = .ok j →
    IsWrittenAs room v j
  | .null => by
    intro j h
    unfold toJson at h
    obtain rfl := Except.ok.inj h
    exact ⟨Nat.zero_le room, rfl, rfl⟩
  | .bool b => by
    intro j h
    unfold toJson at h
    obtain rfl := Except.ok.inj h
    exact ⟨Nat.zero_le room, rfl, rfl⟩
  | .int n => fun _ h => isWrittenAs_int h
  | .float d => by
    intro j h
    unfold toJson at h
    obtain rfl := Except.ok.inj h
    exact ⟨Nat.zero_le room, rfl, rfl⟩
  | .str s => by
    intro j h
    unfold toJson at h
    obtain rfl := Except.ok.inj h
    exact ⟨Nat.zero_le room, rfl, rfl⟩
  -- Each level of nesting uses up one of the room, which the parts inherit.
  | .list items => by
    intro j h
    unfold toJson at h
    split at h
    · cases h
    · obtain ⟨js, hitems, rfl⟩ := map_ok_iff.mp h
      obtain ⟨hdepth, hfit, hback⟩ := (areWrittenAs_itemsToJson items _ hitems).arr
      exact ⟨hdepth, hfit, hback.trans (by rw [plain])⟩
  | .tuple items => by
    intro j h
    unfold toJson at h
    split at h
    · cases h
    · obtain ⟨js, hitems, rfl⟩ := map_ok_iff.mp h
      obtain ⟨hdepth, hfit, hback⟩ := (areWrittenAs_itemsToJson items _ hitems).arr
      exact ⟨hdepth, hfit, hback.trans (by rw [plain])⟩
  | .dict members => by
    intro j h
    unfold toJson at h
    split at h
    · cases h
    · obtain ⟨js, hmembers, rfl⟩ := map_ok_iff.mp h
      exact (membersWrittenAs_membersToJson members _ hmembers).obj
  | .other type present => by
    intro j h
    unfold toJson at h
    cases h

/-- The same of the items of a list or tuple. -/
theorem areWrittenAs_itemsToJson {room : Nat} : (items : List Value) → ∀ js,
    itemsToJson room items = .ok js → AreWrittenAs room items js
  | [] => by
    intro js h
    unfold itemsToJson at h
    obtain rfl := Except.ok.inj h
    exact ⟨Nat.zero_le room, rfl, rfl⟩
  | item :: items => by
    intro js h
    unfold itemsToJson at h
    -- Item by item: the deepest one and all the numbers decide, as in the reader.
    obtain ⟨first, hfirst, h⟩ := bind_ok_iff.mp h
    obtain ⟨rest, hrest, h⟩ := bind_ok_iff.mp h
    obtain rfl := Except.ok.inj h
    have hitem := isWrittenAs_toJson item _ hfirst
    have hitems := areWrittenAs_itemsToJson items _ hrest
    refine ⟨?_, ?_, ?_⟩
    · rw [Json.depthOfItems]
      exact max_le hitem.depth hitems.depth
    · rw [Json.wholesFitItems, hitem.wholesFit, hitems.wholesFit]
      rfl
    · rw [Json.plainItems, ofItems, hitem.comesBack, hitems.comeBack, plainItems]

/-- The same of the members of a mapping. -/
theorem membersWrittenAs_membersToJson {room : Nat} : (members : List (Key × Value)) →
    ∀ js, membersToJson room members = .ok js → MembersWrittenAs room members js
  | [] => by
    intro js h
    unfold membersToJson at h
    obtain rfl := Except.ok.inj h
    exact ⟨Nat.zero_le room, rfl, rfl⟩
  | (key, value) :: members => by
    intro js h
    unfold membersToJson at h
    obtain ⟨name, hname, h⟩ := bind_ok_iff.mp h
    obtain ⟨first, hfirst, h⟩ := bind_ok_iff.mp h
    obtain ⟨rest, hrest, h⟩ := bind_ok_iff.mp h
    obtain rfl := Except.ok.inj h
    have hvalue := isWrittenAs_toJson value _ hfirst
    have hmembers := membersWrittenAs_membersToJson members _ hrest
    -- The name written is the key as text, so two keys may come back as one.
    have hkey : key.plain = .str name := by rw [Key.plain, hname]
    refine ⟨?_, ?_, ?_⟩
    · rw [Json.depthOfMembers]
      exact max_le hvalue.depth hmembers.depth
    · rw [Json.wholesFitMembers, hvalue.wholesFit, hmembers.wholesFit]
      rfl
    · rw [Json.plainMembers, ofMembers, hvalue.comesBack, hmembers.comeBack, plainMembers, hkey]

end

/-- **A value that can be written is read back from its text**, as it comes back. -/
theorem read_encode {nesting : Nat} {v : Value} {text : String} (h : v.encode nesting = .ok text) :
    ∃ j, v.toJson nesting = .ok j ∧ text = j.render ∧ Json.read nesting text.toList = .ok j.plain := by
  obtain ⟨j, hj, rfl⟩ := map_ok_iff.mp h
  have hwritten := isWrittenAs_toJson v j hj
  exact ⟨j, hj, rfl, Json.read_render hwritten.depth hwritten.wholesFit⟩

/-! ### What is read -/

mutual

/-- What a JSON value is read as comes back as the JSON value does. -/
theorem plain_ofJson : (j : Json) → (ofJson j).plain = ofJson j.plain
  | .null => rfl
  | .bool _ => rfl
  | .int _ => rfl
  | .float _ => rfl
  | .str _ => rfl
  | .arr items => by rw [ofJson, plain, Json.plain, ofJson, plainItems_ofItems items]
  | .obj members => by
    rw [ofJson, plain, Json.plain, ofJson, plainMembers_ofMembers members, ofMembers_ofList]

/-- The same of items. -/
theorem plainItems_ofItems : (items : List Json) →
    plainItems (ofItems items) = ofItems (Json.plainItems items)
  | [] => rfl
  | item :: items => by
    rw [ofItems, plainItems, Json.plainItems, ofItems, plain_ofJson item, plainItems_ofItems items]

/-- The same of members. -/
theorem plainMembers_ofMembers : (members : Members) →
    plainMembers (ofMembers members) = ofMembers (Json.plainMembers members)
  | [] => rfl
  | (name, value) :: members => by
    rw [ofMembers, plainMembers, Json.plainMembers, ofMembers, plain_ofJson value,
      plainMembers_ofMembers members]
    rfl

end

/-- The members that are kept of those of an object do not depend on when they are put together. -/
theorem ofList_plainMembers_ofMembers (members : Members) :
    Members.ofList (plainMembers (ofMembers members))
      = ofMembers (Members.ofList (Json.plainMembers members)) := by
  rw [plainMembers_ofMembers, ofMembers_ofList]

/-! ### Which JSON value was read -/

/-- A text is read from a string. -/
theorem eq_str_of_ofJson {j : Json} {s : String} (h : ofJson j = .str s) : j = .str s := by
  cases j with
  | str t =>
    rw [ofJson, str.injEq] at h
    rw [h]
  | _ => simp only [ofJson, reduceCtorEq] at h

/-- A whole number or nothing is read from a whole number or null. -/
theorem eq_ofInt?_of_ofJson {j : Json} {n : Option Int} (h : ofJson j = ofInt? n) :
    j = Json.ofInt? n := by
  cases n <;> cases j <;> simp_all [ofJson, ofInt?, Json.ofInt?]

/-- A text or nothing is read from a string or null. -/
theorem eq_ofString?_of_ofJson {j : Json} {s : Option String} (h : ofJson j = ofString? s) :
    j = Json.ofString? s := by
  cases s <;> cases j <;> simp_all [ofJson, ofString?, Json.ofString?]

/-- A mapping is read from an object. -/
theorem exists_of_ofJson_eq_dict {j : Json} {members : List (Key × Value)}
    (h : ofJson j = .dict members) : ∃ js, j = .obj js ∧ ofMembers js = members := by
  cases j with
  | obj js =>
    rw [ofJson, dict.injEq] at h
    exact ⟨js, rfl, h⟩
  | _ => simp only [ofJson, reduceCtorEq] at h

/-- The first member of a mapping is read from that of the object. -/
theorem exists_of_ofMembers_eq_cons {js : Members} {name : String} {value : Value}
    {members : List (Key × Value)} (h : ofMembers js = (.str name, value) :: members) :
    ∃ j rest, js = (name, j) :: rest ∧ ofJson j = value ∧ ofMembers rest = members := by
  cases js with
  | nil => cases h
  | cons p rest =>
    obtain ⟨first, j⟩ := p
    rw [ofMembers, List.cons.injEq, Prod.mk.injEq, Key.str.injEq] at h
    obtain ⟨⟨rfl, hvalue⟩, hrest⟩ := h
    exact ⟨j, rest, rfl, hvalue, hrest⟩

end Value

end ShellAssist
