import ShellAssist.Proofs.Json.Members
import ShellAssist.Proofs.Number.Nearest
import ShellAssist.Json.Reader

namespace ShellAssist.Json

open Number

/-!
# Values as they come back

A value that is written and read again is nearly the same. JSON text has a single value that is no
number; and of several members of one name only the value of the last comes back, at the place of the
first.

* `plain` — how a value comes back;
* `depth`, `wholesFit` — which values do: those that are not nested too deep, and whose whole numbers
  are not too long;
* `ValueRead` — what a value was read as, by what its text begins with;
* `comesBack_read` — whatever is read would come back as it is.
-/

/-! ### Values as they come back -/

mutual

/-- A value as it comes back from its text: all that is no number is one value, and each name is held
once. -/
def plain : Json → Json
  | .float d => .float (if d.isNaN then .nan else d)
  | .arr items => .arr (plainItems items)
  | .obj members => .obj (Members.ofList (plainMembers members))
  | value => value

/-- The items of an array as they come back. -/
def plainItems : List Json → List Json
  | [] => []
  | item :: items => plain item :: plainItems items

/-- Members as they come back, before those of the same name are put together. -/
def plainMembers : List (String × Json) → List (String × Json)
  | [] => []
  | (name, value) :: members => (name, plain value) :: plainMembers members

end

/-- Members come back one by one. -/
theorem plainMembers_eq_map (members : Members) :
    plainMembers members = members.map fun p => (p.1, p.2.plain) := by
  induction members with
  | nil => rfl
  | cons p members ih => rw [plainMembers, ih, List.map_cons]

/-- Members come back under their names. -/
theorem map_fst_plainMembers (members : Members) :
    (plainMembers members).map Prod.fst = members.map Prod.fst := by
  rw [plainMembers_eq_map, List.map_map]
  rfl

/-- The value comes back as it is. -/
def ComesBack (v : Json) : Prop :=
  v.plain = v

/-- An object comes back as it is just if it holds each name once and the values of all do. -/
theorem comesBack_obj_iff {members : Members} :
    ComesBack (.obj members) ↔ (members.map Prod.fst).Nodup ∧ ∀ p ∈ members, ComesBack p.2 := by
  rw [ComesBack, plain, Json.obj.injEq]
  -- Taking values to themselves one by one is taking the whole list to itself.
  have hvalues : plainMembers members = members ↔ ∀ p ∈ members, ComesBack p.2 := by
    rw [plainMembers_eq_map]
    constructor
    · intro h p hp
      exact congrArg Prod.snd (List.map_inj_left.mp (h.trans (List.map_id _).symm) p hp)
    · intro h
      refine (List.map_congr_left fun p hp => ?_).trans (List.map_id members)
      rw [show p.2.plain = p.2 from h p hp]
      rfl
  constructor
  · intro h
    have hnodup : (members.map Prod.fst).Nodup := h ▸ (Members.ofList_spec _).1
    rw [Members.ofList_of_nodup (by rwa [map_fst_plainMembers])] at h
    exact ⟨hnodup, hvalues.mp h⟩
  · rintro ⟨hnodup, h⟩
    rw [Members.ofList_of_nodup (by rwa [map_fst_plainMembers]), hvalues.mpr h]

/-- The value of a member of what comes back comes back. -/
theorem ComesBack.of_get? {members : Members} (h : ComesBack (.obj members)) {name : String}
    {value : Json} (hget : Members.get? members name = some value) : ComesBack value := by
  obtain ⟨before, after, rfl, -⟩ := List.lookup_eq_some_iff.mp hget
  exact (comesBack_obj_iff.mp h).2 (name, value) (by simp)

/-! ### Limits -/

mutual

/-- How deep arrays and objects are nested in a value. -/
def depth : Json → Nat
  | .arr items => depthOfItems items + 1
  | .obj members => depthOfMembers members + 1
  | _ => 0

/-- The deepest nesting in the items of an array. -/
def depthOfItems : List Json → Nat
  | [] => 0
  | item :: items => max (depth item) (depthOfItems items)

/-- The deepest nesting in the members of an object. -/
def depthOfMembers : List (String × Json) → Nat
  | [] => 0
  | (_, value) :: members => max (depth value) (depthOfMembers members)

end

mutual

/-- Whether the whole numbers in a value are not too long to be written. -/
def wholesFit : Json → Bool
  | .int n => Decimal.isWritable n
  | .arr items => wholesFitItems items
  | .obj members => wholesFitMembers members
  | _ => true

/-- Whether the whole numbers in the items of an array are not too long. -/
def wholesFitItems : List Json → Bool
  | [] => true
  | item :: items => wholesFit item && wholesFitItems items

/-- Whether the whole numbers in the members of an object are not too long. -/
def wholesFitMembers : List (String × Json) → Bool
  | [] => true
  | (_, value) :: members => wholesFit value && wholesFitMembers members

end

/-! ### What is read comes back -/

/-- An array comes back as its items do. -/
theorem comesBack_arr {items : List Json} (h : ∀ item ∈ items, ComesBack item) :
    ComesBack (.arr items) := by
  have hall : plainItems items = items := by
    induction items with
    | nil => rfl
    | cons item items ih =>
      rw [plainItems, show item.plain = item from h item List.mem_cons_self,
        ih fun x hx => h x (List.mem_cons_of_mem _ hx)]
  rw [ComesBack, plain, hall]

/-- A number comes back unless it is none. -/
theorem comesBack_float {d : Double} (h : d.isNaN = false) : ComesBack (.float d) := by
  simp [ComesBack, plain, h]

/-- The number that is read comes back. -/
theorem comesBack_readNumber {text body : List Char} {negative : Bool} {taken : Taken Json}
    (h : readNumber text negative body = .ok taken) : ComesBack taken.value := by
  unfold readNumber at h
  simp only at h
  split at h
  · cases h
  · split at h
    · -- Without fraction and exponent it is a whole number, unless it has too many digits.
      split at h
      · cases h
      · rw [← Except.ok.inj h]
        rfl
    · rw [← Except.ok.inj h]
      exact comesBack_float (Double.isNaN_ofDecimal _ _ _)

/-- So does a constant. -/
theorem comesBack_readScalar {text : List Char} {taken : Taken Json}
    (h : readScalar text = .ok taken) : ComesBack taken.value := by
  unfold readScalar at h
  split at h
  · rename_i found hfound
    cases h
    obtain ⟨⟨word, value⟩, hmem, rfl⟩ := Option.map_eq_some_iff.mp hfound
    -- The one constant that is no number is the value all such come back as.
    have hconstant := List.mem_of_find?_eq_some hmem
    simp only [constants, List.mem_cons, Prod.mk.injEq, List.not_mem_nil, or_false] at hconstant
    rcases hconstant with ⟨-, rfl⟩ | ⟨-, rfl⟩ | ⟨-, rfl⟩ | ⟨-, rfl⟩ | ⟨-, rfl⟩ | ⟨-, rfl⟩ <;>
      rfl
  · split at h
    · exact comesBack_readNumber h
    · exact comesBack_readNumber h

/-- What an item and those behind it were read as. -/
theorem readItems_ok {fuel room : Nat} {text : List Char} {taken : Taken (List Json)}
    (h : readItems (fuel + 1) room text = .ok taken) :
    ∃ item rest, readValue fuel room text = .ok ⟨item, rest⟩ ∧
      (taken.value = [item] ∨ ∃ more found, readItems fuel room more = .ok found ∧
        taken.value = item :: found.value) := by
  rw [readItems] at h
  cases hitem : readValue fuel room text with
  | error halt =>
    rw [hitem] at h
    cases h
  | ok first =>
    rw [hitem] at h
    -- Behind an item stands a comma with more items, or the closing bracket.
    refine ⟨first.value, first.rest, rfl, ?_⟩
    simp only [bind, Except.bind] at h
    split at h
    · rename_i more _
      cases hmore : readItems fuel room (skipSpace more) with
      | error halt =>
        rw [hmore] at h
        cases h
      | ok found =>
        rw [hmore] at h
        cases h
        exact .inr ⟨_, found, hmore, rfl⟩
    · cases h
      exact .inl rfl
    · cases h

/-- What a member and those behind it were read as. -/
theorem readMembers_ok {fuel room : Nat} {text : List Char} {taken : Taken Members}
    (h : readMembers (fuel + 1) room text = .ok taken) :
    ∃ name body first, readValue fuel room body = .ok first ∧
      (taken.value = [(name, first.value)] ∨
        ∃ more found, readMembers fuel room more = .ok found ∧
          taken.value = (name, first.value) :: found.value) := by
  unfold readMembers at h
  split at h
  · rename_i text
    cases hname : readString text with
    | error halt =>
      rw [hname] at h
      cases h
    | ok name =>
      rw [hname] at h
      simp only [bind, Except.bind] at h
      split at h
      · rename_i body _
        cases hvalue : readValue fuel room (skipSpace body) with
        | error halt =>
          rw [hvalue] at h
          cases h
        | ok first =>
          rw [hvalue] at h
          -- Behind a member stands a comma with more members, or the closing brace.
          refine ⟨name.value, _, first, hvalue, ?_⟩
          simp only at h
          split at h
          · rename_i more _
            cases hmore : readMembers fuel room (skipSpace more) with
            | error halt =>
              rw [hmore] at h
              cases h
            | ok found =>
              rw [hmore] at h
              cases h
              exact .inr ⟨_, found, hmore, rfl⟩
          · cases h
            exact .inl rfl
          · cases h
      · cases h
  · cases h

/-- What a value was read as, by what its text begins with. The parts of an array or an object were read
with `fuel`. -/
inductive ValueRead (fuel : Nat) : List Char → Taken Json → Prop
  | string (rest : List Char) (s : String) (tail : List Char) :
      ValueRead fuel ('"' :: rest) ⟨.str s, tail⟩
  | emptyArray (rest tail : List Char) : ValueRead fuel ('[' :: rest) ⟨.arr [], tail⟩
  | array {rest first : List Char} {room : Nat} {found : Taken (List Json)} :
      readItems fuel room first = .ok found →
      ValueRead fuel ('[' :: rest) ⟨.arr found.value, found.rest⟩
  | emptyObject (rest tail : List Char) : ValueRead fuel ('\x7b' :: rest) ⟨.obj [], tail⟩
  | object {rest first : List Char} {room : Nat} {found : Taken Members} :
      readMembers fuel room first = .ok found →
      ValueRead fuel ('\x7b' :: rest) ⟨.obj (Members.ofList found.value), found.rest⟩
  | scalar {text : List Char} {taken : Taken Json} :
      (∀ rest, text ≠ '\x7b' :: rest) → readScalar text = .ok taken → ValueRead fuel text taken

/-- A value was read as a string, an array, an object, a constant or a number. -/
theorem valueRead_of_readValue {fuel room : Nat} {text : List Char} {taken : Taken Json}
    (h : readValue (fuel + 1) room text = .ok taken) : ValueRead fuel text taken := by
  unfold readValue at h
  -- One case for each character a value can begin with.
  split at h
  · rename_i rest
    cases hs : readString rest with
    | error halt =>
      rw [hs] at h
      cases h
    | ok found =>
      rw [hs] at h
      cases h
      exact .string _ _ _
  · split at h
    · cases h
    · cases h
      exact .emptyArray _ _
    · rename_i rest _ _ room _
      cases hitems : readItems fuel room (skipSpace rest) with
      | error halt =>
        rw [hitems] at h
        cases h
      | ok found =>
        rw [hitems] at h
        cases h
        exact .array hitems
  · split at h
    · cases h
    · cases h
      exact .emptyObject _ _
    · rename_i rest _ _ room _
      cases hmembers : readMembers fuel room (skipSpace rest) with
      | error halt =>
        rw [hmembers] at h
        cases h
      | ok found =>
        rw [hmembers] at h
        cases h
        exact .object hmembers
  · rename_i hbrace
    exact .scalar hbrace h

/-- The value of a text is taken from behind the space in front of it. -/
theorem readValue_of_read {nesting : Nat} {text : List Char} {v : Json}
    (h : read nesting text = .ok v) :
    ∃ taken, readValue (2 * text.length + 2) nesting (skipSpace text) = .ok taken ∧
      taken.value = v := by
  unfold read readAll at h
  split at h
  · cases h
  · cases htaken : readValue (2 * text.length + 2) nesting (skipSpace text) with
    | error halt =>
      rw [htaken] at h
      cases h
    | ok taken =>
      rw [htaken] at h
      -- Text behind the value is refused, so what is given is the value that was read.
      simp only [bind, Except.bind] at h
      split at h
      · exact ⟨taken, rfl, Except.ok.inj h⟩
      · cases h

/-- By induction on the fuel, for the three functions of the reader at once. -/
theorem comesBack_all (fuel : Nat) :
    (∀ room text taken, readValue fuel room text = .ok taken → ComesBack taken.value) ∧
      (∀ room text taken, readItems fuel room text = .ok taken →
        ∀ item ∈ taken.value, ComesBack item) ∧
      (∀ room text taken, readMembers fuel room text = .ok taken →
        ∀ p ∈ taken.value, ComesBack p.2) := by
  -- The three readers call each other with less fuel, so they go by one induction.
  induction fuel with
  | zero =>
    refine ⟨?_, ?_, ?_⟩
    · intro room text taken h
      simp [readValue] at h
    · intro room text taken h
      simp [readItems] at h
    · intro room text taken h
      simp [readMembers] at h
  | succ fuel ih =>
    obtain ⟨hvalues, hitems, hmembers⟩ := ih
    refine ⟨?_, ?_, ?_⟩
    · intro room text taken h
      cases valueRead_of_readValue h with
      | string | emptyArray | emptyObject => rfl
      | array hread => exact comesBack_arr (hitems _ _ _ hread)
      | @object _ _ _ found hread =>
        obtain ⟨hnodup, hmem⟩ := Members.ofList_spec found.value
        exact comesBack_obj_iff.mpr ⟨hnodup, fun p hp => hmembers _ _ _ hread p (hmem p hp)⟩
      | scalar _ hscalar => exact comesBack_readScalar hscalar
    · intro room text taken h x hx
      obtain ⟨item, rest, hitem, hv | ⟨more, found, hmore, hv⟩⟩ := readItems_ok h
      · rw [hv, List.mem_singleton] at hx
        exact hx ▸ hvalues _ _ _ hitem
      · rw [hv, List.mem_cons] at hx
        rcases hx with rfl | hx
        · exact hvalues _ _ _ hitem
        · exact hitems _ _ _ hmore x hx
    · intro room text taken h x hx
      obtain ⟨name, body, first, hfirst, hv | ⟨more, found, hmore, hv⟩⟩ := readMembers_ok h
      · rw [hv, List.mem_singleton] at hx
        exact hx ▸ hvalues _ _ _ hfirst
      · rw [hv, List.mem_cons] at hx
        rcases hx with rfl | hx
        · exact hvalues _ _ _ hfirst
        · exact hmembers _ _ _ hmore x hx

/-- **Whatever is read comes back as it is**, should it be written again. -/
theorem comesBack_read {nesting : Nat} {text : List Char} {v : Json}
    (h : read nesting text = .ok v) : ComesBack v := by
  obtain ⟨taken, htaken, rfl⟩ := readValue_of_read h
  exact (comesBack_all _).1 _ _ _ htaken

end ShellAssist.Json
