import ShellAssist.Proofs.Number.Shortest
import ShellAssist.Proofs.Json.Plain
import ShellAssist.Proofs.Json.Strings

namespace ShellAssist.Json

open Number

/-!
# Values that are written and read back

The reader takes exactly the text of a value from the front, whatever may stand behind it: the end,
a comma or a closing bracket. The proof follows the fuel of the reader. Its three functions call
each other with one less, so what they read with some fuel is stated for all three at once.

* `reads_all` — values, items and members are read back;
* `read_render` — a value within the limits is read back from its text, as `plain` says;
* `printable_write` — on one line a value is written in printable ASCII characters.
-/

/-! ### Scalars -/

/-- How the text of a constant or number begins. -/
def StartsScalar (c : Char) : Prop :=
  c.isDigit = true ∨ c ∈ ['-', 'n', 't', 'f', 'N', 'I']

/-- What begins a constant or number is neither space, nor a quote, nor a bracket. -/
theorem StartsScalar.ne {c : Char} (h : StartsScalar c) :
    isSpace c = false ∧ c ≠ '"' ∧ c ≠ '[' ∧ c ≠ ']' ∧ c ≠ '\x7b' ∧ c ≠ '\x7d' := by
  rcases h with h | h
  · have hne {d : Char} (hd : d.isDigit = false) : c ≠ d := by
      rintro rfl
      rw [hd] at h
      cases h
    refine ⟨?_, hne (by decide), hne (by decide), hne (by decide), hne (by decide), hne (by decide)⟩
    simp only [isSpace, Bool.or_eq_false_iff, decide_eq_false_iff_not]
    exact ⟨⟨⟨hne (by decide), hne (by decide)⟩, hne (by decide)⟩, hne (by decide)⟩
  · simp only [List.mem_cons, List.not_mem_nil, or_false] at h
    rcases h with rfl | rfl | rfl | rfl | rfl | rfl <;> decide

/-- A digit begins no constant. -/
theorem readConstant?_digit {c : Char} (hc : c.isDigit = true) (rest : List Char) :
    readConstant? (c :: rest) = none := by
  have hne {d : Char} (hd : d.isDigit = false) : (d == c) = false := by
    rw [beq_eq_false_iff_ne]
    rintro rfl
    rw [hd] at hc
    cases hc
  simp [readConstant?, constants, List.isPrefixOf, hne (show 'n'.isDigit = false by decide),
    hne (show 't'.isDigit = false by decide), hne (show 'f'.isDigit = false by decide),
    hne (show 'N'.isDigit = false by decide), hne (show 'I'.isDigit = false by decide),
    hne (show '-'.isDigit = false by decide)]

/-- Nor does a minus sign in front of a digit. -/
theorem readConstant?_minus_digit {c : Char} (hc : c.isDigit = true) (rest : List Char) :
    readConstant? ('-' :: c :: rest) = none := by
  have hne : ('I' == c) = false := by
    rw [beq_eq_false_iff_ne]
    rintro rfl
    exact absurd hc (by decide)
  simp [readConstant?, constants, List.isPrefixOf, hne]

/-- Digits behind a sign are read as a number. -/
theorem readScalar_signed (negative : Bool) {c : Char} (hc : c.isDigit = true) (rest : List Char) :
    readScalar (Decimal.sign negative ++ c :: rest)
      = readNumber (Decimal.sign negative ++ c :: rest) negative (c :: rest) := by
  cases negative with
  | true => simp [readScalar, Decimal.sign, readConstant?_minus_digit hc]
  | false =>
    have hne : c ≠ '-' := by
      rintro rfl
      exact absurd hc (by decide)
    simp only [Decimal.sign, Bool.false_eq_true, if_false, List.nil_append, readScalar,
      readConstant?_digit hc]
    split
    · rename_i heq
      exact absurd (List.cons.inj heq).1 hne
    · rfl

/-- A whole number is written with its sign in front. -/
theorem ofInt_eq_sign (n : Int) :
    Decimal.ofInt n = Decimal.sign (decide (n < 0)) ++ Decimal.ofNat n.natAbs := by
  by_cases hn : n < 0 <;> simp [Decimal.ofInt, Decimal.sign, hn]

/-- A whole number of no more digits than are read is read back. -/
theorem readNumber_ofNat (text : List Char) (negative : Bool) {n : Nat}
    (hn : n < Decimal.writableLimit) {rest : List Char} (hr : Decimal.Ends rest) :
    readNumber text negative (Decimal.ofNat n ++ rest)
      = .ok ⟨.int (if negative then -(n : Int) else n), rest⟩ := by
  have hlength : ¬ Decimal.maxDigits < (Decimal.ofNat n).length :=
    not_lt.mpr (Decimal.length_ofNat_le_iff.mpr hn)
  -- The whole part is all digits: either one zero, or digits that do not begin with a zero.
  have hwhole : takeWhole (Decimal.ofNat n ++ rest) = (Decimal.ofNat n, rest) := by
    rcases Nat.eq_zero_or_pos n with rfl | hpos
    · rfl
    · obtain ⟨c, more, heq, hc⟩ := Decimal.ofNat_head_ne_zero hpos
      have hall := Decimal.allDigits_ofNat n
      rw [heq] at hall ⊢
      exact Decimal.takeWhole_append hc hall hr.noDigitAhead
  have hfraction : takeFraction rest = ([], rest) :=
    Decimal.takeFraction_of_head fun c hc => by
      rcases hr c hc with rfl | rfl | rfl <;> decide
  simp only [readNumber, hwhole, hfraction, Decimal.takeExponent_of_ends hr,
    List.isEmpty_eq_false_iff.mpr (Decimal.ofNat_ne_nil n), hlength,
    Chars.digitsValue_ofNat, List.isEmpty_nil, Option.isNone_none, Bool.and_self, if_true,
    if_false, Bool.false_eq_true]

/-- A whole number that is not too long is read back, whatever ends it. -/
theorem readScalar_int {n : Int} (hn : Decimal.isWritable n = true) {rest : List Char}
    (hr : Decimal.Ends rest) : readScalar (Decimal.ofInt n ++ rest) = .ok ⟨.int n, rest⟩ := by
  obtain ⟨c, more, hdigits⟩ := List.exists_cons_of_ne_nil (Decimal.ofNat_ne_nil n.natAbs)
  have hc : c.isDigit = true :=
    Decimal.allDigits_ofNat n.natAbs c (hdigits ▸ List.mem_cons_self)
  have hvalue : (if decide (n < 0) then -(n.natAbs : Int) else n.natAbs) = n := by
    by_cases hneg : n < 0
    · simp only [hneg, decide_true, if_true]
      omega
    · simp only [hneg, decide_false, Bool.false_eq_true, if_false]
      omega
  have hread := readNumber_ofNat (Decimal.sign (decide (n < 0)) ++ (c :: more ++ rest))
    (decide (n < 0)) (of_decide_eq_true hn) hr
  -- The sign decides how the digits are read, and it is the sign of the number.
  rw [hdigits, hvalue] at hread
  rw [ofInt_eq_sign, hdigits, List.append_assoc, List.cons_append, readScalar_signed _ hc]
  exact hread

/-- A double is finite, infinite or no number. -/
theorem magnitude?_eq_none {d : Double} (h : d.magnitude? = none) :
    d.isNaN = true ∨ d = .infinity d.isNegative := by
  have hge : Double.infinityBits ≤ d.magnitudeBits := by
    by_contra hlt
    rw [Double.magnitude?, if_pos (not_le.mp hlt)] at h
    cases h
  rcases Nat.lt_or_eq_of_le hge with hlt | heq
  · exact .inl (decide_eq_true hlt)
  · refine .inr ?_
    rw [Double.infinity, heq, Double.eq_ofSignBits]

/-- A double is read back, what is no number as the one value for that. -/
theorem readScalar_float (d : Double) {rest : List Char} (hr : Decimal.Ends rest) :
    readScalar (Decimal.shortest floatNames d ++ rest) = .ok ⟨(Json.float d).plain, rest⟩ := by
  cases hmag : d.magnitude? with
  | some pair =>
    obtain ⟨num, den⟩ := pair
    obtain ⟨c, more, htext, hc, hread⟩ := Decimal.readNumber_shortest floatNames hmag
    have hnumber : d.isNaN = false := by
      obtain ⟨_, _, hparts, -⟩ := Double.magnitude?_eq_some hmag
      exact decide_eq_false (not_lt.mpr hparts.finite.le)
    rw [htext, List.append_assoc, List.cons_append, readScalar_signed _ hc]
    refine (hread _ rest hr).trans ?_
    simp [plain, hnumber]
  | none =>
    rcases magnitude?_eq_none hmag with hnan | hinf
    · -- The sign of what is no number is not written.
      simp [Decimal.shortest, hmag, Decimal.special, hnan, floatNames, plain,
        readScalar, readConstant?, constants]
    · have hnumber : d.isNaN = false := by
        rw [hinf]
        cases d.isNegative <;> decide
      have htext : Decimal.shortest floatNames d
          = Decimal.sign d.isNegative ++ "Infinity".toList := by
        simp [Decimal.shortest, hmag, Decimal.special, hnumber, floatNames]
      rw [htext, plain, hnumber]
      conv_rhs => rw [hinf]
      cases d.isNegative <;>
        simp [Decimal.sign, readScalar, readConstant?, constants]

/-! ### How texts begin -/

/-- A signed digit begins a scalar. -/
theorem startsScalar_sign (negative : Bool) {c : Char} (hc : c.isDigit = true) (rest : List Char) :
    ∃ first tail, Decimal.sign negative ++ c :: rest = first :: tail ∧ StartsScalar first := by
  cases negative with
  | true => exact ⟨'-', c :: rest, rfl, .inr (by decide)⟩
  | false => exact ⟨c, rest, rfl, .inl hc⟩

/-- So a whole number begins one. -/
theorem startsScalar_ofInt (n : Int) :
    ∃ first tail, Decimal.ofInt n = first :: tail ∧ StartsScalar first := by
  obtain ⟨c, more, hdigits⟩ := List.exists_cons_of_ne_nil (Decimal.ofNat_ne_nil n.natAbs)
  rw [ofInt_eq_sign, hdigits]
  exact startsScalar_sign _ (Decimal.allDigits_ofNat n.natAbs c (hdigits ▸ List.mem_cons_self)) more

/-- A double does so too, by a digit or a letter of its name. -/
theorem startsScalar_shortest (d : Double) :
    ∃ first tail, Decimal.shortest floatNames d = first :: tail ∧ StartsScalar first := by
  -- A finite number begins with its sign or a digit, the others are spelled out.
  cases hmag : d.magnitude? with
  | some pair =>
    obtain ⟨num, den⟩ := pair
    obtain ⟨c, more, htext, hc, -⟩ := Decimal.readNumber_shortest floatNames hmag
    rw [htext]
    exact startsScalar_sign _ hc more
  | none =>
    have htext : Decimal.shortest floatNames d = Decimal.special floatNames d := by
      simp only [Decimal.shortest, hmag]
    rw [htext, Decimal.special]
    cases d.isNaN with
    | true => exact ⟨'N', ['a', 'N'], rfl, .inr (by decide)⟩
    | false =>
      cases d.isNegative with
      | true => exact ⟨'-', "Infinity".toList, rfl, .inr (by decide)⟩
      | false => exact ⟨'I', "nfinity".toList, rfl, .inr (by decide)⟩

/-- A value's text begins with neither space nor a closing bracket. -/
theorem write_head (layout : Layout) (depth : Nat) (v : Json) :
    ∃ first tail, write layout depth v = first :: tail ∧
      isSpace first = false ∧ first ≠ ']' := by
  -- For constants and numbers this is what their first characters are not.
  have hscalar {text : List Char} (h : ∃ first tail, text = first :: tail ∧ StartsScalar first) :
      ∃ first tail, text = first :: tail ∧ isSpace first = false ∧ first ≠ ']' := by
    obtain ⟨first, tail, htext, hfirst⟩ := h
    exact ⟨first, tail, htext, hfirst.ne.1, hfirst.ne.2.2.2.1⟩
  cases v with
  | null => exact ⟨'n', "ull".toList, rfl, by decide, by decide⟩
  | bool b =>
    cases b with
    | true => exact ⟨'t', "rue".toList, rfl, by decide, by decide⟩
    | false => exact ⟨'f', "alse".toList, rfl, by decide, by decide⟩
  | int n => exact hscalar (startsScalar_ofInt n)
  | float d => exact hscalar (startsScalar_shortest d)
  | str s => exact ⟨'"', _, rfl, by decide, by decide⟩
  | arr items => cases items <;> exact ⟨'[', _, rfl, by decide, by decide⟩
  | obj members =>
    cases members with
    | nil => exact ⟨'\x7b', ['\x7d'], rfl, by decide, by decide⟩
    | cons p members => exact ⟨'\x7b', _, rfl, by decide, by decide⟩

/-- Nothing is skipped in front of what is no space. -/
theorem skipSpace_of_head {c : Char} (hc : isSpace c = false) (rest : List Char) :
    skipSpace (c :: rest) = c :: rest := by
  simp [skipSpace, hc]

/-- No space is skipped before a value, -/
theorem skipSpace_write (layout : Layout) (depth : Nat) (v : Json) (rest : List Char) :
    skipSpace (write layout depth v ++ rest) = write layout depth v ++ rest := by
  obtain ⟨first, tail, htext, hspace, -⟩ := write_head layout depth v
  rw [htext]
  exact skipSpace_of_head hspace _

/-- one blank is behind a comma or colon. -/
theorem skipSpace_blank_write (layout : Layout) (depth : Nat) (v : Json) (rest : List Char) :
    skipSpace (' ' :: (write layout depth v ++ rest)) = write layout depth v ++ rest := by
  show skipSpace (write layout depth v ++ rest) = _
  exact skipSpace_write layout depth v rest

/-! ### Steps of the reader -/

/-- What begins a scalar is read as one. -/
theorem readValue_scalar {c : Char} {rest : List Char} (h : StartsScalar c) (fuel room : Nat) :
    readValue (fuel + 1) room (c :: rest) = readScalar (c :: rest) := by
  obtain ⟨-, hquote, hbracket, -, hbrace, -⟩ := h.ne
  rw [readValue]
  · exact fun _ heq => hquote (List.cons.inj heq).1
  · exact fun _ heq => hbracket (List.cons.inj heq).1
  · exact fun _ heq => hbrace (List.cons.inj heq).1

/-- A string is read back. -/
theorem readValue_string {s : String} (fuel room : Nat) (rest : List Char) :
    readValue (fuel + 1) room (writeString s ++ rest) = .ok ⟨.str s, rest⟩ := by
  obtain ⟨body, htext, hread⟩ := readString_writeString s rest
  rw [htext, readValue]
  simp only [hread]
  rfl

/-- An item in front of the closing bracket is the last one. -/
theorem readItems_last {fuel room : Nat} {text rest : List Char} {item : Json}
    (h : readValue fuel room text = .ok ⟨item, ']' :: rest⟩) :
    readItems (fuel + 1) room text = .ok ⟨[item], rest⟩ := by
  rw [readItems, h]
  rfl

/-- An item in front of a comma is followed by the other ones. -/
theorem readItems_more {fuel room : Nat} {text more rest : List Char} {item : Json}
    {items : List Json} (h : readValue fuel room text = .ok ⟨item, ',' :: more⟩)
    (hmore : readItems fuel room (skipSpace more) = .ok ⟨items, rest⟩) :
    readItems (fuel + 1) room text = .ok ⟨item :: items, rest⟩ := by
  have hcomma : skipSpace (',' :: more) = ',' :: more := skipSpace_of_head (by decide) more
  rw [readItems, h]
  simp only [bind, Except.bind, pure, Except.pure, hcomma, hmore]

/-- A member in front of the closing brace is the last one. -/
theorem readMembers_last {fuel room : Nat} {text body rest : List Char} {name : String}
    {value : Json} (hname : readString text = .ok ⟨name, ':' :: body⟩)
    (h : readValue fuel room (skipSpace body) = .ok ⟨value, '\x7d' :: rest⟩) :
    readMembers (fuel + 1) room ('"' :: text) = .ok ⟨[(name, value)], rest⟩ := by
  have hcolon : skipSpace (':' :: body) = ':' :: body := skipSpace_of_head (by decide) body
  have hbrace : skipSpace ('\x7d' :: rest) = '\x7d' :: rest := skipSpace_of_head (by decide) rest
  rw [readMembers, hname]
  simp only [bind, Except.bind, hcolon, h, hbrace]

/-- A member in front of a comma is followed by the other ones. -/
theorem readMembers_more {fuel room : Nat} {text body more rest : List Char} {name : String}
    {value : Json} {members : Members} (hname : readString text = .ok ⟨name, ':' :: body⟩)
    (h : readValue fuel room (skipSpace body) = .ok ⟨value, ',' :: more⟩)
    (hmore : readMembers fuel room (skipSpace more) = .ok ⟨members, rest⟩) :
    readMembers (fuel + 1) room ('"' :: text) = .ok ⟨(name, value) :: members, rest⟩ := by
  have hcolon : skipSpace (':' :: body) = ':' :: body := skipSpace_of_head (by decide) body
  have hcomma : skipSpace (',' :: more) = ',' :: more := skipSpace_of_head (by decide) more
  rw [readMembers, hname]
  simp only [bind, Except.bind, pure, Except.pure, hcolon, h, hcomma, hmore]

/-- Items behind a bracket are read as an array, one level deeper. -/
theorem readValue_array {fuel room : Nat} {text rest : List Char} {items : List Json} {c : Char}
    {tail : List Char} (htext : text = c :: tail) (hspace : isSpace c = false) (hc : c ≠ ']')
    (h : readItems fuel room text = .ok ⟨items, rest⟩) :
    readValue (fuel + 1) (room + 1) ('[' :: text) = .ok ⟨.arr items, rest⟩ := by
  rw [htext] at h ⊢
  simp only [readValue, skipSpace_of_head hspace]
  -- Neither is the room used up nor the array empty.
  split
  · rename_i heq
    cases heq
  · rename_i heq
    exact absurd (List.cons.inj heq).1 hc
  · rename_i heq _
    cases heq
    rw [h]
    rfl

/-- Members behind a brace are read as an object, one level deeper. -/
theorem readValue_object {fuel room : Nat} {text rest : List Char} {members : Members}
    (h : readMembers fuel room ('"' :: text) = .ok ⟨members, rest⟩) :
    readValue (fuel + 1) (room + 1) ('\x7b' :: '"' :: text)
      = .ok ⟨.obj (Members.ofList members), rest⟩ := by
  have hspace : skipSpace ('"' :: text) = '"' :: text := skipSpace_of_head (by decide) text
  simp only [readValue, hspace]
  -- Neither is the room used up nor the object empty.
  split
  · rename_i heq
    cases heq
  · rename_i heq
    exact absurd (List.cons.inj heq).1 (by decide)
  · rename_i heq _
    cases heq
    rw [h]
    rfl

/-! ### Printable texts -/

/-- Digits are printable. -/
theorem printable_of_allDigits {text : List Char} (h : Chars.AllDigits text) :
    Chars.Printable text := by
  intro c hc
  have hdigit := h c hc
  simp only [Char.isDigit, Bool.and_eq_true, decide_eq_true_eq, ge_iff_le, UInt32.le_iff_toNat_le]
    at hdigit
  have hlo : 48 ≤ c.toNat := hdigit.1
  have hhi : c.toNat ≤ 57 := hdigit.2
  omega

/-- So is a sign. -/
theorem printable_sign (negative : Bool) : Chars.Printable (Decimal.sign negative) := by
  cases negative with
  | true => exact .cons (by decide) .nil
  | false => exact .nil

/-- So a whole number is written in printable characters. -/
theorem printable_ofInt (n : Int) : Chars.Printable (Decimal.ofInt n) := by
  rw [ofInt_eq_sign]
  exact (printable_sign _).append (printable_of_allDigits (Decimal.allDigits_ofNat _))

/-- A number with its point in place is as printable as its digits. -/
theorem printable_positional {digits : List Char} (hd : Chars.AllDigits digits) (point : Int) :
    Chars.Printable (Decimal.positional digits point) := by
  have hzeros (n : Nat) : Chars.Printable (List.replicate n '0') :=
    printable_of_allDigits (Chars.allDigits_replicate_zero n)
  unfold Decimal.positional
  split
  · exact .cons (by decide) (.cons (by decide) ((hzeros _).append (printable_of_allDigits hd)))
  -- The digits are cut at the point and filled up with zeros on either side.
  · have hwhole : Chars.Printable
        (digits.take point.toNat ++ List.replicate (point.toNat - digits.length) '0') :=
      (printable_of_allDigits fun c hc => hd c (List.mem_of_mem_take hc)).append (hzeros _)
    have hfraction : Chars.Printable (digits.drop point.toNat) :=
      printable_of_allDigits fun c hc => hd c (List.mem_of_mem_drop hc)
    simp only
    split
    · exact hwhole.append (.cons (by decide) (.cons (by decide) .nil))
    · exact hwhole.append (.cons (by decide) hfraction)

/-- So is one with an exponent. -/
theorem printable_scientific {digits : List Char} (hd : Chars.AllDigits digits) (point : Int) :
    Chars.Printable (Decimal.scientific digits point) := by
  have hfirst : Chars.Printable (digits.take 1) :=
    printable_of_allDigits fun c hc => hd c (List.mem_of_mem_take hc)
  have hmore : Chars.Printable (digits.drop 1) :=
    printable_of_allDigits fun c hc => hd c (List.mem_of_mem_drop hc)
  have hexponent : Chars.Printable ('e' :: (if point - 1 < 0 then '-' else '+') ::
      Decimal.padLeft 2 (Decimal.ofNat (point - 1).natAbs)) := by
    refine .cons (by decide) (.cons ?_ (printable_of_allDigits (Decimal.allDigits_padLeft 2 _)))
    split <;> decide
  unfold Decimal.scientific
  refine (hfirst.append ?_).append hexponent
  split
  · exact .nil
  · exact .cons (by decide) hmore

/-- A double is written in printable characters, whether it is finite or named. -/
theorem printable_shortest (d : Double) : Chars.Printable (Decimal.shortest floatNames d) := by
  have hsignificant (n : Nat) : Chars.AllDigits (Decimal.significant (Decimal.ofNat n)) := by
    obtain ⟨k, hk⟩ := Decimal.significant_append_zeros (Decimal.ofNat n)
    exact fun c hc => Decimal.allDigits_ofNat n c (hk ▸ List.mem_append_left _ hc)
  have hlayout (b : Bool) (n : Nat) (point : Int) : Chars.Printable
      (if b then Decimal.positional (Decimal.significant (Decimal.ofNat n)) point
        else Decimal.scientific (Decimal.significant (Decimal.ofNat n)) point) := by
    cases b with
    | true => exact printable_positional (hsignificant n) point
    | false => exact printable_scientific (hsignificant n) point
  unfold Decimal.shortest
  split
  · -- Infinity and what is no number are written as names.
    unfold Decimal.special
    split
    · decide
    · exact (printable_sign _).append (by decide)
  · split
    · exact (printable_sign _).append (by decide)
    · exact (printable_sign _).append (hlayout _ _ _)

/-- What stands between two items is printable. -/
theorem printable_between : Chars.Printable [',', ' '] := by
  decide

/-- What stands behind a name is printable. -/
theorem printable_colon : Chars.Printable [':', ' '] := by
  decide

mutual

/-- On one line a value is written in printable ASCII characters. -/
theorem printable_write (level : Nat) : (v : Json) → Chars.Printable (write .line level v)
  | .null => by
    unfold write
    decide
  | .bool true => by
    unfold write
    decide
  | .bool false => by
    unfold write
    decide
  | .int n => by
    unfold write
    exact printable_ofInt n
  | .float d => by
    unfold write
    exact printable_shortest d
  | .str s => by
    unfold write
    exact printable_writeString s
  | .arr [] => by
    unfold write
    decide
  | .arr (item :: items) => by
    unfold write
    exact .cons (by decide) ((((Chars.Printable.nil.append (printable_write _ item)).append
      (printable_writeItems _ items)).append .nil).append (.cons (by decide) .nil))
  | .obj [] => by
    unfold write
    decide
  | .obj ((name, value) :: members) => by
    unfold write
    exact .cons (by decide) ((((((Chars.Printable.nil.append (printable_writeString name)).append
      printable_colon).append (printable_write _ value)).append
      (printable_writeMembers _ members)).append .nil).append (.cons (by decide) .nil))

/-- The same of the items behind the first. -/
theorem printable_writeItems (level : Nat) :
    (items : List Json) → Chars.Printable (writeItems .line level items)
  | [] => .nil
  | item :: items => by
    unfold writeItems
    exact (printable_between.append (printable_write level item)).append
      (printable_writeItems level items)

/-- The same of the members behind the first. -/
theorem printable_writeMembers (level : Nat) :
    (members : List (String × Json)) → Chars.Printable (writeMembers .line level members)
  | [] => .nil
  | (name, value) :: members => by
    unfold writeMembers
    exact (((printable_between.append (printable_writeString name)).append printable_colon).append
      (printable_write level value)).append (printable_writeMembers level members)

end

/-! ### The round trip -/

/-- What follows an item ends a number. -/
theorem ends_writeItems (layout : Layout) (level : Nat) (items : List Json) (rest : List Char) :
    Decimal.Ends (writeItems layout level items ++ ']' :: rest) := by
  cases items <;> cases layout <;>
    simp [Decimal.Ends, writeItems, Layout.between]

/-- What follows a member does so too. -/
theorem ends_writeMembers (layout : Layout) (level : Nat) (members : Members) (rest : List Char) :
    Decimal.Ends (writeMembers layout level members ++ '\x7d' :: rest) := by
  cases members <;> cases layout <;>
    simp [Decimal.Ends, writeMembers, Layout.between]

/-- With this much fuel the text of a value is read back, whatever may stand behind it. Each level
and each item takes one from the fuel, and at least two characters are written for it. -/
def ReadsValues (fuel : Nat) : Prop :=
  ∀ (level : Nat) (v : Json) (room : Nat) (rest : List Char), v.wholesFit = true →
    v.depth ≤ room → Decimal.Ends rest → 2 * (write .line level v).length ≤ fuel + 1 →
    readValue fuel room (write .line level v ++ rest) = .ok ⟨v.plain, rest⟩

/-- With this much fuel the items of an array are read back through the closing bracket. -/
def ReadsItems (fuel : Nat) : Prop :=
  ∀ (level : Nat) (item : Json) (items : List Json) (room : Nat) (rest : List Char),
    wholesFitItems (item :: items) = true →
    depthOfItems (item :: items) ≤ room →
    2 * ((write .line level item).length + (writeItems .line level items).length) ≤ fuel →
    readItems fuel room (write .line level item ++ (writeItems .line level items ++ ']' :: rest))
      = .ok ⟨plainItems (item :: items), rest⟩

/-- The text of the members of an object, with what stands behind the object. -/
def membersText (level : Nat) (name : String) (value : Json) (members : Members)
    (rest : List Char) : List Char :=
  writeString name ++ (':' :: ' ' :: (write .line level value ++
    (writeMembers .line level members ++ '\x7d' :: rest)))

/-- With this much fuel the members of an object are read back through the closing brace. -/
def ReadsMembers (fuel : Nat) : Prop :=
  ∀ (level : Nat) (name : String) (value : Json) (members : Members) (room : Nat)
    (rest : List Char),
    wholesFitMembers ((name, value) :: members) = true →
    depthOfMembers ((name, value) :: members) ≤ room →
    2 * ((writeString name).length + (write .line level value).length
      + (writeMembers .line level members).length) ≤ fuel →
    readMembers fuel room (membersText level name value members rest)
      = .ok ⟨plainMembers ((name, value) :: members), rest⟩

/-- An array is read back if its items are. -/
theorem readValue_writeArray {fuel : Nat} (hitems : ReadsItems fuel) (level : Nat)
    (items : List Json) (room : Nat) (rest : List Char)
    (hfit : wholesFitItems items = true) (hdepth : depthOfItems items ≤ room)
    (hfuel : 2 * (write .line level (.arr items)).length ≤ fuel + 2) :
    readValue (fuel + 1) (room + 1) (write .line level (.arr items) ++ rest)
      = .ok ⟨.arr (plainItems items), rest⟩ := by
  cases items with
  | nil => rfl
  | cons item items =>
    have hwrite : write .line level (.arr (item :: items)) ++ rest
        = '[' :: (write .line (level + 1) item ++
          (writeItems .line (level + 1) items ++ ']' :: rest)) := by
      simp [write, Layout.break]
    -- An array with items does not look like an empty one.
    obtain ⟨first, tail, htext, hspace, hclose⟩ := write_head .line (level + 1) item
    rw [hwrite]
    refine readValue_array (by rw [htext, List.cons_append]) hspace hclose ?_
    refine hitems (level + 1) item items room rest hfit hdepth ?_
    simp only [write, Layout.break, List.nil_append, List.length_cons, List.length_append] at hfuel
    omega

/-- An object is read back if its members are, those of one name put together. -/
theorem readValue_writeObject {fuel : Nat} (hmembers : ReadsMembers fuel) (level : Nat)
    (members : Members) (room : Nat) (rest : List Char)
    (hfit : wholesFitMembers members = true) (hdepth : depthOfMembers members ≤ room)
    (hfuel : 2 * (write .line level (.obj members)).length ≤ fuel + 2) :
    readValue (fuel + 1) (room + 1) (write .line level (.obj members) ++ rest)
      = .ok ⟨.obj (Members.ofList (plainMembers members)), rest⟩ := by
  cases members with
  | nil => rfl
  | cons p members =>
    obtain ⟨name, value⟩ := p
    have hwrite : write .line level (.obj ((name, value) :: members)) ++ rest
        = '\x7b' :: membersText (level + 1) name value members rest := by
      simp [write, Layout.break, membersText]
    have hread := hmembers (level + 1) name value members room rest hfit hdepth (by
      simp only [write, Layout.break, List.nil_append, List.length_cons, List.length_append,
        List.length_nil] at hfuel ⊢
      omega)
    -- The first name begins with a quote, as the reader of members expects.
    obtain ⟨body, hquote, -⟩ := readString_writeString name (':' :: ' ' ::
      (write .line (level + 1) value ++
        (writeMembers .line (level + 1) members ++ '\x7d' :: rest)))
    rw [membersText, hquote] at hread
    rw [hwrite, membersText, hquote]
    exact readValue_object hread

/-- Values are read back with more fuel if items and members are with less. -/
theorem readsValues_succ {fuel : Nat} (hitems : ReadsItems fuel) (hmembers : ReadsMembers fuel) :
    ReadsValues (fuel + 1) := by
  intro level v room rest hfit hdepth hr hfuel
  cases v with
  | null => exact readValue_scalar (c := 'n') (.inr (by decide)) fuel room
  | bool b =>
    cases b with
    | true => exact readValue_scalar (c := 't') (.inr (by decide)) fuel room
    | false => exact readValue_scalar (c := 'f') (.inr (by decide)) fuel room
  | int n =>
    obtain ⟨first, tail, htext, hfirst⟩ := startsScalar_ofInt n
    have hread := readScalar_int hfit hr
    rw [htext] at hread
    rw [write, htext]
    exact (readValue_scalar hfirst fuel room).trans hread
  | float d =>
    obtain ⟨first, tail, htext, hfirst⟩ := startsScalar_shortest d
    have hread := readScalar_float d hr
    rw [htext] at hread
    rw [write, htext]
    exact (readValue_scalar hfirst fuel room).trans hread
  | str s => exact readValue_string fuel room rest
  | arr items =>
    rw [wholesFit] at hfit
    rw [depth] at hdepth
    -- An array takes one level of the room.
    obtain ⟨room, rfl⟩ : ∃ n, room = n + 1 := ⟨room - 1, by omega⟩
    exact readValue_writeArray hitems level items room rest hfit (by omega) hfuel
  | obj members =>
    rw [wholesFit] at hfit
    rw [depth] at hdepth
    obtain ⟨room, rfl⟩ : ∃ n, room = n + 1 := ⟨room - 1, by omega⟩
    exact readValue_writeObject hmembers level members room rest hfit (by omega) hfuel

/-- Items are, if values and the items behind them are. -/
theorem readsItems_succ {fuel : Nat} (hvalues : ReadsValues fuel) (hitems : ReadsItems fuel) :
    ReadsItems (fuel + 1) := by
  intro level item items room rest hfit hdepth hfuel
  rw [wholesFitItems, Bool.and_eq_true] at hfit
  rw [depthOfItems] at hdepth
  -- The text of an item ends at the comma or bracket behind it.
  have hitem := hvalues level item room _ hfit.1 (by omega)
    (ends_writeItems .line level items rest) (by omega)
  cases items with
  | nil => exact readItems_last hitem
  | cons next items =>
    have hwrite : writeItems .line level (next :: items) ++ ']' :: rest
        = ',' :: ' ' ::
          (write .line level next ++ (writeItems .line level items ++ ']' :: rest)) := by
      simp [writeItems, Layout.between]
    rw [hwrite] at hitem ⊢
    refine readItems_more hitem ?_
    rw [skipSpace_blank_write]
    refine hitems level next items room rest hfit.2 (by omega) ?_
    simp only [writeItems, Layout.between, List.length_append, List.length_cons,
      List.length_nil] at hfuel
    omega

/-- Members are, if values and the members behind them are. -/
theorem readsMembers_succ {fuel : Nat} (hvalues : ReadsValues fuel)
    (hmembers : ReadsMembers fuel) : ReadsMembers (fuel + 1) := by
  intro level name value members room rest hfit hdepth hfuel
  rw [wholesFitMembers, Bool.and_eq_true] at hfit
  rw [depthOfMembers] at hdepth
  obtain ⟨body, hquote, hname⟩ := readString_writeString name (':' :: ' ' ::
    (write .line level value ++ (writeMembers .line level members ++ '\x7d' :: rest)))
  -- The text of a member's value ends at the comma or brace behind it.
  have hvalue := hvalues level value room _ hfit.1 (by omega)
    (ends_writeMembers .line level members rest) (by omega)
  rw [← skipSpace_blank_write] at hvalue
  rw [membersText, hquote]
  cases members with
  | nil => exact readMembers_last hname hvalue
  | cons p members =>
    obtain ⟨next, nextValue⟩ := p
    have hwrite : writeMembers .line level ((next, nextValue) :: members) ++ '\x7d' :: rest
        = ',' :: ' ' :: membersText level next nextValue members rest := by
      simp [writeMembers, Layout.between, membersText]
    rw [hwrite] at hname hvalue
    have hspace : skipSpace (' ' :: membersText level next nextValue members rest)
        = membersText level next nextValue members rest := rfl
    refine readMembers_more hname hvalue ?_
    rw [hspace]
    refine hmembers level next nextValue members room rest hfit.2 (by omega) ?_
    simp only [writeMembers, Layout.between, List.length_append, List.length_cons,
      List.length_nil] at hfuel
    omega

/-- With any fuel all three are read back, by induction on the fuel. -/
theorem reads_all (fuel : Nat) : ReadsValues fuel ∧ ReadsItems fuel ∧ ReadsMembers fuel := by
  induction fuel with
  | zero =>
    -- Nothing is written in no characters, so no text is promised to be read without fuel.
    have hpos (level : Nat) (v : Json) : 0 < (write .line level v).length := by
      obtain ⟨first, tail, htext, -⟩ := write_head .line level v
      rw [htext, List.length_cons]
      omega
    refine ⟨?_, ?_, ?_⟩
    · intro level v _ _ _ _ _ hfuel
      have := hpos level v
      omega
    · intro level item items _ _ _ _ hfuel
      have := hpos level item
      omega
    · intro level name value members _ _ _ _ hfuel
      have := hpos level value
      omega
  | succ fuel ih =>
    obtain ⟨hvalues, hitems, hmembers⟩ := ih
    exact ⟨readsValues_succ hitems hmembers, readsItems_succ hvalues hitems,
      readsMembers_succ hvalues hmembers⟩

/-- **A value within the limits is read back from its text.** Its whole numbers are not too long, and it
is not nested deeper than is read. -/
theorem read_render {nesting : Nat} {v : Json} (hdepth : v.depth ≤ nesting)
    (hfit : v.wholesFit = true) : read nesting (v.render .line).toList = .ok v.plain := by
  have hends : Decimal.Ends [] := by
    intro c hc
    cases hc
  have hread := (reads_all (2 * (write .line 0 v).length + 2)).1 0 v nesting [] hfit hdepth hends
    (by omega)
  rw [List.append_nil] at hread
  -- The text begins neither with a mark of byte order nor with space.
  have hmark : (write .line 0 v).head? ≠ some '\uFEFF' := by
    intro hhead
    have hrange := printable_write 0 v _ (List.mem_of_head? hhead)
    exact absurd hrange.2 (by decide)
  have hspace : skipSpace (write .line 0 v) = write .line 0 v := by
    have hskip := skipSpace_write .line 0 v []
    rwa [List.append_nil] at hskip
  rw [read, render, String.toList_ofList, readAll, if_neg hmark, hspace, hread]
  rfl

end ShellAssist.Json
