import ShellAssist.Json.Reader
import ShellAssist.Json.Printer
import Mathlib.Algebra.Group.Nat.Defs
import Mathlib.Tactic.SplitIfs

namespace ShellAssist

/-!
# Strings that are written and read back

Each character of a string is written as itself, as a short escape, as the escape of one unit, or as
the escapes of a surrogate pair. The reader takes the four digits of a unit only where something
stands behind them; in a string there is always at least the closing quote.

* `Text.hexNumber?_hex` — hexadecimal digits of a fixed width read back as their number;
* `Json.takeString_flatMap` — the characters of a string are read back up to its closing quote;
* `Json.printable_writeString` — a string is written in printable ASCII characters.
-/

/-! ### Hexadecimal digits -/

namespace Text

/-- A hexadecimal digit is read back. -/
theorem hexValue?_hexDigit (n : Nat) : hexValue? (hexDigit n) = some (n % 16) := by
  have hall : ∀ m < 16, hexValue? (Nat.digitChar m) = some m := by decide
  exact hall (n % 16) (Nat.mod_lt n (by decide))

/-- One more digit at the end counts its value beside sixteen times the digits before it. -/
theorem hexNumber?_append_digit (digits : List Char) (c : Char) :
    hexNumber? (digits ++ [c])
      = (hexNumber? digits).bind fun n => (hexValue? c).map fun d => 16 * n + d := by
  rw [hexNumber?, hexNumber?, List.foldl_append]
  cases digits.foldl (fun acc c => do return 16 * (← acc) + (← hexValue? c)) (some 0) with
  | none => rfl
  | some n =>
    simp only [List.foldl_cons, List.foldl_nil]
    cases hexValue? c <;> rfl

/-- Digits of a fixed width read back as the number, if it fits the width. -/
theorem hexNumber?_hex {width n : Nat} (h : n < 16 ^ width) :
    hexNumber? (hex width n) = some n := by
  induction width generalizing n with
  | zero =>
    have hn : n = 0 := by simpa using h
    rw [hn]
    rfl
  | succ width ih =>
    have hhigh : n / 16 < 16 ^ width := by
      rw [Nat.pow_succ] at h
      omega
    rw [hex, hexNumber?_append_digit, ih hhigh, hexValue?_hexDigit]
    simp only [Option.bind_some, Option.map_some, Option.some.injEq]
    omega

end Text

/-! ### Printable characters -/

namespace Chars

/-- Every character is an ASCII character that is neither white space but the blank nor a control
character. -/
def Printable (text : List Char) : Prop :=
  ∀ c ∈ text, 0x20 ≤ c.toNat ∧ c.toNat < 0x7F

instance (text : List Char) : Decidable (Printable text) :=
  List.decidableBAll _ text

/-- Nothing is printable. -/
theorem Printable.nil : Printable [] := by
  intro c hc
  cases hc

/-- So is a printable character in front of a printable text. -/
theorem Printable.cons {c : Char} {text : List Char} (hc : 0x20 ≤ c.toNat ∧ c.toNat < 0x7F)
    (h : Printable text) : Printable (c :: text) := by
  intro d hd
  rcases List.mem_cons.mp hd with rfl | hd
  · exact hc
  · exact h d hd

/-- So are two printable texts. -/
theorem Printable.append {a b : List Char} (ha : Printable a) (hb : Printable b) :
    Printable (a ++ b) := by
  intro c hc
  rcases List.mem_append.mp hc with h | h
  · exact ha c h
  · exact hb c h

/-- So is a text if what is written for each of its characters is. -/
theorem Printable.flatMap {text : List Char} {f : Char → List Char}
    (h : ∀ c ∈ text, Printable (f c)) : Printable (text.flatMap f) := by
  intro d hd
  obtain ⟨c, hc, hd⟩ := List.mem_flatMap.mp hd
  exact h c hc d hd

end Chars

namespace Json

/-! ### Escapes -/

/-- Hexadecimal digits are printable. -/
theorem printable_hex (width n : Nat) : Chars.Printable (Text.hex width n) := by
  induction width generalizing n with
  | zero => exact .nil
  | succ width ih =>
    have hdigit : ∀ m < 16, 0x20 ≤ (Nat.digitChar m).toNat ∧ (Nat.digitChar m).toNat < 0x7F := by
      decide
    exact (ih (n / 16)).append (.cons (hdigit (n % 16) (Nat.mod_lt n (by decide))) .nil)

/-- So is an escape. -/
theorem printable_unitEscape (unit : Nat) : Chars.Printable (unitEscape unit) :=
  .cons (by decide) (.cons (by decide) (printable_hex 4 unit))

/-- So is whatever is written for a character. -/
theorem printable_escapeChar (c : Char) : Chars.Printable (escapeChar c) := by
  have hshort (d : Char) (hd : 0x20 ≤ d.toNat ∧ d.toNat < 0x7F) : Chars.Printable ['\\', d] :=
    .cons (by decide) (.cons hd .nil)
  unfold escapeChar
  -- The short escapes, a character that stands for itself, and one or two unit escapes.
  split_ifs with _ _ _ _ _ _ _ hplain
  · exact hshort '"' (by decide)
  · exact hshort '\\' (by decide)
  · exact hshort 'n' (by decide)
  · exact hshort 'r' (by decide)
  · exact hshort 't' (by decide)
  · exact hshort 'f' (by decide)
  · exact hshort 'b' (by decide)
  · exact .cons (by simpa using hplain) .nil
  · exact printable_unitEscape _
  · exact (printable_unitEscape _).append (printable_unitEscape _)

/-- A string is written in printable ASCII characters. -/
theorem printable_writeString (text : String) : Chars.Printable (writeString text) :=
  .cons (by decide) ((Chars.Printable.flatMap fun c _ => printable_escapeChar c).append (by decide))

/-- Four digits with something behind them are taken as the unit that they write. -/
theorem takeUnit?_hex {unit : Nat} (h : unit < 0x10000) (c : Char) (rest : List Char) :
    takeUnit? (Text.hex 4 unit ++ c :: rest) = some (unit, c :: rest) := by
  have hnumber : Text.hexNumber? (Text.hex 4 unit) = some unit := Text.hexNumber?_hex h
  simp only [Text.hex, List.nil_append, List.cons_append] at hnumber ⊢
  simp only [takeUnit?, hnumber, Option.map_some]

/-- Characters are below U+110000 and no surrogates. -/
theorem toNat_range (c : Char) : c.toNat < 0xD800 ∨ (0xDFFF < c.toNat ∧ c.toNat < 0x110000) :=
  c.valid

/-- A character is no half of a pair. -/
theorem not_surrogate (c : Char) : isHighUnit c.toNat = false ∧ isLowUnit c.toNat = false := by
  have hrange := toNat_range c
  simp only [isHighUnit, isLowUnit, Bool.and_eq_false_iff, decide_eq_false_iff_not]
  omega

/-- The escape of a character below U+10000 is read as the character. -/
theorem takeUnitChar_unit {c : Char} (hc : c.toNat < 0x10000) (d : Char) (rest : List Char) :
    takeUnitChar (Text.hex 4 c.toNat ++ d :: rest) = .ok ⟨c, d :: rest⟩ := by
  obtain ⟨hhigh, hlow⟩ := not_surrogate c
  simp only [takeUnitChar, takeUnit?_hex hc, hhigh, charOfUnit, hlow, Bool.or_self,
    Bool.false_eq_true, if_false, Char.ofNat_toNat]

/-- The escapes of a surrogate pair are read as the character that it makes. -/
theorem takeUnitChar_pair {high low : Nat} (hhigh : isHighUnit high = true)
    (hlow : isLowUnit low = true) (d : Char) (rest : List Char) :
    takeUnitChar (Text.hex 4 high ++ (unitEscape low ++ d :: rest))
      = .ok ⟨charOfPair high low, d :: rest⟩ := by
  have hbounds : high < 0x10000 ∧ low < 0x10000 := by
    simp only [isHighUnit, isLowUnit, Bool.and_eq_true, decide_eq_true_eq] at hhigh hlow
    omega
  rw [takeUnitChar, unitEscape, List.cons_append, takeUnit?_hex hbounds.1]
  simp only [hhigh, List.cons_append, takeUnit?_hex hbounds.2, hlow, if_true]

/-- A character beyond U+FFFF is split into a surrogate pair that makes it. -/
theorem charOfPair_split {c : Char} {n : Nat} (hc : c.toNat = n + 0x10000) :
    isHighUnit (0xD800 + n / 0x400) = true ∧ isLowUnit (0xDC00 + n % 0x400) = true ∧
      charOfPair (0xD800 + n / 0x400) (0xDC00 + n % 0x400) = c := by
  have hrange := toNat_range c
  refine ⟨?_, ?_, ?_⟩
  · simp only [isHighUnit, Bool.and_eq_true, decide_eq_true_eq]
    omega
  · simp only [isLowUnit, Bool.and_eq_true, decide_eq_true_eq]
    omega
  · have hsum : 0x10000 + (0xD800 + n / 0x400 - 0xD800) * 0x400 + (0xDC00 + n % 0x400 - 0xDC00)
        = c.toNat := by omega
    rw [charOfPair, hsum, Char.ofNat_toNat]

/-! ### Strings -/

/-- One character of a string is read back. Its escape has something behind it, be it the closing
quote. -/
theorem takeString_escapeChar {text cs more tail : List Char} {fuel : Nat} {d : Char} (c : Char)
    (h : takeString text fuel (d :: more) = .ok ⟨cs, tail⟩) :
    takeString text (fuel + 1) (escapeChar c ++ d :: more) = .ok ⟨c :: cs, tail⟩ := by
  -- A short escape is one letter behind the backslash,
  have hescape {e : Char} (he : simpleEscape? e = some c) (hu : e ≠ 'u') :
      takeString text (fuel + 1) ('\\' :: e :: d :: more) = .ok ⟨c :: cs, tail⟩ := by
    simp [takeString, takeEscape, hu, he, h, bind, Except.bind, pure, Except.pure]
  -- and a long one has digits behind it.
  have hunit {digits : List Char} (hd : takeUnitChar digits = .ok ⟨c, d :: more⟩) :
      takeString text (fuel + 1) ('\\' :: 'u' :: digits) = .ok ⟨c :: cs, tail⟩ := by
    simp [takeString, takeEscape, hd, h, bind, Except.bind, pure, Except.pure]
  unfold escapeChar
  split_ifs with hquote hslash hn hr ht hf hb hplain hsmall
  · exact hescape (e := '"') (by rw [hquote]; rfl) (by decide)
  · exact hescape (e := '\\') (by rw [hslash]; rfl) (by decide)
  · exact hescape (e := 'n') (by rw [hn]; rfl) (by decide)
  · exact hescape (e := 'r') (by rw [hr]; rfl) (by decide)
  · exact hescape (e := 't') (by rw [ht]; rfl) (by decide)
  · exact hescape (e := 'f') (by rw [hf]; rfl) (by decide)
  · exact hescape (e := 'b') (by rw [hb]; rfl) (by decide)
  · -- A character that stands for itself is no control character.
    have hcontrol : ¬ c.toNat < 0x20 := by
      simp only [Bool.and_eq_true, decide_eq_true_eq] at hplain
      omega
    simp [takeString, hquote, hslash, hcontrol, h, bind, Except.bind, pure, Except.pure]
  · exact hunit (takeUnitChar_unit hsmall d more)
  · rw [List.append_assoc]
    obtain ⟨hhigh, hlow, hpair⟩ := charOfPair_split (c := c) (n := c.toNat - 0x10000) (by omega)
    exact hunit ((takeUnitChar_pair hhigh hlow d more).trans (by rw [hpair]))

/-- The characters of a string are read back up to its closing quote. -/
theorem takeString_flatMap (text : List Char) {cs : List Char} (rest : List Char) {fuel : Nat}
    (h : cs.length < fuel) :
    takeString text fuel (cs.flatMap escapeChar ++ '"' :: rest) = .ok ⟨cs, rest⟩ := by
  obtain ⟨fuel, rfl⟩ : ∃ n, fuel = n + 1 := ⟨fuel - 1, by omega⟩
  induction cs generalizing fuel with
  | nil => simp [takeString]
  | cons c cs ih =>
    rw [List.length_cons] at h
    obtain ⟨fuel, rfl⟩ : ∃ n, fuel = n + 1 := ⟨fuel - 1, by omega⟩
    have hrest := ih fuel (by omega)
    rw [List.flatMap_cons, List.append_assoc]
    -- Whatever stands behind the escape begins with some character.
    obtain ⟨d, more, hmore⟩ : ∃ d more, cs.flatMap escapeChar ++ '"' :: rest = d :: more :=
      List.exists_cons_of_ne_nil (by simp)
    rw [hmore] at hrest ⊢
    exact takeString_escapeChar c hrest

/-- Something is written for each character. -/
theorem escapeChar_ne_nil (c : Char) : escapeChar c ≠ [] := by
  unfold escapeChar unitEscape
  split_ifs <;> simp

/-- So a string is no longer than what is written for it. -/
theorem length_le_flatMap_escapeChar (cs : List Char) :
    cs.length ≤ (cs.flatMap escapeChar).length := by
  induction cs with
  | nil => exact Nat.le_refl _
  | cons c cs ih =>
    have hpos := List.length_pos_iff.mpr (escapeChar_ne_nil c)
    rw [List.flatMap_cons, List.length_append, List.length_cons]
    omega

/-- A string is read back behind its opening quote, and the reader stops behind the closing one. -/
theorem readString_writeString (s : String) (rest : List Char) :
    ∃ body, writeString s ++ rest = '"' :: body ∧ readString body = .ok ⟨s, rest⟩ := by
  refine ⟨s.toList.flatMap escapeChar ++ '"' :: rest, by simp [writeString], ?_⟩
  have hfuel : s.toList.length < (s.toList.flatMap escapeChar ++ '"' :: rest).length + 1 := by
    have hle := length_le_flatMap_escapeChar s.toList
    rw [List.length_append]
    omega
  rw [readString, takeString_flatMap _ rest hfuel]
  simp [bind, Except.bind, pure, Except.pure]

end Json

end ShellAssist
