import ShellAssist.Json.Reader
import ShellAssist.Json.Printer
import ShellAssist.Number.Numeral
import ShellAssist.Proofs.Text.Basic
import Mathlib.Algebra.Group.Nat.Defs

namespace ShellAssist

open Number

/-!
# Digits that are written and read back

The number that a run of decimal digits writes, and the digits of a number, undo each other. This
file holds the digit facts that both the numbers of JSON texts and the shortest texts of doubles
rest on:

* `Chars.digitsValue_ofNat` — the digits of a number read back as the number;
* `Chars.digitsValue_append_zeros` — zeros behind digits multiply by ten;
* `Json.takeDigits_append` — taking digits from the front takes exactly a run of digits;
* `Decimal.ofNat_head_ne_zero` — a positive number does not begin with a zero;
* `Numeral.int_ofInt` — which whole numbers are read back as they were written.
-/

/-! ### Values of digit runs -/

namespace Chars

/-- Every character is an ASCII digit. -/
def AllDigits (text : List Char) : Prop :=
  ∀ c ∈ text, c.isDigit = true

theorem AllDigits.append {a b : List Char} (ha : AllDigits a) (hb : AllDigits b) :
    AllDigits (a ++ b) := by
  intro c hc
  rcases List.mem_append.mp hc with h | h
  · exact ha c h
  · exact hb c h

theorem allDigits_replicate_zero (n : Nat) : AllDigits (List.replicate n '0') := by
  intro c hc
  rw [List.eq_of_mem_replicate hc]
  decide

/-- On ASCII digits the value of a run is the positional value. -/
theorem digitsValue_eq_ofDigitChars {text : List Char} (h : AllDigits text) :
    digitsValue text = Nat.ofDigitChars 10 text 0 := by
  unfold digitsValue Nat.ofDigitChars
  -- Both are folds, so the induction is over every start of them.
  generalize 0 = start
  induction text generalizing start with
  | nil => rfl
  | cons c rest ih =>
    have hc : digitValue? c = some (c.toNat - '0'.toNat) := by
      simp [digitValue?, h c (by simp)]
    simp only [List.foldl_cons, hc]
    exact ih (fun d hd => h d (by simp [hd])) _

/-- The digits of a number read back as the number. -/
theorem digitsValue_ofNat (n : Nat) : digitsValue (Decimal.ofNat n) = n := by
  have h : AllDigits (Decimal.ofNat n) :=
    fun _ hc => Nat.isDigit_of_mem_toDigits (by decide) (by decide) hc
  rw [digitsValue_eq_ofDigitChars h]
  exact Nat.ofDigitChars_ten_toDigits

/-- Zeros behind digits multiply by ten each. -/
theorem digitsValue_append_zeros {text : List Char} (h : AllDigits text) (n : Nat) :
    digitsValue (text ++ List.replicate n '0') = digitsValue text * 10 ^ n := by
  rw [digitsValue_eq_ofDigitChars (h.append (allDigits_replicate_zero n)),
    digitsValue_eq_ofDigitChars h, Nat.ofDigitChars_append, Nat.ofDigitChars_replicate_zero,
    Nat.mul_comm]

/-- Zeros in front of digits change nothing. -/
theorem digitsValue_zeros_append {text : List Char} (h : AllDigits text) (n : Nat) :
    digitsValue (List.replicate n '0' ++ text) = digitsValue text := by
  rw [digitsValue_eq_ofDigitChars ((allDigits_replicate_zero n).append h),
    digitsValue_eq_ofDigitChars h, Nat.ofDigitChars_append, Nat.ofDigitChars_replicate_zero,
    Nat.mul_zero]

end Chars

/-! ### The digits of a number -/

namespace Number.Decimal

theorem allDigits_ofNat (n : Nat) : Chars.AllDigits (ofNat n) :=
  fun _ hc => Nat.isDigit_of_mem_toDigits (by decide) (by decide) hc

theorem ofNat_ne_nil (n : Nat) : ofNat n ≠ [] :=
  Nat.toDigits_ne_nil

/-- A positive number does not begin with a zero. -/
theorem ofNat_head_ne_zero {n : Nat} (hn : 0 < n) : ∃ c rest, ofNat n = c :: rest ∧ c ≠ '0' := by
  induction n using Nat.strongRecOn with
  | _ n ih =>
    unfold ofNat
    by_cases h : n < 10
    · rw [Nat.toDigits_of_lt_base h]
      refine ⟨n.digitChar, [], rfl, ?_⟩
      have hall : ∀ m, m < 10 → 0 < m → Nat.digitChar m ≠ '0' := by decide
      exact hall n h hn
    · rw [Nat.toDigits_of_base_le (by decide) (by omega)]
      obtain ⟨c, rest, heq, hc⟩ := ih (n / 10) (by omega) (by omega)
      refine ⟨c, rest ++ [Nat.digitChar (n % 10)], ?_, hc⟩
      rw [show Nat.toDigits 10 (n / 10) = c :: rest from heq, List.cons_append]

/-- Multiplying a positive number by ten puts a zero behind its digits. -/
theorem ofNat_mul_pow {n : Nat} (hn : 0 < n) (k : Nat) :
    ofNat (n * 10 ^ k) = ofNat n ++ List.replicate k '0' := by
  induction k with
  | zero => simp
  | succ k ih =>
    have hpos : 0 < n * 10 ^ k := Nat.mul_pos hn (Nat.pow_pos (by decide))
    have hstep : ofNat (10 * (n * 10 ^ k) + 0) = ofNat (n * 10 ^ k) ++ ofNat 0 :=
      (Nat.toDigits_append_toDigits (by decide) hpos (by decide)).symm
    have hmul : n * 10 ^ (k + 1) = 10 * (n * 10 ^ k) + 0 := by
      rw [Nat.pow_succ, ← Nat.mul_assoc, Nat.mul_comm, Nat.add_zero]
    rw [hmul, hstep, ih, List.append_assoc, List.replicate_succ']
    rfl

theorem length_ofNat_mul_pow {n : Nat} (hn : 0 < n) (k : Nat) :
    (ofNat (n * 10 ^ k)).length = (ofNat n).length + k := by
  rw [ofNat_mul_pow hn, List.length_append, List.length_replicate]

/-- A number is below the power of ten with as many zeros as it has digits. -/
theorem lt_pow_length_ofNat (n : Nat) : n < 10 ^ (ofNat n).length :=
  (Nat.length_toDigits_le_iff (by decide) Nat.length_toDigits_pos).mp (Nat.le_refl _)

/-- A number has no more digits than are read just if it is below the limit for writing. -/
theorem length_ofNat_le_iff {n : Nat} : (ofNat n).length ≤ maxDigits ↔ n < writableLimit :=
  Nat.length_toDigits_le_iff (by decide) (by decide)

/-- Filling up with zeros on the left keeps the value. -/
theorem digitsValue_padLeft (width n : Nat) :
    Chars.digitsValue (padLeft width (ofNat n)) = n := by
  rw [padLeft, Chars.digitsValue_zeros_append (allDigits_ofNat n), Chars.digitsValue_ofNat]

theorem allDigits_padLeft (width n : Nat) : Chars.AllDigits (padLeft width (ofNat n)) :=
  (Chars.allDigits_replicate_zero _).append (allDigits_ofNat n)

/-- The characters of a whole number are digits and a sign, and so none is white space. -/
theorem isBlank_of_mem_ofInt {n : Int} {c : Char} (h : c ∈ ofInt n) : Chars.isBlank c = false := by
  have hdigit {c : Char} (hc : c.isDigit = true) : Chars.isBlank c = false := by
    rw [Char.isDigit, Bool.and_eq_true, decide_eq_true_eq, decide_eq_true_eq] at hc
    have hc' : 48 ≤ c.toNat ∧ c.toNat ≤ 57 := hc
    simp only [Chars.isBlank, Chars.inRanges, Chars.blankRanges, List.any_cons, List.any_nil,
      Bool.or_false, Bool.or_eq_false_iff, Bool.and_eq_false_iff, decide_eq_false_iff_not]
    omega
  rw [ofInt] at h
  split at h
  · rcases List.mem_cons.mp h with rfl | h
    · decide
    · exact hdigit (allDigits_ofNat _ c h)
  · exact hdigit (allDigits_ofNat _ c h)

end Number.Decimal

/-! ### Numerals -/

namespace Number.Numeral

theorem digitRun_of_allDigits {text : List Char} (h : Chars.AllDigits text) (afterDigit : Bool) :
    digitRun afterDigit text = (text.map fun c => c.toNat - '0'.toNat, []) := by
  induction text generalizing afterDigit with
  | nil => rfl
  | cons c text ih =>
    have hc : Chars.digitValue? c = some (c.toNat - '0'.toNat) :=
      if_pos (h c List.mem_cons_self)
    simp only [digitRun, hc, ih fun d hd => h d (List.mem_cons_of_mem _ hd), List.map_cons]

theorem ofDigits_of_allDigits {text : List Char} (h : Chars.AllDigits text) :
    ofDigits (text.map fun c => c.toNat - '0'.toNat) = Chars.digitsValue text := by
  rw [Chars.digitsValue_eq_ofDigitChars h, ofDigits, List.foldl_map]
  rfl

/-- **A whole number is read back**, unless it is too long to be read. -/
theorem int_ofInt (n : Int) : int (Decimal.ofInt n) =
    if n.natAbs < Decimal.writableLimit then .ok n
    else .error (.tooLong (Decimal.ofNat n.natAbs).length) := by
  have htrim : Chars.trim isMargin (Decimal.ofInt n) = Decimal.ofInt n :=
    Chars.trim_eq_self fun c hc => by rw [isMargin, Decimal.isBlank_of_mem_ofInt hc, Bool.false_and]
  have hsign : splitSign (Decimal.ofInt n) = (decide (n < 0), Decimal.ofNat n.natAbs) := by
    by_cases hn : n < 0
    · rw [Decimal.ofInt, if_pos hn, decide_eq_true hn]
      rfl
    · rw [Decimal.ofInt, if_neg hn, decide_eq_false hn]
      -- A number without a sign begins with a digit.
      have hdigits := Decimal.allDigits_ofNat n.natAbs
      unfold splitSign
      split
      · rename_i rest htext
        exact absurd (hdigits '-' (htext ▸ List.mem_cons_self)) (by decide)
      · rename_i rest htext
        exact absurd (hdigits '+' (htext ▸ List.mem_cons_self)) (by decide)
      · rfl
  have hempty : ((Decimal.ofNat n.natAbs).map fun c => c.toNat - '0'.toNat).isEmpty = false := by
    rw [List.isEmpty_map, List.isEmpty_eq_false_iff]
    exact Decimal.ofNat_ne_nil _
  have hvalue : (if decide (n < 0) then -(n.natAbs : Int) else n.natAbs) = n := by
    simp only [decide_eq_true_eq]
    split <;> omega
  simp only [int, htrim, hsign, digitRun_of_allDigits (Decimal.allDigits_ofNat _), hempty,
    ofDigits_of_allDigits (Decimal.allDigits_ofNat _), Chars.digitsValue_ofNat, List.length_map,
    ← Decimal.length_ofNat_le_iff, hvalue]
  by_cases hread : (Decimal.ofNat n.natAbs).length ≤ Decimal.maxDigits
  · rw [if_pos hread, if_neg (by simp), if_neg (not_lt.mpr hread), if_neg (by simp)]
  · rw [if_neg hread, if_neg (by simp), if_pos (not_le.mp hread)]

end Number.Numeral

/-! ### Taking digits from the front -/

namespace Json

/-- The text does not begin with a digit. -/
def NoDigitAhead (text : List Char) : Prop :=
  ∀ c ∈ text.head?, c.isDigit = false

/-- Taking digits from the front takes exactly a run of digits. -/
theorem takeDigits_append {digits rest : List Char} (hd : Chars.AllDigits digits)
    (hr : NoDigitAhead rest) : takeDigits (digits ++ rest) = (digits, rest) := by
  induction digits with
  | nil =>
    cases rest with
    | nil => rfl
    | cons c rest => simp [takeDigits, hr c (by simp)]
  | cons c digits ih =>
    have hc : c.isDigit = true := hd c (by simp)
    have hrest := ih fun x hx => hd x (by simp [hx])
    simp only [takeDigits, Prod.mk.injEq] at hrest
    simp [takeDigits, hc, hrest]

end Json

end ShellAssist
