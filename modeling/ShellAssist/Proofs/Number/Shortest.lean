import ShellAssist.Proofs.Number.Nearest

namespace ShellAssist.Number

open Json (takeWhole takeFraction takeExponent takeDigits readNumber NoDigitAhead Taken)

/-!
# Shortest texts of doubles are read back

The shortest text of a finite double is chosen by trying digit counts from one up, and falls back to
all digits of its binary fraction. Either way the digits read back as the same double
(`Decimal.shortestDigits_reads`); what remains is the layout. A text in positional or exponent form
moves the decimal point, drops zeros at the end and fills in others, and `Double.ofDecimal_shift`
says that none of this changes the double.

* `Decimal.readNumber_shortest` — a finite double's text, behind its sign, is read as the double,
  and the reader stops right behind it.
-/

/-! ### Moving the decimal point -/

namespace Double

/-- Inside the range of sizes a decimal is the quotient that it writes. -/
theorem ofDecimal_eq_ofRatio (negative : Bool) {digits : Nat} {exponent : Int} (hd : 0 < digits)
    (hlo : -400 ≤ ((Decimal.ofNat digits).length : ℤ) + exponent)
    (hhi : ((Decimal.ofNat digits).length : ℤ) + exponent ≤ 400) :
    ofDecimal negative digits exponent
      = ofRatio negative (digits * 10 ^ exponent.toNat) (10 ^ (-exponent).toNat) := by
  have hlo' : ¬ ((Nat.toDigits 10 digits).length : ℤ) + exponent < -400 := not_lt.mpr hlo
  have hhi' : ¬ 400 < ((Nat.toDigits 10 digits).length : ℤ) + exponent := not_lt.mpr hhi
  by_cases he : exponent < 0
  · have h₁ : exponent.toNat = 0 := by omega
    have h₂ : (-exponent).toNat = exponent.natAbs := by omega
    simp [ofDecimal, hd.ne', hlo', hhi', he, h₁, h₂, pow10]
  · have h₂ : (-exponent).toNat = 0 := by omega
    simp [ofDecimal, hd.ne', hlo', hhi', he, h₂, pow10]

/-- Moving the decimal point and the exponent together changes nothing. -/
theorem ofDecimal_shift (negative : Bool) {digits : Nat} (hd : 0 < digits) (k : Nat)
    (exponent : Int) :
    ofDecimal negative (digits * 10 ^ k) (exponent - k) = ofDecimal negative digits exponent := by
  have hpos : 0 < digits * 10 ^ k := Nat.mul_pos hd (Nat.pow_pos (by decide))
  have hlen := Decimal.length_ofNat_mul_pow hd k
  -- Moving the point does not change the size, so both are too small, too large or neither.
  by_cases hlo : ((Decimal.ofNat digits).length : ℤ) + exponent < -400
  · have hlo' : ((Decimal.ofNat (digits * 10 ^ k)).length : ℤ) + (exponent - k) < -400 := by omega
    have h₁ : ((Nat.toDigits 10 digits).length : ℤ) + exponent < -400 := hlo
    have h₂ : ((Nat.toDigits 10 (digits * 10 ^ k)).length : ℤ) + (exponent - k) < -400 := hlo'
    simp [ofDecimal, h₁, h₂]
  by_cases hhi : 400 < ((Decimal.ofNat digits).length : ℤ) + exponent
  · have hhi' : 400 < ((Decimal.ofNat (digits * 10 ^ k)).length : ℤ) + (exponent - k) := by omega
    have h₁ : 400 < ((Nat.toDigits 10 digits).length : ℤ) + exponent := hhi
    have h₂ : 400 < ((Nat.toDigits 10 (digits * 10 ^ k)).length : ℤ) + (exponent - k) := hhi'
    have h₃ : ¬ ((Nat.toDigits 10 digits).length : ℤ) + exponent < -400 := hlo
    have h₄ : ¬ ((Nat.toDigits 10 (digits * 10 ^ k)).length : ℤ) + (exponent - k) < -400 := by
      omega
    simp [ofDecimal, h₁, h₂, h₃, h₄, hd.ne']
  rw [ofDecimal_eq_ofRatio negative hpos (by omega) (by omega),
    ofDecimal_eq_ofRatio negative hd (by omega) (by omega)]
  refine ofRatio_eq_of_cross negative (Nat.pow_pos (by decide)) (Nat.pow_pos (by decide)) ?_
  have hexp : k + (exponent - k).toNat + (-exponent).toNat
      = exponent.toNat + (-(exponent - k)).toNat := by omega
  calc digits * 10 ^ k * 10 ^ (exponent - k).toNat * 10 ^ (-exponent).toNat
      = digits * 10 ^ (k + (exponent - k).toNat + (-exponent).toNat) := by
        rw [Nat.pow_add, Nat.pow_add]; ring
    _ = digits * 10 ^ exponent.toNat * 10 ^ (-(exponent - k)).toNat := by
        rw [hexp, Nat.pow_add]; ring

/-- A finite double is below 2^1024. -/
theorem magnitude_lt {d : Double} {num den : Nat} (h : d.magnitude? = some (num, den)) :
    num < 2 ^ 1024 * den := by
  obtain ⟨mantissa, exponent, hparts, rfl, rfl⟩ := magnitude?_eq_some h
  have hnarrow := hparts.narrow
  have hhighest := hparts.highest
  have hle {a b : Nat} (h : a ≤ b) : 2 ^ a ≤ 2 ^ b := Nat.pow_le_pow_right (by decide) h
  -- Below the point the mantissa alone is small enough, above it the exponent is at most 971.
  unfold scaled pow2
  split
  · calc mantissa < 2 ^ 53 := hnarrow
      _ ≤ 2 ^ 1024 := hle (a := 53) (b := 1024) (by decide)
      _ ≤ 2 ^ 1024 * Nat.pow 2 exponent.natAbs :=
          Nat.le_mul_of_pos_right _ (Nat.pow_pos (by decide))
  · have hpow : 2 ^ exponent.toNat ≤ 2 ^ 971 := hle (b := 971) (by omega)
    have hbound (e : Nat) : mantissa * 2 ^ e < 2 ^ 53 * 2 ^ e :=
      Nat.mul_lt_mul_of_pos_right hnarrow (Nat.two_pow_pos e)
    calc mantissa * Nat.pow 2 exponent.toNat
        ≤ mantissa * 2 ^ 971 := Nat.mul_le_mul_left mantissa hpow
      _ < 2 ^ 53 * 2 ^ 971 := hbound 971
      _ = 2 ^ 1024 * 1 := by rw [← Nat.pow_add, Nat.mul_one]

/-- Only the zeros have the numerator zero. -/
theorem magnitudeBits_ne_zero {d : Double} {num den : Nat} (h : d.magnitude? = some (num, den))
    (hn : num ≠ 0) : d.magnitudeBits ≠ 0 := by
  obtain ⟨mantissa, exponent, hparts, rfl, -⟩ := magnitude?_eq_some h
  intro hzero
  have hmantissa : mantissa = 0 := by
    have hbits := hparts.bits_eq
    omega
  refine hn ?_
  unfold scaled
  split <;> simp [hmantissa]

end Double

namespace Decimal

/-! ### The chosen digits -/

/-- All digits of a binary fraction write its value. -/
theorem ofDecimal_exactDigits {d : Double} {num den : Nat} (h : d.magnitude? = some (num, den))
    (hn : 0 < num) :
    0 < (exactDigits num den).1 ∧
      Double.ofDecimal false (exactDigits num den).1 (exactDigits num den).2
        = Double.ofSignBits false d.magnitudeBits := by
  obtain ⟨k, hk, rfl⟩ := Double.magnitude_den h
  have hlog : (2 ^ k).log2 = k := Nat.log2_two_pow
  have hdigits : num * pow10 k / 2 ^ k = num * 5 ^ k := by
    rw [pow10, show Nat.pow 10 k = 5 ^ k * 2 ^ k by rw [← Nat.mul_pow]; rfl, ← Nat.mul_assoc]
    exact Nat.mul_div_cancel _ (Nat.pow_pos (by decide))
  have hpos : 0 < num * 5 ^ k := Nat.mul_pos hn (Nat.pow_pos (by decide))
  simp only [exactDigits, hlog, hdigits]
  refine ⟨hpos, ?_⟩
  -- The text is short enough above, since doubles are below 2^1024,
  have hupper : (ofNat (num * 5 ^ k)).length ≤ 400 + k := by
    refine (Nat.length_toDigits_le_iff (by decide) (by omega)).mpr ?_
    have hbase (e : Nat) (he : e ≠ 0) : (2 ^ 3) ^ e < 10 ^ e := Nat.pow_lt_pow_left (by decide) he
    have hbig : 2 ^ 1024 < 10 ^ 400 := by
      calc 2 ^ 1024 ≤ 2 ^ (3 * 400) := Nat.pow_le_pow_right (by decide) (by decide)
        _ = (2 ^ 3) ^ 400 := Nat.pow_mul 2 3 400
        _ < 10 ^ 400 := hbase 400 (by decide)
    calc num * 5 ^ k < 2 ^ 1024 * 2 ^ k * 5 ^ k :=
          Nat.mul_lt_mul_of_pos_right (Double.magnitude_lt h) (Nat.pow_pos (by decide))
      _ = 2 ^ 1024 * 10 ^ k := by rw [Nat.mul_assoc, ← Nat.mul_pow]
      _ ≤ 10 ^ 400 * 10 ^ k := Nat.mul_le_mul_right (10 ^ k) hbig.le
      _ = 10 ^ (400 + k) := by rw [Nat.pow_add]
  -- and below, since their denominators divide 2^1074.
  have hlower : k ≤ (ofNat (num * 5 ^ k)).length + 400 := by
    by_contra hshort
    have hlt : num * 5 ^ k < 10 ^ (k - 401) :=
      lt_of_lt_of_le (lt_pow_length_ofNat _) (Nat.pow_le_pow_right (by decide) (by omega))
    have hsplit : 5 ^ k = 5 ^ (k - 401) * 5 ^ 401 := by
      rw [← Nat.pow_add]
      congr 1
      omega
    have hfive : 2 ^ (k - 401) ≤ 5 ^ 401 := by
      calc 2 ^ (k - 401) ≤ 2 ^ (2 * 401) := Nat.pow_le_pow_right (by decide) (by omega)
        _ = 4 ^ 401 := by rw [Nat.pow_mul]
        _ ≤ 5 ^ 401 := Nat.pow_le_pow_left (by decide) _
    have hge : 10 ^ (k - 401) ≤ num * 5 ^ k := by
      calc 10 ^ (k - 401) = 5 ^ (k - 401) * 2 ^ (k - 401) := by rw [← Nat.mul_pow]
        _ ≤ 5 ^ (k - 401) * 5 ^ 401 := Nat.mul_le_mul_left _ hfive
        _ = 5 ^ k := hsplit.symm
        _ ≤ num * 5 ^ k := Nat.le_mul_of_pos_left _ hn
    exact absurd hlt (not_lt.mpr hge)
  rw [Double.ofDecimal_eq_ofRatio false hpos (by omega) (by omega),
    ← Double.ofRatio_magnitude h false]
  refine Double.ofRatio_eq_of_cross false (Nat.pow_pos (by decide)) (Nat.pow_pos (by decide)) ?_
  have hneg : (-(k : ℤ)).toNat = 0 := by omega
  rw [hneg, neg_neg, Int.toNat_natCast, Nat.pow_zero, Nat.mul_one, Nat.mul_assoc, ← Nat.mul_pow]

/-- Whatever neighbour is taken reads back as the target. -/
theorem neighbour?_reads {target : Double} {num den digits : Nat} {scale : Int}
    (h : neighbour? target num den scale = some digits) :
    Double.ofDecimal false digits scale = target := by
  unfold neighbour? at h
  split at h
  have hfound := List.find?_some h
  exact of_decide_eq_true hfound

/-- The chosen digits are positive and write the double's magnitude. -/
theorem shortestDigits_reads {d : Double} {num den : Nat} (h : d.magnitude? = some (num, den))
    (hn : 0 < num) {digits : Nat} {scale : Int}
    (hs : shortestDigits (Double.ofSignBits false d.magnitudeBits) num den = (digits, scale)) :
    0 < digits ∧
      Double.ofDecimal false digits scale = Double.ofSignBits false d.magnitudeBits := by
  unfold shortestDigits at hs
  dsimp only at hs
  cases hfound : (List.range 17).findSome? (fun n : Nat =>
      (neighbour? (Double.ofSignBits false d.magnitudeBits) num den
        (pointPlace num den - (n + 1 : Nat))).map (·, pointPlace num den - (n + 1 : Nat))) with
  | none =>
    -- No count up to 17 reads back: all digits are written.
    rw [hfound, Option.getD_none] at hs
    have hexact := ofDecimal_exactDigits h hn
    rwa [hs] at hexact
  | some found =>
    rw [hfound, Option.getD_some] at hs
    subst hs
    obtain ⟨n, -, hsome⟩ := List.exists_of_findSome?_eq_some hfound
    obtain ⟨chosen, hneighbour, hpair⟩ := Option.map_eq_some_iff.mp hsome
    obtain ⟨rfl, rfl⟩ := Prod.mk.inj hpair
    -- Zero digits would read back as zero, which the double is not.
    have hreads := neighbour?_reads hneighbour
    refine ⟨Nat.pos_of_ne_zero fun hzero => ?_, hreads⟩
    have hbits := Double.magnitudeBits_ofSignBits false (Double.magnitudeBits_lt d)
    rw [← hreads, hzero] at hbits
    exact Double.magnitudeBits_ne_zero h hn.ne' (by rw [← hbits]; rfl)

/-! ### Zeros at the end -/

/-- Only zeros are left out at the end. -/
theorem significant_append_zeros (digits : List Char) :
    ∃ k, digits = significant digits ++ List.replicate k '0' := by
  have hzeros : digits.reverse.takeWhile (· = '0')
      = List.replicate (digits.reverse.takeWhile (· = '0')).length '0' :=
    List.eq_replicate_of_mem fun c hc =>
      of_decide_eq_true (List.all_eq_true.mp List.all_takeWhile c hc)
  refine ⟨(digits.reverse.takeWhile (· = '0')).length, ?_⟩
  calc digits
      = (digits.reverse.takeWhile (· = '0') ++ digits.reverse.dropWhile (· = '0')).reverse := by
        rw [List.takeWhile_append_dropWhile, List.reverse_reverse]
    _ = _ := by
        rw [List.reverse_append, hzeros, List.reverse_replicate, List.length_replicate]
        rfl

/-- The significant digits of a positive number, with how many zeros are left out behind them. -/
theorem significant_ofNat {n : Nat} (hn : 0 < n) :
    ∃ c more k, significant (ofNat n) = c :: more ∧ c ≠ '0' ∧ Chars.AllDigits (c :: more) ∧
      (ofNat n).length = (c :: more).length + k ∧ n = Chars.digitsValue (c :: more) * 10 ^ k := by
  obtain ⟨k, hk⟩ := significant_append_zeros (ofNat n)
  obtain ⟨c, rest, hhead, hc⟩ := ofNat_head_ne_zero hn
  -- A number above zero does not begin with a zero, so a digit is left in front of them.
  cases hsig : significant (ofNat n) with
  | nil =>
    rw [hsig, hhead, List.nil_append] at hk
    have hmem : c ∈ List.replicate k '0' := hk ▸ List.mem_cons_self
    exact absurd (List.eq_of_mem_replicate hmem) hc
  | cons d more =>
    rw [hsig] at hk
    have hd : c = d := (List.cons.inj (hhead.symm.trans hk)).1
    have hall : Chars.AllDigits (d :: more) := fun x hx =>
      allDigits_ofNat n x (hk ▸ List.mem_append_left _ hx)
    refine ⟨d, more, k, rfl, hd ▸ hc, hall, ?_, ?_⟩
    · rw [hk, List.length_append, List.length_replicate]
    · rw [← Chars.digitsValue_append_zeros hall, ← hk, Chars.digitsValue_ofNat]

/-! ### Reading the parts of a number -/

/-- What may stand behind a value: nothing, or what ends an item or a member. -/
def Ends (rest : List Char) : Prop :=
  ∀ c ∈ rest.head?, c = ',' ∨ c = ']' ∨ c = '\x7d'

theorem Ends.noDigitAhead {rest : List Char} (h : Ends rest) : NoDigitAhead rest := by
  intro c hc
  rcases h c hc with rfl | rfl | rfl <;> decide

theorem noDigitAhead_cons {c : Char} {rest : List Char} (h : c.isDigit = false) :
    NoDigitAhead (c :: rest) := by
  intro d hd
  simp only [List.head?_cons, Option.mem_def, Option.some.injEq] at hd
  exact hd ▸ h

/-- Digits that do not begin with a zero are taken as a whole part. -/
theorem takeWhole_append {c : Char} {more rest : List Char} (hc : c ≠ '0')
    (hd : Chars.AllDigits (c :: more)) (hr : NoDigitAhead rest) :
    takeWhole (c :: more ++ rest) = (c :: more, rest) := by
  rw [← Json.takeDigits_append hd hr]
  unfold takeWhole
  split
  · rename_i tail heq
    exact absurd (List.cons.inj heq).1 hc
  · rfl

theorem takeFraction_append {c : Char} {more rest : List Char} (hd : Chars.AllDigits (c :: more))
    (hr : NoDigitAhead rest) : takeFraction ('.' :: (c :: more ++ rest)) = (c :: more, rest) := by
  simp only [takeFraction, Json.takeDigits_append hd hr]

theorem takeFraction_of_head {rest : List Char} (h : ∀ c ∈ rest.head?, c ≠ '.') :
    takeFraction rest = ([], rest) := by
  unfold takeFraction
  split
  · exact absurd rfl (h '.' (by simp))
  · rfl

theorem takeExponent_of_ends {rest : List Char} (h : Ends rest) :
    takeExponent rest = (none, rest) := by
  cases rest with
  | nil => rfl
  | cons c rest =>
    have hc : c ≠ 'e' ∧ c ≠ 'E' := by
      rcases h c (by simp) with rfl | rfl | rfl <;> decide
    simp [takeExponent, hc.1, hc.2]

/-- A signed exponent is taken with its value. -/
theorem takeExponent_append (exponent : Int) {rest : List Char} (hr : Ends rest) :
    takeExponent ('e' :: (if exponent < 0 then '-' else '+') ::
        (padLeft 2 (ofNat exponent.natAbs) ++ rest))
      = (some exponent, rest) := by
  -- The digits stand behind a sign and are filled up to two.
  have htake := Json.takeDigits_append (allDigits_padLeft 2 exponent.natAbs) hr.noDigitAhead
  have hvalue := digitsValue_padLeft 2 exponent.natAbs
  obtain ⟨c, more, hcons⟩ := List.exists_cons_of_ne_nil
    (show padLeft 2 (ofNat exponent.natAbs) ≠ [] from
      List.append_ne_nil_of_right_ne_nil _ (ofNat_ne_nil _))
  rw [hcons] at htake hvalue ⊢
  by_cases he : exponent < 0
  · simp only [takeExponent, he, if_true, Numeral.splitSign, htake, hvalue, decide_true,
      Bool.true_or]
    simp only [Prod.mk.injEq, Option.some.injEq, and_true]
    omega
  · simp only [takeExponent, he, if_false, Numeral.splitSign, htake, hvalue, decide_true,
      Bool.true_or, if_true, Bool.false_eq_true]
    simp only [Prod.mk.injEq, Option.some.injEq, and_true]
    omega

/-- A number whose parts are these, and that has a fraction or an exponent, is read as a double. -/
theorem readNumber_float {t body whole fraction rest₁ rest₂ rest₃ : List Char}
    {exponent : Option Int} (negative : Bool) (hw : takeWhole body = (whole, rest₁))
    (hf : takeFraction rest₁ = (fraction, rest₂)) (he : takeExponent rest₂ = (exponent, rest₃))
    (hne : whole ≠ []) (hpart : fraction ≠ [] ∨ exponent ≠ none) :
    readNumber t negative body = .ok ⟨.float (Double.ofDecimal negative
      (Chars.digitsValue (whole ++ fraction)) (exponent.getD 0 - fraction.length)), rest₃⟩ := by
  have hfloat : (fraction.isEmpty && exponent.isNone) = false := by
    rcases hpart with h | h
    · simp [h]
    · cases exponent <;> simp_all
  have hwhole : whole.isEmpty = false := by simp [hne]
  simp only [readNumber, hw, hf, he, hwhole, hfloat, Bool.false_eq_true, if_false]

/-! ### Reading a layout -/

/-- A text with only zeros before its digits is read as them at the decimal point. -/
theorem readNumber_below_one (negative : Bool) {c : Char} {more text rest : List Char} {point : Int}
    (hp : point ≤ 0) (hd : Chars.AllDigits (c :: more)) (hr : Ends rest) :
    readNumber text negative
        ('0' :: '.' :: (List.replicate point.natAbs '0' ++ c :: more ++ rest))
      = .ok ⟨.float (Double.ofDecimal negative (Chars.digitsValue (c :: more))
          (point - (c :: more).length)), rest⟩ := by
  have hfraction : Chars.AllDigits (List.replicate point.natAbs '0' ++ c :: more) :=
    (Chars.allDigits_replicate_zero _).append hd
  -- The zero before the point and those behind it change neither value nor size.
  have hvalue : Chars.digitsValue (['0'] ++ (List.replicate point.natAbs '0' ++ c :: more))
      = Chars.digitsValue (c :: more) := by
    rw [show ['0'] = List.replicate 1 '0' from rfl,
      Chars.digitsValue_zeros_append hfraction 1, Chars.digitsValue_zeros_append hd]
  have hlength : (0 : ℤ) - ((List.replicate point.natAbs '0' ++ c :: more).length : ℤ)
      = point - (c :: more).length := by
    rw [List.length_append, List.length_replicate]
    omega
  obtain ⟨f, fs, hcons⟩ := List.exists_cons_of_ne_nil
    (List.append_ne_nil_of_right_ne_nil (List.replicate point.natAbs '0') (List.cons_ne_nil c more))
  rw [hcons] at hfraction hvalue hlength ⊢
  have hwhole : takeWhole ('0' :: '.' :: (f :: fs ++ rest)) = (['0'], '.' :: (f :: fs ++ rest)) :=
    rfl
  have hread := readNumber_float (t := text) negative hwhole
    (takeFraction_append hfraction hr.noDigitAhead) (takeExponent_of_ends hr) (by simp)
    (.inl (by simp))
  rw [hvalue, Option.getD_none, hlength] at hread
  exact hread

/-- A text with all its digits before the decimal point, filled up with zeros, is read as them. -/
theorem readNumber_filled (negative : Bool) {c : Char} {more text rest : List Char} {point : Int}
    (hc : c ≠ '0') (hd : Chars.AllDigits (c :: more)) (hv : 0 < Chars.digitsValue (c :: more))
    (hp : 0 < point) (hlen : (c :: more).length ≤ point.toNat) (hr : Ends rest) :
    readNumber text negative (c :: more ++ List.replicate (point.toNat - (c :: more).length) '0'
        ++ ['.', '0'] ++ rest)
      = .ok ⟨.float (Double.ofDecimal negative (Chars.digitsValue (c :: more))
          (point - (c :: more).length)), rest⟩ := by
  -- The zeros filled in and the one behind the point multiply the digits by powers of ten.
  have hwhole : Chars.AllDigits
      (c :: (more ++ List.replicate (point.toNat - (c :: more).length) '0')) :=
    hd.append (Chars.allDigits_replicate_zero _)
  have hvalue : Chars.digitsValue
      (c :: (more ++ List.replicate (point.toNat - (c :: more).length) '0') ++ ['0'])
      = Chars.digitsValue (c :: more) * 10 ^ (point.toNat - (c :: more).length + 1) := by
    rw [← Chars.digitsValue_append_zeros hd, List.replicate_succ']
    simp
  rw [show c :: more ++ List.replicate (point.toNat - (c :: more).length) '0' ++ ['.', '0']
      ++ rest = c :: (more ++ List.replicate (point.toNat - (c :: more).length) '0')
        ++ '.' :: (['0'] ++ rest) by simp]
  have hzero : Chars.AllDigits ['0'] := Chars.allDigits_replicate_zero 1
  rw [readNumber_float negative (takeWhole_append hc hwhole (noDigitAhead_cons (by decide)))
    (takeFraction_append hzero hr.noDigitAhead)
    (takeExponent_of_ends hr) (by simp) (.inl (by simp)), hvalue,
    ← Double.ofDecimal_shift negative hv (point.toNat - (c :: more).length + 1)
      (point - (c :: more).length)]
  congr 4
  simp only [Option.getD_none, List.length_singleton]
  omega

/-- A text with its decimal point between its digits is read as them. -/
theorem readNumber_pointed (negative : Bool) {c f : Char} {more fs text rest : List Char}
    {point : Int} (hc : c ≠ '0') (hd : Chars.AllDigits (c :: more)) (hp : 0 < point)
    (hdrop : (c :: more).drop point.toNat = f :: fs) (hr : Ends rest) :
    readNumber text negative ((c :: more).take point.toNat ++ '.' :: (f :: fs ++ rest))
      = .ok ⟨.float (Double.ofDecimal negative (Chars.digitsValue (c :: more))
          (point - (c :: more).length)), rest⟩ := by
  have hlen : point.toNat < (c :: more).length := by
    by_contra hge
    rw [List.drop_eq_nil_of_le (not_lt.mp hge)] at hdrop
    exact absurd hdrop (by simp)
  -- Whole part and fraction together are the digits again.
  have hsplit : (c :: more).take point.toNat ++ f :: fs = c :: more := by
    rw [← hdrop, List.take_append_drop]
  have hwhole : (c :: more).take point.toNat = c :: more.take (point.toNat - 1) := by
    obtain ⟨n, hn⟩ : ∃ n, point.toNat = n + 1 := ⟨point.toNat - 1, by omega⟩
    rw [hn, List.take_succ_cons, Nat.add_sub_cancel]
  have hall : Chars.AllDigits (c :: more.take (point.toNat - 1)) := fun x hx =>
    hd x (List.mem_of_mem_take (hwhole ▸ hx))
  have hfraction : Chars.AllDigits (f :: fs) := fun x hx =>
    hd x (List.mem_of_mem_drop (hdrop ▸ hx))
  have hlengths := congrArg List.length hdrop
  rw [List.length_drop] at hlengths
  rw [hwhole] at hsplit ⊢
  rw [readNumber_float negative (takeWhole_append hc hall (noDigitAhead_cons (by decide)))
    (takeFraction_append hfraction hr.noDigitAhead) (takeExponent_of_ends hr) (by simp)
    (.inl (by simp)), hsplit]
  congr 4
  rw [Option.getD_none, ← hlengths]
  omega

/-- A positional text is read as its digits at its decimal point. -/
theorem readNumber_positional (negative : Bool) {c : Char} {more text rest : List Char}
    {point : Int} (hc : c ≠ '0') (hd : Chars.AllDigits (c :: more))
    (hv : 0 < Chars.digitsValue (c :: more)) (hr : Ends rest) :
    readNumber text negative (positional (c :: more) point ++ rest)
      = .ok ⟨.float (Double.ofDecimal negative (Chars.digitsValue (c :: more))
          (point - (c :: more).length)), rest⟩ := by
  -- The point stands before the digits, behind them or among them.
  by_cases hp : point ≤ 0
  · rw [positional, if_pos hp]
    exact readNumber_below_one negative hp hd hr
  · rw [positional, if_neg hp]
    cases hdrop : (c :: more).drop point.toNat with
    | nil =>
      have hlen : (c :: more).length ≤ point.toNat := List.drop_eq_nil_iff.mp hdrop
      simp only [hdrop, List.take_of_length_le hlen]
      exact readNumber_filled negative hc hd hv (by omega) hlen hr
    | cons f fs =>
      have hlen : point.toNat < (c :: more).length := by
        by_contra hge
        rw [List.drop_eq_nil_of_le (not_lt.mp hge)] at hdrop
        exact absurd hdrop (by simp)
      have hzeros : point.toNat - (c :: more).length = 0 := by omega
      simp only [hdrop, hzeros, List.replicate_zero, List.append_nil, List.append_assoc]
      exact readNumber_pointed negative hc hd (by omega) hdrop hr

/-- A text in exponent form is read as its digits at its decimal point. -/
theorem readNumber_scientific (negative : Bool) {c : Char} {more text rest : List Char}
    {point : Int} (hc : c ≠ '0') (hd : Chars.AllDigits (c :: more)) (hr : Ends rest) :
    readNumber text negative (scientific (c :: more) point ++ rest)
      = .ok ⟨.float (Double.ofDecimal negative (Chars.digitsValue (c :: more))
          (point - (c :: more).length)), rest⟩ := by
  have hfirst : Chars.AllDigits [c] := fun x hx => hd x (by simp_all)
  have hsuffix {tail : List Char} : NoDigitAhead ('e' :: tail) := noDigitAhead_cons (by decide)
  have hpoint {tail : List Char} : NoDigitAhead ('.' :: tail) := noDigitAhead_cons (by decide)
  have hexp := takeExponent_append (point - 1) hr
  -- A single digit has no point behind it.
  cases more with
  | nil =>
    have hbody : scientific [c] point ++ rest = [c] ++ 'e' ::
        (if point - 1 < 0 then '-' else '+') ::
          (padLeft 2 (ofNat (point - 1).natAbs) ++ rest) := by
      simp [scientific]
    rw [hbody, readNumber_float negative (takeWhole_append hc hfirst hsuffix)
      (takeFraction_of_head (by simp)) hexp (by simp) (.inr (by simp))]
    simp
  | cons f fs =>
    have hbody : scientific (c :: f :: fs) point ++ rest = [c] ++ '.' :: (f :: fs ++ 'e' ::
        (if point - 1 < 0 then '-' else '+') ::
          (padLeft 2 (ofNat (point - 1).natAbs) ++ rest)) := by
      simp [scientific]
    have hfraction : Chars.AllDigits (f :: fs) := fun x hx => hd x (List.mem_cons_of_mem _ hx)
    rw [hbody, readNumber_float negative (takeWhole_append hc hfirst hpoint)
      (takeFraction_append hfraction hsuffix) hexp (by simp) (.inl (by simp))]
    congr 4
    simp only [Option.getD_some, List.length_cons]
    push_cast
    ring

theorem scientific_head (c : Char) (more : List Char) (point : Int) :
    ∃ tail, scientific (c :: more) point = c :: tail :=
  ⟨_, rfl⟩

theorem positional_head {c : Char} {more : List Char} (point : Int)
    (hd : Chars.AllDigits (c :: more)) :
    ∃ first tail, positional (c :: more) point = first :: tail ∧ first.isDigit := by
  by_cases hp : point ≤ 0
  · exact ⟨'0', _, by rw [positional, if_pos hp], rfl⟩
  · obtain ⟨n, hn⟩ : ∃ n, point.toNat = n + 1 := ⟨point.toNat - 1, by omega⟩
    rw [positional, if_neg hp]
    simp only [hn, List.take_succ_cons]
    split
    · exact ⟨c, _, rfl, hd c List.mem_cons_self⟩
    · exact ⟨c, _, rfl, hd c List.mem_cons_self⟩

/-- **A finite double's text is read back.** Behind its sign stands a digit, and from there the
reader takes the text, no more and no less, as the double. -/
theorem readNumber_shortest (names : Names) {d : Double} {num den : Nat}
    (h : d.magnitude? = some (num, den)) :
    ∃ c more, shortest names d = sign d.isNegative ++ c :: more ∧ c.isDigit ∧
      ∀ text rest, Ends rest →
        readNumber text d.isNegative (c :: more ++ rest) = .ok ⟨.float d, rest⟩ := by
  by_cases hzero : num = 0
  · -- Zero is laid out on its own.
    have hbits : d.magnitudeBits = 0 := by
      have hratio := Double.ofRatio_magnitude h false
      rw [hzero] at hratio
      rw [← Double.magnitudeBits_ofSignBits false (Double.magnitudeBits_lt d), ← hratio]
      rfl
    refine ⟨'0', ['.', '0'], by simp only [shortest, h, hzero, if_true], rfl, ?_⟩
    intro text rest hr
    have hwhole : takeWhole ('0' :: '.' :: (['0'] ++ rest)) = (['0'], '.' :: (['0'] ++ rest)) := rfl
    have hfraction : Chars.AllDigits ['0'] := Chars.allDigits_replicate_zero 1
    have hread := readNumber_float (t := text) d.isNegative hwhole
      (takeFraction_append hfraction hr.noDigitAhead) (takeExponent_of_ends hr) (by simp)
      (.inl (by simp))
    calc readNumber text d.isNegative ('0' :: ['.', '0'] ++ rest)
        = .ok ⟨.float (Double.ofSignBits d.isNegative 0), rest⟩ := hread
      _ = .ok ⟨.float d, rest⟩ := by rw [← hbits, Double.eq_ofSignBits]
  · rcases hs : shortestDigits (Double.ofSignBits false d.magnitudeBits) num den with ⟨n, scale⟩
    obtain ⟨hn, hreads⟩ := shortestDigits_reads h (Nat.pos_of_ne_zero hzero) hs
    obtain ⟨c, more, k, hsig, hc, hd, hlen, hvalue⟩ := significant_ofNat hn
    have hpos : 0 < Chars.digitsValue (c :: more) := by
      refine Nat.pos_of_ne_zero fun hnone => ?_
      rw [hnone, Nat.zero_mul] at hvalue
      exact hn.ne' hvalue
    -- The digits that are left stand for the double at their own decimal point.
    have hdouble : Double.ofDecimal d.isNegative (Chars.digitsValue (c :: more))
        (((ofNat n).length : ℤ) + scale - (c :: more).length) = d := by
      rw [← Double.ofDecimal_shift d.isNegative hpos k, ← hvalue,
        show ((ofNat n).length : ℤ) + scale - (c :: more).length - k = scale by omega,
        Double.ofDecimal_of_unsigned (Double.magnitudeBits_lt d) hreads, Double.eq_ofSignBits]
    by_cases hpoint : -4 < ((ofNat n).length : ℤ) + scale ∧ ((ofNat n).length : ℤ) + scale ≤ 16
    · obtain ⟨first, tail, hbody, hfirst⟩ :=
        positional_head (((ofNat n).length : ℤ) + scale) hd
      refine ⟨first, tail, ?_, hfirst, fun text rest hr => ?_⟩
      · simp [shortest, h, hzero, hs, hsig, hpoint, hbody]
      · rw [← hbody, readNumber_positional d.isNegative hc hd hpos hr, hdouble]
    · obtain ⟨tail, hbody⟩ := scientific_head c more (((ofNat n).length : ℤ) + scale)
      refine ⟨c, tail, ?_, hd c List.mem_cons_self, fun text rest hr => ?_⟩
      · simp [shortest, h, hzero, hs, hsig, hpoint, hbody]
      · rw [← hbody, readNumber_scientific d.isNegative hc hd hr, hdouble]

end Decimal

end ShellAssist.Number
