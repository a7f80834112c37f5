import ShellAssist.Proofs.Failure
import ShellAssist.Proofs.Number.Monotone
import ShellAssist.Proofs.Number.Order
import ShellAssist.Time.Age

namespace ShellAssist.Time

/-!
# Instants that have a date

A wall clock gives dates while it shows a year from 1 to 9999, and has done so the day before: for a
clock that shows universal time, from the second of January of the year 1 to the end of the year 9999.
An instant in milliseconds is taken as a double of seconds first, which does not move it over either
end: that rounding and the one to microseconds keep the order, so the instants next to the ends decide.

* `Date.year_ofDays` — the years of a count of days;
* `OnWallClock`, `exists_wallDate_iff` — the seconds that have a date in a zone;
* `HasDate`, `exists_dateOfMillis_iff` — the milliseconds that have a date in a zone;
* `hasDate_universal_iff` — those that have a date in universal time;
* `exists_age_iff` — the instants whose age can be told.
-/

open Number

/-! ### The calendar -/

/-- The years of an era begin on 1 January, 306 days behind the first of March that the era begins
with. -/
theorem Date.year_ofDays (days : Int) : ∃ era dayOfEra : Int,
    days + 719468 = 146097 * era + dayOfEra ∧ 0 ≤ dayOfEra ∧ dayOfEra < 146097 ∧
      era * 400 ≤ (Date.ofDays days).year ∧ (Date.ofDays days).year ≤ era * 400 + 400 ∧
      ((Date.ofDays days).year = era * 400 ↔ dayOfEra < 306) ∧
      ((Date.ofDays days).year = era * 400 + 400 ↔ 146037 ≤ dayOfEra) := by
  -- The days are counted from the first of March of the year zero, in eras of 400 years.
  let z := days + 719468
  let era := z / 146097
  let dayOfEra := z % 146097
  let yearOfEra := (dayOfEra - dayOfEra / 1460 + dayOfEra / 36524 - dayOfEra / 146096) / 365
  let dayOfYear := dayOfEra - (365 * yearOfEra + yearOfEra / 4 - yearOfEra / 100)
  let shifted := (5 * dayOfYear + 2) / 153
  have hyear : (Date.ofDays days).year = yearOfEra + era * 400
      + if (if shifted < 10 then shifted + 3 else shifted - 9) ≤ 2 then 1 else 0 := rfl
  have hday : 0 ≤ dayOfEra ∧ dayOfEra < 146097 := by omega
  have hrange : 0 ≤ yearOfEra ∧ yearOfEra ≤ 399 := by omega
  -- Only the first and the last year of an era can reach its ends.
  have hfirst : yearOfEra = 0 → dayOfYear = dayOfEra ∧ dayOfEra ≤ 365 := by omega
  have hearly : dayOfEra < 306 → yearOfEra = 0 := by omega
  have hlast : yearOfEra = 399 → dayOfYear = dayOfEra - 145731 ∧ 145731 ≤ dayOfEra := by omega
  have hlate : 146037 ≤ dayOfEra → yearOfEra = 399 := by omega
  have hshifted : (shifted < 10 ↔ dayOfYear < 306) ∧ (0 ≤ dayOfYear → 0 ≤ shifted) ∧
      (dayOfYear ≤ 366 → shifted ≤ 11) := by omega
  refine ⟨era, dayOfEra, by omega, hday.1, hday.2, ?_⟩
  rw [hyear]
  clear_value shifted dayOfYear yearOfEra dayOfEra era
  split_ifs <;> omega

/-- The year 1 begins 719162 days before 1970. -/
theorem Date.one_le_year_ofDays (days : Int) : 1 ≤ (Date.ofDays days).year ↔ -719162 ≤ days := by
  obtain ⟨era, dayOfEra, hdays, hlow, hhigh, hfrom, hto, hfirst, -⟩ := Date.year_ofDays days
  omega

/-- The year 9999 ends 2932896 days behind the first of 1970. -/
theorem Date.year_ofDays_le (days : Int) : (Date.ofDays days).year ≤ 9999 ↔ days ≤ 2932896 := by
  obtain ⟨era, dayOfEra, hdays, hlow, hhigh, hfrom, hto, -, hlast⟩ := Date.year_ofDays days
  omega

/-- The clock of a zone shows a year from 1 to 9999 at an instant in seconds, which the system's clock
can hold. -/
def InCalendar (offset : Int → Int) (seconds : Int) : Prop :=
  (-secondsLimit ≤ seconds ∧ seconds ≤ secondsLimit) ∧
    -62135596800 ≤ seconds + offset seconds ∧ seconds + offset seconds ≤ 253402300799

/-- An instant within the calendar is within the ranges of the system. -/
theorem exists_dateAt_iff (offset : Int → Int) (seconds : Int) :
    (∃ date, dateAt offset seconds = .ok date) ↔ InCalendar offset seconds := by
  have hlow := Date.one_le_year_ofDays ((seconds + offset seconds) / daySeconds)
  have hhigh := Date.year_ofDays_le ((seconds + offset seconds) / daySeconds)
  rw [show daySeconds = 86400 from rfl] at hlow hhigh
  unfold dateAt systemDate InCalendar
  rw [show daySeconds = 86400 from rfl, show secondsLimit = 0x8000000000000000 from rfl,
    show yearsLimit = 0x80000000 from rfl]
  -- The seconds and the year they fall in are tested one after the other.
  generalize seconds + offset seconds = shown at hlow hhigh ⊢
  generalize (Date.ofDays (shown / 86400)) = date at hlow hhigh ⊢
  dsimp only
  constructor
  · rintro ⟨date', h⟩
    split at h
    · cases h
    · rename_i hseconds
      simp only [Bool.or_eq_true, decide_eq_true_eq, not_or, not_lt] at hseconds
      split at h
      · cases h
      · simp only [bind, Except.bind] at h
        split at h
        · cases h
        · rename_i hyear
          simp only [Bool.or_eq_true, decide_eq_true_eq] at hyear
          omega
  · intro h
    refine ⟨date, ?_⟩
    have hyear : 1 ≤ date.year ∧ date.year ≤ 9999 := by omega
    rw [if_neg (by simp only [Bool.or_eq_true, decide_eq_true_eq]; omega),
      if_neg (by simp only [Bool.or_eq_true, decide_eq_true_eq]; omega)]
    show (if _ then _ else _) = _
    rw [if_neg (by simp only [Bool.or_eq_true, decide_eq_true_eq]; omega)]

/-- The wall clock of a zone shows a year of the calendar at an instant in seconds, did so a day before,
and, if it was put back meanwhile, when it showed the same time before that. -/
def OnWallClock (offset : Int → Int) (seconds : Int) : Prop :=
  let putBack := offset (seconds - daySeconds) - offset seconds
  InCalendar offset seconds ∧ InCalendar offset (seconds - daySeconds) ∧
    (0 < putBack → InCalendar offset (seconds - putBack))

/-- **The seconds that have a date in a zone.** -/
theorem exists_wallDate_iff (offset : Int → Int) (seconds : Int) :
    (∃ date, wallDate offset seconds = .ok date) ↔ OnWallClock offset seconds := by
  unfold wallDate OnWallClock
  dsimp only
  simp only [← exists_dateAt_iff]
  constructor
  · rintro ⟨date, h⟩
    obtain ⟨date', hdate, h⟩ := bind_ok_iff.mp h
    obtain ⟨before, hbefore, h⟩ := bind_ok_iff.mp h
    -- The third date is only looked up where the clock was set back.
    refine ⟨⟨date', hdate⟩, ⟨before, hbefore⟩, fun hback => ?_⟩
    rw [if_pos hback] at h
    obtain ⟨again, hagain, -⟩ := bind_ok_iff.mp h
    exact ⟨again, hagain⟩
  · rintro ⟨⟨date, hdate⟩, ⟨before, hbefore⟩, hagain⟩
    refine ⟨date, bind_ok_iff.mpr ⟨date, hdate, bind_ok_iff.mpr ⟨before, hbefore, ?_⟩⟩⟩
    split
    · rename_i hback
      obtain ⟨again, hagain⟩ := hagain hback
      exact bind_ok_iff.mpr ⟨again, hagain, rfl⟩
    · rfl

/-- Universal time is never put back, so only the year and that of the day before matter. -/
theorem onWallClock_universal_iff (seconds : Int) : OnWallClock (fun _ => 0) seconds ↔
    -62135510400 ≤ seconds ∧ seconds ≤ 253402300799 := by
  unfold OnWallClock InCalendar
  rw [show daySeconds = 86400 from rfl, show secondsLimit = 0x8000000000000000 from rfl]
  dsimp only
  omega

/-! ### Milliseconds -/

/-- The microseconds of a quotient of seconds. -/
def microsOf (num den : Nat) : Nat :=
  num / den * 1000000 +
    (Double.ofRatio false (num % den * 1000000) den).magnitude?.elim 0 fun (n, d) => roundDiv n d

section Micros

variable {num den n₁ d₁ n₂ d₂ : Nat}

/-- The microseconds of a finite double are those of its quotient. -/
theorem microseconds_eq {d : Double} (h : d.magnitude? = some (num, den)) :
    microseconds d
      = .ok (if d.isNegative then -(microsOf num den : Int) else microsOf num den) := by
  rw [microseconds, h]
  rfl

/-- A double below infinity is a quotient. -/
theorem exists_magnitude {d : Double} (h : d.magnitudeBits < Double.infinityBits) :
    ∃ num den, d.magnitude? = some (num, den) := by
  rw [Double.magnitude?, if_pos h]
  exact ⟨_, _, rfl⟩

/-- The rest of a second is finite and at most a second. -/
theorem exists_fraction (num : Nat) (hd : 0 < den) : ∃ n d, 0 < d ∧ n ≤ 1000000 * d ∧
    (Double.ofRatio false (num % den * 1000000) den).magnitude? = some (n, d) := by
  have hle : num % den * 1000000 * 1 ≤ 1000000 * den := by
    have := Nat.mod_lt num hd
    omega
  have hbits := Double.magnitudeBits_ofRatio_le false false hd Nat.one_pos hle
  have hsecond : (Double.ofRatio false 1000000 1).magnitude? = some (8589934592000000, 8589934592) := by
    decide
  have hfinite : (Double.ofRatio false 1000000 1).magnitudeBits < Double.infinityBits := by
    decide
  obtain ⟨n, d, hmagnitude⟩ := exists_magnitude (lt_of_le_of_lt hbits hfinite)
  have hcross := Double.magnitude_le hmagnitude hsecond hbits
  exact ⟨n, d, Double.magnitude_den_pos hmagnitude, by omega, hmagnitude⟩

/-- Taking microseconds keeps the order: whole seconds decide, and where they are the same the fractions
are rounded in order. -/
theorem microsOf_le_microsOf (h₁ : 0 < d₁) (h₂ : 0 < d₂) (h : n₁ * d₂ ≤ n₂ * d₁) :
    microsOf n₁ d₁ ≤ microsOf n₂ d₂ := by
  obtain ⟨f₁, g₁, hg₁, hle₁, hfraction₁⟩ := exists_fraction n₁ h₁
  obtain ⟨f₂, g₂, hg₂, hle₂, hfraction₂⟩ := exists_fraction n₂ h₂
  simp only [microsOf, hfraction₁, hfraction₂, Option.elim_some]
  rcases Nat.lt_or_eq_of_le (div_le_div_of_cross h₁ h₂ h) with hlt | heq
  · have := roundDiv_le hg₁ hle₁
    omega
  · have hrest := mod_cross_of_div_eq h heq
    have hbits := Double.magnitudeBits_ofRatio_le false false h₁ h₂
      (show n₁ % d₁ * 1000000 * d₂ ≤ n₂ % d₂ * 1000000 * d₁ by nlinarith)
    have := roundDiv_le_roundDiv hg₁ hg₂ (Double.magnitude_le hfraction₁ hfraction₂ hbits)
    omega

end Micros

/-- The microseconds of a number of milliseconds, as they come out by way of a double of seconds. -/
def microsOfMillis (millis : Nat) : Option Nat :=
  (Double.ofRatio false millis 1000).magnitude?.map fun (num, den) => microsOf num den

/-- So does taking them by way of a double of seconds. -/
theorem microsOfMillis_le {n m a b : Nat} (h : n ≤ m) (ha : microsOfMillis n = some a)
    (hb : microsOfMillis m = some b) : a ≤ b := by
  obtain ⟨⟨n₁, d₁⟩, hn, rfl⟩ := Option.map_eq_some_iff.mp ha
  obtain ⟨⟨n₂, d₂⟩, hm, rfl⟩ := Option.map_eq_some_iff.mp hb
  have hbits := Double.magnitudeBits_ofRatio_le false false (show 0 < 1000 by decide)
    (show 0 < 1000 by decide) (Nat.mul_le_mul_right 1000 h)
  exact microsOf_le_microsOf (Double.magnitude_den_pos hn) (Double.magnitude_den_pos hm)
    (Double.magnitude_le hn hm hbits)

/-- What is less than a finite number of milliseconds is finite. -/
theorem exists_microsOfMillis {n m b : Nat} (h : n ≤ m) (hb : microsOfMillis m = some b) :
    ∃ a, microsOfMillis n = some a := by
  obtain ⟨⟨n₂, d₂⟩, hm, -⟩ := Option.map_eq_some_iff.mp hb
  have hbits := Double.magnitudeBits_ofRatio_le false false (show 0 < 1000 by decide)
    (show 0 < 1000 by decide) (Nat.mul_le_mul_right 1000 h)
  have hfinite : (Double.ofRatio false m 1000).magnitudeBits < Double.infinityBits := by
    by_contra hnot
    rw [Double.magnitude?, if_neg hnot] at hm
    cases hm
  obtain ⟨n₁, d₁, hn⟩ := exists_magnitude (lt_of_le_of_lt hbits hfinite)
  exact ⟨microsOf n₁ d₁, by rw [microsOfMillis, hn, Option.map_some]⟩

/-- The whole seconds of a number of milliseconds, cut from the microseconds. -/
def secondsOfMillis (millis : Int) : Option Int :=
  (microsOfMillis millis.natAbs).map fun micros : Nat =>
    (if millis < 0 then -(micros : Int) else micros) / 1000000

/-- A date is that of the microseconds, cut to seconds. -/
theorem dateOfMillis_eq (offset : Int → Int) (millis : Int) : dateOfMillis offset millis =
    match secondsOfMillis millis with
    | none => .error .quotientTooLarge
    | some seconds => wallDate offset seconds := by
  obtain ⟨bits, hbits, hsign⟩ := Double.ofRatio_sign millis.natAbs 1000
  have hlt : bits < Double.signBit := lt_of_le_of_lt hbits Double.infinityBits_lt_signBit
  have hmagnitude (negative : Bool) :
      (Double.ofRatio negative millis.natAbs 1000).magnitudeBits = bits := by
    rw [hsign, Double.magnitudeBits_ofSignBits negative hlt]
  have hvalue (negative : Bool) : (Double.ofRatio negative millis.natAbs 1000).magnitude?
      = (Double.ofRatio false millis.natAbs 1000).magnitude? := by
    rw [Double.magnitude?, Double.magnitude?, hmagnitude, hmagnitude]
  have hnegative (negative : Bool) :
      (Double.ofRatio negative millis.natAbs 1000).isNegative = negative := by
    rw [hsign, Double.isNegative_ofSignBits negative hlt]
  unfold dateOfMillis Double.quotient?
  dsimp only
  -- The quotient is a finite number, or too large to be one.
  rcases lt_or_eq_of_le hbits with hfinite | hinfinite
  · obtain ⟨num, den, hsome⟩ :=
      exists_magnitude (d := Double.ofRatio (decide (millis < 0)) millis.natAbs 1000)
        (by rw [hmagnitude]; exact hfinite)
    have hinfinite : (Double.ofRatio (decide (millis < 0)) millis.natAbs 1000).isInfinite = false := by
      rw [Double.isInfinite, hmagnitude]
      exact decide_eq_false hfinite.ne
    rw [secondsOfMillis, microsOfMillis, ← hvalue (decide (millis < 0)), hsome, hinfinite]
    simp only [Option.map_some, Bool.false_eq_true, if_false]
    rw [microseconds_eq hsome, hnegative]
    simp only [decide_eq_true_eq]
    rfl
  · have hnone : (Double.ofRatio false millis.natAbs 1000).magnitude? = none := by
      rw [Double.magnitude?, hmagnitude, hinfinite, if_neg (lt_irrefl _)]
    have hinfinite : (Double.ofRatio (decide (millis < 0)) millis.natAbs 1000).isInfinite = true := by
      rw [Double.isInfinite, hmagnitude]
      exact decide_eq_true hinfinite
    rw [secondsOfMillis, microsOfMillis, hnone, hinfinite]
    rfl

/-- The whole seconds of an instant in milliseconds have a date in a zone. -/
def HasDate (offset : Int → Int) (millis : Int) : Prop :=
  ∃ seconds, secondsOfMillis millis = some seconds ∧ OnWallClock offset seconds

/-- **The milliseconds that have a date in a zone.** -/
theorem exists_dateOfMillis_iff (offset : Int → Int) (millis : Int) :
    (∃ date, dateOfMillis offset millis = .ok date) ↔ HasDate offset millis := by
  rw [dateOfMillis_eq, HasDate]
  cases secondsOfMillis millis with
  | none => exact iff_of_false (by rintro ⟨_, ⟨⟩⟩) (by rintro ⟨_, ⟨⟩, _⟩)
  | some seconds => simp only [Option.some.injEq, exists_eq_left', exists_wallDate_iff]

/-- **The milliseconds that have a date in universal time**: from the start of 2 January of the year 1 to
the end of the year 9999. -/
theorem hasDate_universal_iff (millis : Int) : HasDate (fun _ => 0) millis ↔
    -62135510400000 ≤ millis ∧ millis ≤ 253402300799999 := by
  -- The instants next to the ends, on either side.
  have hfirst : microsOfMillis 62135510400000 = some 62135510400000000 := by decide +kernel
  have hbefore : microsOfMillis 62135510400001 = some 62135510400000999 := by decide
  have hlast : microsOfMillis 253402300799999 = some 253402300799998993 := by decide
  have hbehind : microsOfMillis 253402300800000 = some 253402300800000000 := by decide +kernel
  simp only [HasDate, onWallClock_universal_iff, secondsOfMillis]
  constructor
  · rintro ⟨seconds, h, hrange⟩
    obtain ⟨micros, hmicros, rfl⟩ := Option.map_eq_some_iff.mp h
    by_contra hout
    by_cases hnegative : millis < 0
    · have := microsOfMillis_le (by omega) hbefore hmicros
      rw [if_pos hnegative] at hrange
      omega
    · have := microsOfMillis_le (by omega) hbehind hmicros
      rw [if_neg hnegative] at hrange
      omega
  · intro hin
    by_cases hnegative : millis < 0
    · obtain ⟨micros, hmicros⟩ := exists_microsOfMillis (by omega : millis.natAbs ≤ _) hfirst
      have := microsOfMillis_le (by omega) hmicros hfirst
      rw [hmicros]
      refine ⟨_, rfl, ?_⟩
      dsimp only
      rw [if_pos hnegative]
      omega
    · obtain ⟨micros, hmicros⟩ := exists_microsOfMillis (by omega : millis.natAbs ≤ _) hlast
      have := microsOfMillis_le (by omega) hmicros hlast
      rw [hmicros]
      refine ⟨_, rfl, ?_⟩
      dsimp only
      rw [if_neg hnegative]
      omega

/-- The age of an instant can be told if it is less than a week, or if the instant has a date. -/
theorem exists_age_iff (offset : Int → Int) (instant now : Int) :
    (∃ text, age offset instant now = .ok text) ↔
      now - instant < weekMillis ∨ HasDate offset instant := by
  rw [← exists_dateOfMillis_iff]
  have hhour : hourMillis < weekMillis := by decide
  have hday : dayMillis < weekMillis := by decide
  unfold age
  dsimp only
  split
  · exact ⟨fun _ => .inl (by omega), fun _ => ⟨_, rfl⟩⟩
  · split
    · exact ⟨fun _ => .inl (by omega), fun _ => ⟨_, rfl⟩⟩
    · split
      · exact ⟨fun _ => .inl (by omega), fun _ => ⟨_, rfl⟩⟩
      -- An age of a week or more is shown as a date, everything younger in words.
      · rename_i hweek
        rw [or_iff_right hweek]
        constructor
        · rintro ⟨text, h⟩
          obtain ⟨date, hdate, -⟩ := map_ok_iff.mp h
          exact ⟨date, hdate⟩
        · rintro ⟨date, hdate⟩
          exact ⟨date.iso, map_ok_iff.mpr ⟨date, hdate, rfl⟩⟩

end ShellAssist.Time
