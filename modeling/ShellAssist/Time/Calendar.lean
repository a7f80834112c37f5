import ShellAssist.Failure

namespace ShellAssist.Time

/-!
# Calendar dates

Dates of the proleptic Gregorian calendar from instants in milliseconds since the start of 1970. Only
the years 1 to 9999 have dates. The offset of a zone says by how many seconds local time is ahead of
universal time at an instant in seconds.
-/

open Number (Double)

/-- A day of the calendar. -/
structure Date where
  year : Int
  month : Nat
  day : Nat
  deriving DecidableEq, Repr

/-- The date a count of days after 1 January 1970. Eras of 400 years, counted from 1 March of year
0, hold 146097 days each; within a year from March on, months of 31 and 30 days alternate in groups
of five months with 153 days. -/
def Date.ofDays (days : Int) : Date :=
  let z := days + 719468
  let era := z / 146097
  let dayOfEra := z % 146097
  let yearOfEra := (dayOfEra - dayOfEra / 1460 + dayOfEra / 36524 - dayOfEra / 146096) / 365
  let dayOfYear := dayOfEra - (365 * yearOfEra + yearOfEra / 4 - yearOfEra / 100)
  let shifted := (5 * dayOfYear + 2) / 153
  let month := if shifted < 10 then shifted + 3 else shifted - 9
  { year := yearOfEra + era * 400 + if month ≤ 2 then 1 else 0
    month := month.toNat
    day := (dayOfYear - (153 * shifted + 2) / 5 + 1).toNat }

/-- The date as year, month and day with hyphens between. -/
def Date.iso (d : Date) : String :=
  let field (width n : Nat) := Number.Decimal.padLeft width (Number.Decimal.ofNat n)
  String.ofList (field 4 d.year.toNat ++ '-' :: field 2 d.month ++ '-' :: field 2 d.day)

/-- Seconds of a day. -/
def daySeconds : Int := 86400

/-- The microseconds of an instant given as a double of seconds. Its fraction is rounded, a half to
even, after the product with a million has been taken as a double. -/
def microseconds (instant : Double) : Except Failure Int :=
  match instant.magnitude? with
  | none => .error .instantOutOfRange
  | some (num, den) =>
    let fraction := (Double.ofRatio false (num % den * 1000000) den).magnitude?
    let micros := num / den * 1000000 + (fraction.elim 0 fun (n, d) => Number.roundDiv n d)
    .ok (if instant.isNegative then -(micros : Int) else micros)

/-- Seconds beyond this do not fit the system's clock, nor do those below the negative of it. -/
def secondsLimit : Int := 0x8000000000000000

/-- Years from here on do not fit the system's calendar, nor do those below the negative of it. -/
def yearsLimit : Int := 0x80000000

/-- The date of an instant in seconds. Refuses seconds that do not fit the system's clock or whose
year does not fit its calendar. -/
def systemDate (offset : Int → Int) (seconds : Int) : Except Failure Date :=
  let date := Date.ofDays ((seconds + offset seconds) / daySeconds)
  let age := date.year - 1900
  if seconds < -secondsLimit || secondsLimit < seconds then .error .instantOutOfRange
  else if age < -yearsLimit || yearsLimit ≤ age then .error .calendarOverflow
  else .ok date

/-- The date of an instant in seconds, for the years that the calendar has. -/
def dateAt (offset : Int → Int) (seconds : Int) : Except Failure Date := do
  let date ← systemDate offset seconds
  if date.year < 1 || 9999 < date.year then .error (.yearOutOfRange (date.year.bmod 0x100000000))
  else .ok date

/-- The date of an instant in seconds on a wall clock. A clock that was put back shows a time twice;
to see whether it was, the day before is looked at and, if so, the same time before it was. -/
def wallDate (offset : Int → Int) (seconds : Int) : Except Failure Date := do
  let date ← dateAt offset seconds
  let before := seconds - daySeconds
  let _ ← dateAt offset before
  let putBack := offset before - offset seconds
  if 0 < putBack then
    let _ ← dateAt offset (seconds - putBack)
  return date

/-- The date of an instant in milliseconds; the seconds are a double. -/
def dateOfMillis (offset : Int → Int) (millis : Int) : Except Failure Date :=
  match Double.quotient? millis 1000 with
  | none => .error .quotientTooLarge
  | some instant => do wallDate offset ((← microseconds instant) / 1000000)

/-! ### Instants -/

/-- A number with at least the given count of digits. -/
def digits (width : Nat) (n : Int) : String :=
  String.ofList (Number.Decimal.padLeft width (Number.Decimal.ofNat n.toNat))

/-- The time of day of an instant in seconds, with colons between hours, minutes and seconds. -/
def timeOfDay (seconds : Int) : String :=
  let passed := seconds % daySeconds
  digits 2 (passed / 3600) ++ ":" ++ digits 2 (passed / 60 % 60) ++ ":" ++ digits 2 (passed % 60)

/-- An instant in microseconds as date and time, universal, and offset; a fraction of a second is given if there is
one. -/
def instant (micros : Int) : Except Failure String := do
  let date ← dateAt (fun _ => 0) (micros / 1000000)
  let fraction := micros % 1000000
  return date.iso ++ "T" ++ timeOfDay (micros / 1000000) ++
    (if fraction = 0 then "" else "." ++ digits 6 fraction) ++ "+00:00"

end ShellAssist.Time
