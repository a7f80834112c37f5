import ShellAssist.Number.Arithmetic
import ShellAssist.Time.Calendar

namespace ShellAssist.Time

/-!
# Ages

How long ago an instant was, in whole minutes, hours or days; beyond a week the date is given. All
instants are milliseconds since the start of 1970.
-/

open Number (Double)

/-- Milliseconds of a minute. -/
def minuteMillis : Int := 60000

/-- Milliseconds of an hour. -/
def hourMillis : Int := 3600000

/-- Milliseconds of a day. -/
def dayMillis : Int := 86400000

/-- Milliseconds of a week. -/
def weekMillis : Int := 604800000

/-- The age of an instant, with dates by the offset of a zone. One that lies in the future is no
minutes old. -/
def age (offset : Int → Int) (instant now : Int) : Except Failure String :=
  let passed := now - instant
  let units (n : Int) (unit : String) := String.ofList (Number.Decimal.ofInt n) ++ unit ++ " ago"
  if passed < hourMillis then .ok (units (max passed 0 / minuteMillis) "m")
  else if passed < dayMillis then .ok (units (passed / hourMillis) "h")
  else if passed < weekMillis then .ok (units (passed / dayMillis) "d")
  else (dateOfMillis offset instant).map Date.iso

/-- The milliseconds of a clock reading in seconds, cut to a whole number. -/
def millisOfClock (seconds : Double) : Except Failure Int :=
  let millis := seconds * 1000
  match millis.truncate? with
  | some n => .ok n
  | none => .error (if millis.isNaN then .wholeOfNaN else .wholeOfInfinity)

end ShellAssist.Time
