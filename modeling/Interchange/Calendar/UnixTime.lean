import Interchange.Calendar.DateTime

/-!
# Unix time

Unix time counts the seconds of universal time since the start of 1970 and has no leap
seconds. Days are turned into dates by eras of 400 years, each of which has the same number of
days; years are counted from March, so that the leap day is the last day of its year.
-/

namespace Interchange

/-- The days of 400 years. -/
def daysPerEra : Int := 146097

/-- The days from the first of March of year 0 to the start of 1970. -/
def daysBeforeUnix : Int := 719468

/-- Year, month and day, the given number of days after the first of March of year 0. -/
def dateOfDays (days : Int) : Int × Nat × Nat :=
  let era := days / daysPerEra
  let day := (days % daysPerEra).toNat
  let year := (day - day / 1460 + day / 36524 - day / 146096) / 365
  let dayOfYear := day - (365 * year + year / 4 - year / 100)
  let month := (5 * dayOfYear + 2) / 153
  let dayOfMonth := dayOfYear - (153 * month + 2) / 5 + 1
  if month < 10 then (era * 400 + year, month + 3, dayOfMonth)
  else (era * 400 + year + 1, month - 9, dayOfMonth)

/-- The moment of a Unix time, if the calendar reaches that far. -/
def DateTime.ofUnix? (seconds : Int) : Option DateTime :=
  let (year, month, day) := dateOfDays (seconds / 86400 + daysBeforeUnix)
  let second := (seconds % 86400).toNat
  DateTime.ofFields? year month day (second / 3600) (second % 3600 / 60) (second % 60) 0

end Interchange
