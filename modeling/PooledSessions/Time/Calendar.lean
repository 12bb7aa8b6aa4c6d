/-!
# Dates and times of day

A time is a number of seconds since the beginning of the year 1970.  The calendar repeats itself after
400 years, and is counted here in years that begin in March, so that a leap day ends its year.
-/

namespace PooledSessions.Calendar

/-- How many days 400 years have. -/
def daysOfCycle : Nat := 146097

/-- How many days passed between the first of March before the year 0 and the beginning of 1970. -/
def daysBefore : Nat := 719468

/-- The year, month and day of the `n`th day since the beginning of 1970. -/
def date (n : Nat) : Nat × Nat × Nat :=
  let n := n + daysBefore
  let day := n % daysOfCycle
  let year := (day - day / 1460 + day / 36524 - day / 146096) / 365
  let dayOfYear := day - (365 * year + year / 4 - year / 100)
  let month := (5 * dayOfYear + 2) / 153
  let dayOfMonth := dayOfYear - (153 * month + 2) / 5 + 1
  let (month, later) := if month < 10 then (month + 3, 0) else (month - 9, 1)
  (n / daysOfCycle * 400 + year + later, month, dayOfMonth)

/-- A number with zeros in front, so that it has a number of digits at least. -/
def padded (digits n : Nat) : String :=
  let ds := Nat.toDigits 10 n
  String.ofList (List.replicate (digits - ds.length) '0' ++ ds)

/-- The stamp of a time and of the microseconds that have passed since. -/
def stamp (seconds micros : Nat) : String :=
  let (year, month, day) := date (seconds / 86400)
  let s := seconds % 86400
  padded 4 year ++ "-" ++ padded 2 month ++ "-" ++ padded 2 day ++ "T" ++ padded 2 (s / 3600) ++ ":"
    ++ padded 2 (s / 60 % 60) ++ ":" ++ padded 2 (s % 60) ++ "." ++ padded 6 micros ++ "Z"

end PooledSessions.Calendar
