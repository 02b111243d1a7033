/-!
# Times as they are written

A time is counted in seconds since the beginning of 1970, and nanoseconds within the second. It is
written as a date and a time of day in universal time; a fraction of a second takes three, six or
nine digits, as many as it needs.
-/

namespace SpoolTag

/-- A time. -/
structure Instant where
  seconds : Nat
  nanoseconds : Nat := 0
  deriving DecidableEq, Repr

namespace Instant

/-- A number in at least so many digits. -/
def padded (width n : Nat) : String :=
  let digits := Nat.toDigits 10 n
  String.ofList (List.replicate (width - digits.length) '0' ++ digits)

/-- Whether a year has a leap day. -/
def isLeap (year : Nat) : Bool := year % 4 = 0 && (year % 100 != 0 || year % 400 = 0)

/-- The lengths of the months of a year. -/
def monthLengths (year : Nat) : List Nat :=
  [31, if isLeap year then 29 else 28, 31, 30, 31, 30, 31, 31, 30, 31, 30, 31]

/-- The number of days in the years before the given one. -/
def daysBefore (year : Nat) : Nat :=
  let past := year - 1
  365 * year + past / 4 - past / 100 + past / 400

/-- The number of days before the year 1970. -/
def epoch : Nat := daysBefore 1970

/-- The month and the day of the month, both from one on, of a day of a year. -/
def monthAndDay (month day : Nat) : List Nat → Nat × Nat
  | [] => (month, day + 1)
  | length :: rest =>
    if day < length then (month, day + 1) else monthAndDay (month + 1) (day - length) rest

/-- The year, month and day of a day counted from the beginning of 1970. -/
def date (days : Nat) : Nat × Nat × Nat :=
  let all := days + epoch
  let guess := all * 400 / 146097
  let year := if daysBefore (guess + 1) ≤ all then guess + 1 else guess
  let year := if all < daysBefore year then year - 1 else year
  let (month, day) := monthAndDay 1 (all - daysBefore year) (monthLengths year)
  (year, month, day)

/-- The fraction of a second, after a point. -/
def fraction (nanoseconds : Nat) : String :=
  if nanoseconds = 0 then ""
  else if nanoseconds % 1000000 = 0 then "." ++ padded 3 (nanoseconds / 1000000)
  else if nanoseconds % 1000 = 0 then "." ++ padded 6 (nanoseconds / 1000)
  else "." ++ padded 9 nanoseconds

/-- The text of a time, with the given text after the second. -/
def shownWith (fraction : String) (t : Instant) : String :=
  let (year, month, day) := date (t.seconds / 86400)
  let rest := t.seconds % 86400
  padded 4 year ++ "-" ++ padded 2 month ++ "-" ++ padded 2 day ++ "T" ++
    padded 2 (rest / 3600) ++ ":" ++ padded 2 (rest / 60 % 60) ++ ":" ++ padded 2 (rest % 60) ++
    fraction ++ "Z"

def shown (t : Instant) : String := t.shownWith (fraction t.nanoseconds)

/-- The text of a time to the microsecond. -/
def shownMicro (t : Instant) : String := t.shownWith ("." ++ padded 6 (t.nanoseconds / 1000))

end Instant

end SpoolTag
