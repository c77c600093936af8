/-!
# Calendar dates

The date of a day in the Gregorian calendar, extended in both directions, and the
text of dates and times of day. Days are counted from 1970-01-01. The calendar
repeats every 400 years, which are 146097 days; within such an era, years are
taken to begin on March 1, so that a leap day ends its year.
-/

namespace TimeSeries.Calendar

/-- **Date** in the extended Gregorian calendar. -/
structure Date : Type where
  /-- the year; the year before 1 is 0 -/
  year : Int
  /-- the month, from 1 -/
  month : Nat
  /-- the day of the month, from 1 -/
  day : Nat
  deriving DecidableEq, Repr

/-- The date of a day, counted from 1970-01-01. -/
def Date.ofDay (n : Int) : Date :=
  -- days since the March 1 that began the era of the year 0
  let shifted := n + 719468
  let era := shifted.fdiv 146097
  let dayOfEra := (shifted.fmod 146097).toNat
  let yearOfEra :=
    (dayOfEra - dayOfEra / 1460 + dayOfEra / 36524 - dayOfEra / 146096) / 365
  let dayOfYear := dayOfEra - (365 * yearOfEra + yearOfEra / 4 - yearOfEra / 100)
  let marchMonth := (5 * dayOfYear + 2) / 153
  let month := if marchMonth < 10 then marchMonth + 3 else marchMonth - 9
  { year := era * 400 + yearOfEra + (if month ≤ 2 then 1 else 0)
    month
    day := dayOfYear - (153 * marchMonth + 2) / 5 + 1 }

/-- A number with leading zeros up to a width. -/
def padded (width n : Nat) : List Char :=
  let digits := Nat.toDigits 10 n
  List.replicate (width - digits.length) '0' ++ digits

/-- The text of a year: four digits, and a sign if the year is negative or needs
more than four. -/
def yearText (year : Int) : List Char :=
  if 0 ≤ year ∧ year ≤ 9999 then padded 4 year.toNat
  else (if year < 0 then '-' else '+') :: padded 4 year.natAbs

/-- The text of a date, as in `2024-01-02`. -/
def Date.text (d : Date) : List Char :=
  yearText d.year ++ '-' :: (padded 2 d.month ++ '-' :: padded 2 d.day)

/-- The text of a fraction of a second: nothing for zero, else the fewest of
three, six and nine digits that show all of it. -/
def fractionText (nanos : Nat) : List Char :=
  if nanos = 0 then []
  else if nanos % 1000000 = 0 then '.' :: padded 3 (nanos / 1000000)
  else if nanos % 1000 = 0 then '.' :: padded 6 (nanos / 1000)
  else '.' :: padded 9 nanos

end TimeSeries.Calendar
