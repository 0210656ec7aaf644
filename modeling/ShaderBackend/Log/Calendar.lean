import ShaderBackend.Text.Hex
/-!
Points in time and their dates. Dates follow the Gregorian calendar in both directions; the year
before year one is year zero. All times are in the time zone of Greenwich. A point in time lies in
the years from -262143 to 262142, so that every one has a date that can be written.
-/
namespace ShaderBackend.Log

structure Date where
  year : Int
  /-- From 1 to 12. -/
  month : Nat
  /-- From 1. -/
  day : Nat
  deriving DecidableEq, Repr

/-- Date of a day counted from the first of January 1970. Years are counted from March, so that the
leap day is the last day of its year, within cycles of four hundred years, which are 146097 days. -/
def Date.ofDays (days : Int) : Date :=
  let shifted := days + 719468
  let cycle := Int.fdiv shifted 146097
  let dayOfCycle := (Int.fmod shifted 146097).toNat
  let yearOfCycle :=
    (dayOfCycle - dayOfCycle / 1460 + dayOfCycle / 36524 - dayOfCycle / 146096) / 365
  let dayOfYear := dayOfCycle - (365 * yearOfCycle + yearOfCycle / 4 - yearOfCycle / 100)
  let fromMarch := (5 * dayOfYear + 2) / 153
  let month := if fromMarch < 10 then fromMarch + 3 else fromMarch - 9
  let year := cycle * 400 + yearOfCycle + (if month ≤ 2 then 1 else 0)
  { year, month, day := dayOfYear - (153 * fromMarch + 2) / 5 + 1 }

/-- Four digits at least. A sign comes first outside the years with four digits. -/
def yearText (year : Int) : String :=
  if 0 ≤ year ∧ year ≤ 9999 then Text.decimalPadded 4 year.toNat
  else (if year < 0 then "-" else "+") ++ Text.decimalPadded 4 year.natAbs

/-- The first day that has points in time, counted from the first of January 1970: the first of
January -262143. -/
def firstDay : Int := -96465292

/-- The last day that has points in time: the last of December 262142. -/
def lastDay : Int := 95026236

def nanosecondsPerDay : Int := 86400000000000

/-- Nanoseconds since the beginning of 1970. -/
structure Timestamp where
  nanoseconds : Int
  firstDay_le : firstDay * nanosecondsPerDay ≤ nanoseconds
  lt_lastDay : nanoseconds < (lastDay + 1) * nanosecondsPerDay
  deriving DecidableEq, Repr

namespace Timestamp

/-- The beginning of 1970. -/
def epoch : Timestamp := ⟨0, by decide, by decide⟩

/-- The point in time so many seconds and nanoseconds after the beginning of 1970; `none` before the
first day and after the last. -/
def ofParts? (seconds : Int) (nanoseconds : Nat) : Option Timestamp :=
  let total := seconds * 1000000000 + nanoseconds
  if h : firstDay * nanosecondsPerDay ≤ total ∧ total < (lastDay + 1) * nanosecondsPerDay then
    some ⟨total, h.1, h.2⟩
  else none

/-- Date and time of day, down to the millisecond; what is left is cut off. -/
def render (t : Timestamp) : String :=
  let milliseconds := Int.fdiv t.nanoseconds 1000000
  let date := Date.ofDays (Int.fdiv milliseconds 86400000)
  let ofDay := (Int.fmod milliseconds 86400000).toNat
  yearText date.year ++ "-" ++ Text.decimalPadded 2 date.month
    ++ "-" ++ Text.decimalPadded 2 date.day
    ++ " " ++ Text.decimalPadded 2 (ofDay / 3600000)
    ++ ":" ++ Text.decimalPadded 2 (ofDay / 60000 % 60)
    ++ ":" ++ Text.decimalPadded 2 (ofDay / 1000 % 60)
    ++ "." ++ Text.decimalPadded 3 (ofDay % 1000)

end Timestamp
end ShaderBackend.Log
