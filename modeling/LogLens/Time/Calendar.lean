/-
The proleptic Gregorian calendar.

Days are counted from 1 January 1970.  Years are counted so that each begins on 1 March, which puts
the leap day at the end of the year; then the day of the year fixes the month by one formula.
-/
namespace LogLens

def isLeapYear (year : Int) : Bool :=
  year % 4 = 0 && (year % 100 ≠ 0 || year % 400 = 0)

def daysInMonth (year : Int) (month : Nat) : Nat :=
  match month with
  | 2 => if isLeapYear year then 29 else 28
  | 4 | 6 | 9 | 11 => 30
  | _ => 31

/-- A day of the calendar.  Only days that exist are built from year, month and day. -/
structure CalendarDate where
  year : Int
  month : Nat
  day : Nat
  deriving DecidableEq

namespace CalendarDate

def firstYear : Int := -262143
def lastYear : Int := 262142

/-- The day with the given number in its month, if the calendar has it and the year is one that can
be represented. -/
def of? (year : Int) (month day : Nat) : Option CalendarDate :=
  if firstYear ≤ year ∧ year ≤ lastYear ∧ 1 ≤ month ∧ month ≤ 12 ∧
      1 ≤ day ∧ day ≤ daysInMonth year month then
    some ⟨year, month, day⟩
  else none

/-- Days from 1 March of year 0 to the first of March of a year. -/
def daysBeforeMarch (year : Int) : Int :=
  365 * year + year / 4 - year / 100 + year / 400

/-- Days from 1 March to the first of the month that is `m` months later. -/
def daysBeforeMonth (m : Nat) : Nat :=
  (153 * m + 2) / 5

/-- The number of the day, counted from 1 January 1970. -/
def dayNumber (d : CalendarDate) : Int :=
  let early := d.month ≤ 2
  let year := if early then d.year - 1 else d.year
  let m := if early then d.month + 9 else d.month - 3
  daysBeforeMarch year + daysBeforeMonth m + (d.day - 1 : Nat) - 719468

/-- The date of a day number.  Four hundred years have 146097 days, a century in them 36524, four
years 1461; the last day of each of these periods is its leap day. -/
def ofDayNumber (n : Int) : CalendarDate :=
  let shifted := n + 719468
  let era := shifted / 146097
  let dayOfEra := (shifted % 146097).toNat
  let century := min 3 (dayOfEra / 36524)
  let dayOfCentury := dayOfEra - 36524 * century
  let quad := dayOfCentury / 1461
  let dayOfQuad := dayOfCentury - 1461 * quad
  let yearOfQuad := min 3 (dayOfQuad / 365)
  let dayOfYear := dayOfQuad - 365 * yearOfQuad
  let m := (5 * dayOfYear + 2) / 153
  let day := dayOfYear - daysBeforeMonth m + 1
  let year := 400 * era + 100 * century + 4 * quad + yearOfQuad
  if m < 10 then ⟨year, m + 3, day⟩ else ⟨year + 1, m - 9, day⟩

end CalendarDate
end LogLens
