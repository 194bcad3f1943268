/-
This file defines dates of the Gregorian calendar, extended to all years.
-/

namespace Statute

/-- Every fourth year is a leap year, except the centuries that are not multiples of 400. -/
def isLeapYear (year : Int) : Bool :=
  year % 4 == 0 && (year % 100 != 0 || year % 400 == 0)

/-- The number of days of a month. -/
def monthLength (year : Int) (month : Nat) : Nat :=
  if month = 2 then (if isLeapYear year then 29 else 28)
  else if month = 4 ∨ month = 6 ∨ month = 9 ∨ month = 11 then 30
  else 31

/-- The first year that dates reach. -/
def firstYear : Int := -262143

/-- The last year that dates reach. -/
def lastYear : Int := 262142

/-- A date is a day that its month has, in a year within reach. -/
structure Date where
  year : Int
  month : Nat
  day : Nat
  yearInReach : firstYear ≤ year ∧ year ≤ lastYear
  monthInYear : 1 ≤ month ∧ month ≤ 12
  dayInMonth : 1 ≤ day ∧ day ≤ monthLength year month
  deriving DecidableEq, Repr

namespace Date

/-- The date of the given numbers, if there is one. -/
def of? (year : Int) (month day : Nat) : Option Date :=
  if inReach : firstYear ≤ year ∧ year ≤ lastYear then
    if inYear : 1 ≤ month ∧ month ≤ 12 then
      if inMonth : 1 ≤ day ∧ day ≤ monthLength year month then
        some ⟨year, month, day, inReach, inYear, inMonth⟩
      else none
    else none
  else none

/-- The first of January of a year within reach. -/
def january (year : Int) (inReach : firstYear ≤ year ∧ year ≤ lastYear) : Date :=
  ⟨year, 1, 1, inReach, by decide, by simp [monthLength]⟩

instance : Inhabited Date := ⟨january 1970 (by decide)⟩

/-- The first of January of the same year. -/
def januaryFirst (date : Date) : Date :=
  january date.year date.yearInReach

/-- The first of January of the year before. The first year within reach has none, so a date in it
is left as it is. -/
def previousJanuaryFirst (date : Date) : Date :=
  if inReach : firstYear ≤ date.year - 1 ∧ date.year - 1 ≤ lastYear then
    january (date.year - 1) inReach
  else date

/-- The days of the months of a year before the given one. -/
def daysBeforeMonth (year : Int) (month : Nat) : Nat :=
  (List.range (month - 1)).foldl (fun days index => days + monthLength year (index + 1)) 0

/-- The days of all years from year one on, before the given year. -/
def daysBeforeYear (year : Int) : Int :=
  let past := year - 1
  365 * past + past / 4 - past / 100 + past / 400

/-- The count of days that orders all dates. -/
def dayNumber (date : Date) : Int :=
  daysBeforeYear date.year + daysBeforeMonth date.year date.month + date.day

/-- The days from an earlier date, which are negative if it is later. -/
def daysSince (date earlier : Date) : Int :=
  date.dayNumber - earlier.dayNumber

/-- The calendar months from an earlier date, whatever the days of the month. -/
def monthsSince (date earlier : Date) : Int :=
  (date.year - earlier.year) * 12 + ((date.month : Int) - earlier.month)

/-- True when the day in its year comes before that of the other date. -/
def isEarlierInYear (date other : Date) : Bool :=
  date.month < other.month || (date.month == other.month && date.day < other.day)

/-- The completed years from an earlier date. -/
def yearsSince (date earlier : Date) : Int :=
  let years := date.year - earlier.year
  if isEarlierInYear date earlier then years - 1 else years

/-- The order of dates in time. -/
def isBefore (date other : Date) : Bool :=
  date.year < other.year || (date.year == other.year && isEarlierInYear date other)

/-- The order of dates in time, or equality. -/
def isAtMost (date other : Date) : Bool :=
  !isBefore other date

/-- The next date, if it is within reach. -/
def next? (date : Date) : Option Date :=
  if date.day < monthLength date.year date.month then of? date.year date.month (date.day + 1)
  else if date.month < 12 then of? date.year (date.month + 1) 1
  else of? (date.year + 1) 1 1

/-- The date before, if it is within reach. -/
def previous? (date : Date) : Option Date :=
  if 1 < date.day then of? date.year date.month (date.day - 1)
  else if 1 < date.month then of? date.year (date.month - 1) (monthLength date.year (date.month - 1))
  else of? (date.year - 1) 12 31

end Date

end Statute
