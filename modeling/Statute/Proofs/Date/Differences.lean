/-
This file proves that the differences of dates in days, months and years fit together.
-/

import Mathlib.Algebra.Order.Group.Int
import Mathlib.Algebra.Order.Ring.Int
import Mathlib.Algebra.Order.SuccPred
import Mathlib.Data.Int.ConditionallyCompleteOrder
import Mathlib.Data.Prod.Lex
import Mathlib.Tactic.SplitIfs
import Statute.Evaluation.Operation
import Statute.Proofs.Date.Order

namespace Statute

/-- The number of days of a year. -/
def yearLength (year : Int) : Nat :=
  if isLeapYear year then 366 else 365

/-- No two leap years follow each other. -/
theorem isLeapYear_succ {year : Int} (leap : isLeapYear year = true) :
    isLeapYear (year + 1) = false := by
  simp only [isLeapYear, Bool.and_eq_true, Bool.or_eq_true, bne_iff_ne, beq_iff_eq] at leap
  simp only [isLeapYear, Bool.and_eq_false_iff, beq_eq_false_iff_ne]
  omega

/-- The lengths of a month in different years differ by the leap day at most. -/
theorem monthLength_le_succ (year other : Int) (month : Nat) :
    monthLength year month ≤ monthLength other month + 1 := by
  unfold monthLength
  split
  · split <;> split <;> omega
  · omega

namespace Date

theorem daysBeforeYear_succ (year : Int) :
    daysBeforeYear (year + 1) = daysBeforeYear year + yearLength year := by
  unfold yearLength
  split
  case isTrue leap =>
    simp only [isLeapYear, Bool.and_eq_true, Bool.or_eq_true, bne_iff_ne, beq_iff_eq] at leap
    simp only [daysBeforeYear]
    omega
  case isFalse common =>
    simp only [isLeapYear, Bool.and_eq_true, Bool.or_eq_true, bne_iff_ne, beq_iff_eq] at common
    simp only [daysBeforeYear]
    omega

theorem daysBeforeYear_mono : Monotone daysBeforeYear :=
  monotone_int_of_le_succ fun year => by
    rw [daysBeforeYear_succ]
    omega

theorem daysBeforeMonth_succ (year : Int) {month : Nat} (first : 1 ≤ month) :
    daysBeforeMonth year (month + 1) = daysBeforeMonth year month + monthLength year month := by
  obtain ⟨before, rfl⟩ := Nat.exists_eq_add_of_le' first
  simp [daysBeforeMonth, List.range_succ]

/-- A month ends before a later month starts. -/
theorem daysBeforeMonth_le (year : Int) {month later : Nat} (first : 1 ≤ month)
    (before : month < later) :
    daysBeforeMonth year month + monthLength year month ≤ daysBeforeMonth year later := by
  induction later, before using Nat.le_induction with
  | base => rw [daysBeforeMonth_succ year first]
  | succ later reached inductionHypothesis =>
      rw [daysBeforeMonth_succ year (by omega)]
      omega

/-- The leap days of a year in front of a month. -/
def leapDays (year : Int) (month : Nat) : Nat :=
  if isLeapYear year = true ∧ 2 < month then 1 else 0

/-- Only leap years have a leap day in front of a month. -/
theorem leapDays_le (year : Int) (month : Nat) : leapDays year month + 365 ≤ yearLength year := by
  unfold leapDays yearLength
  split_ifs <;> simp_all

/-- After a leap year comes a common one. -/
theorem leapDays_succ_le (year : Int) (month : Nat) :
    leapDays (year + 1) month + yearLength year ≤ 366 := by
  have oneLeap := @isLeapYear_succ year
  unfold leapDays yearLength
  split_ifs <;> simp_all

/-- The months after February start a day later in leap years. -/
theorem daysBeforeMonth_eq (year : Int) {month : Nat} (first : 1 ≤ month) :
    daysBeforeMonth year month = daysBeforeMonth 1 month + leapDays year month := by
  induction month, first using Nat.le_induction with
  | base => simp [daysBeforeMonth, leapDays]
  | succ month first inductionHypothesis =>
      have longer : monthLength year month + leapDays year month =
          monthLength 1 month + leapDays year (month + 1) := by
        have common : isLeapYear 1 = false := rfl
        simp only [monthLength, leapDays, common, Bool.false_eq_true, if_false]
        cases isLeapYear year
        · simp
        · simp only [if_true, true_and]
          split_ifs <;> omega
      rw [daysBeforeMonth_succ year first, daysBeforeMonth_succ 1 first, inductionHypothesis]
      omega

/-- The number of the day that a date has in another year. In common years the leap day counts as the day
after February. -/
def dayNumberIn (year : Int) (date : Date) : Int :=
  daysBeforeYear year + daysBeforeMonth year date.month + date.day

theorem dayNumberIn_year (date : Date) : date.dayNumberIn date.year = date.dayNumber :=
  rfl

theorem day_le (date : Date) (year : Int) : date.day ≤ monthLength year date.month + 1 :=
  date.dayInMonth.2.trans (monthLength_le_succ date.year year date.month)

theorem daysBeforeMonth_twelve (year : Int) : daysBeforeMonth year 12 + 31 = yearLength year := by
  have common : daysBeforeMonth 1 12 = 334 := rfl
  rw [daysBeforeMonth_eq year (by decide), common]
  unfold leapDays yearLength
  split <;> simp_all

/-- The day of a date lies in the year that it is taken in. -/
theorem dayNumberIn_inYear (year : Int) (date : Date) :
    daysBeforeYear year < date.dayNumberIn year ∧ date.dayNumberIn year ≤ daysBeforeYear (year + 1) := by
  have atLeastOne := date.dayInMonth.1
  refine ⟨by unfold dayNumberIn; omega, ?_⟩
  have whole := daysBeforeMonth_twelve year
  have inside : daysBeforeMonth year date.month + date.day ≤ yearLength year := by
    have inYear := date.monthInYear
    rcases Nat.lt_or_eq_of_le inYear.2 with earlier | last
    · have ends := daysBeforeMonth_le year inYear.1 earlier
      have short := date.day_le year
      omega
    · have december : monthLength date.year 12 = 31 := rfl
      have short := date.dayInMonth.2
      rw [last] at short ⊢
      omega
  rw [daysBeforeYear_succ]
  unfold dayNumberIn
  omega

/-- From a year to the next the day of a date moves by the length of one year. -/
theorem dayNumberIn_succ (year : Int) (date : Date) :
    date.dayNumberIn year + 365 ≤ date.dayNumberIn (year + 1) ∧
      date.dayNumberIn (year + 1) ≤ date.dayNumberIn year + 366 := by
  have moved := leapDays_le year date.month
  have later := leapDays_succ_le year date.month
  unfold dayNumberIn
  rw [daysBeforeYear_succ, daysBeforeMonth_eq year date.monthInYear.1,
    daysBeforeMonth_eq (year + 1) date.monthInYear.1]
  omega

/-- Over a row of years the day of a date moves by 365 to 366 days for each of them. -/
theorem dayNumberIn_add (year : Int) (years : Nat) (date : Date) :
    date.dayNumberIn year + 365 * years ≤ date.dayNumberIn (year + years) ∧
      date.dayNumberIn (year + years) ≤ date.dayNumberIn year + 366 * years := by
  induction years with
  | zero => simp
  | succ years inductionHypothesis =>
      have next := dayNumberIn_succ (year + years) date
      rw [Int.natCast_succ, ← add_assoc]
      omega

/-- Year, month and day, which are compared in this order. -/
def place (date : Date) : ℤ ×ₗ ℕ ×ₗ ℕ :=
  toLex (date.year, toLex (date.month, date.day))

/-- The same month and day some years later, whether there is such a date or not. -/
def placeAfter (years : Int) (date : Date) : ℤ ×ₗ ℕ ×ₗ ℕ :=
  toLex (date.year + years, toLex (date.month, date.day))

theorem placeAfter_zero (date : Date) : date.placeAfter 0 = date.place := by
  rw [placeAfter, add_zero, place]

theorem place_lt_placeAfter {date other : Date} {years : Int} :
    date.place < other.placeAfter years ↔ date.year < other.year + years ∨
      date.year = other.year + years ∧ (date.month < other.month ∨
        date.month = other.month ∧ date.day < other.day) := by
  simp only [place, placeAfter, Prod.Lex.toLex_lt_toLex]

theorem place_lt_place {date other : Date} : date.place < other.place ↔ date < other := by
  rw [← placeAfter_zero other, place_lt_placeAfter, add_zero, ← isBefore_iff_lt, isBefore_iff]

/-- A day in front of an anniversary has a smaller number. -/
theorem dayNumber_lt {date other : Date} {years : Int} (before : date.place < other.placeAfter years) :
    date.dayNumber < other.dayNumberIn (other.year + years) := by
  rw [← dayNumberIn_year]
  rcases place_lt_placeAfter.mp before with earlierYear | ⟨sameYear, earlierDay⟩
  · have ends := (dayNumberIn_inYear date.year date).2
    have starts := (dayNumberIn_inYear (other.year + years) other).1
    have between := daysBeforeYear_mono (show date.year + 1 ≤ other.year + years by omega)
    omega
  · rw [← sameYear]
    unfold dayNumberIn
    rcases earlierDay with earlierMonth | ⟨sameMonth, earlier⟩
    · have ends := daysBeforeMonth_le date.year date.monthInYear.1 earlierMonth
      have short := date.dayInMonth.2
      have starts := other.dayInMonth.1
      omega
    · rw [sameMonth]
      omega

/-- A day that has reached an anniversary has at least its number. -/
theorem le_dayNumber {date other : Date} {years : Int} (reached : other.placeAfter years ≤ date.place) :
    other.dayNumberIn (other.year + years) ≤ date.dayNumber := by
  rw [← dayNumberIn_year]
  have notBefore := not_or.mp (place_lt_placeAfter.not.mp (not_lt.mpr reached))
  by_cases sameYear : date.year = other.year + years
  · rw [← sameYear]
    unfold dayNumberIn
    by_cases sameMonth : date.month = other.month
    · rw [sameMonth]
      omega
    · have ends := daysBeforeMonth_le date.year other.monthInYear.1
        (show other.month < date.month by omega)
      have short := other.day_le date.year
      have starts := date.dayInMonth.1
      omega
  · have ends := (dayNumberIn_inYear (other.year + years) other).2
    have starts := (dayNumberIn_inYear date.year date).1
    have between := daysBeforeYear_mono (show other.year + years + 1 ≤ date.year by omega)
    omega

/-- Later dates have larger numbers. -/
theorem dayNumber_strictMono : StrictMono dayNumber := by
  intro date other before
  have numbers := @dayNumber_lt date other 0 (by rwa [placeAfter_zero, place_lt_place])
  rwa [add_zero, dayNumberIn_year] at numbers

theorem isEarlierInYear_iff {date other : Date} :
    date.isEarlierInYear other = true ↔
      date.month < other.month ∨ date.month = other.month ∧ date.day < other.day := by
  simp [isEarlierInYear]

/-- So many years are completed when the anniversary is reached. -/
theorem le_yearsSince_iff {date earlier : Date} {years : Int} :
    years ≤ date.yearsSince earlier ↔ earlier.placeAfter years ≤ date.place := by
  rw [← not_lt, ← not_lt, not_iff_not, place_lt_placeAfter, yearsSince]
  split
  case isTrue isEarlier =>
    rw [isEarlierInYear_iff] at isEarlier
    omega
  case isFalse isLater =>
    rw [isEarlierInYear_iff] at isLater
    omega

theorem placeAfter_mono (years : Int) : Monotone (placeAfter years) := by
  intro date other atMost
  rw [← not_lt, ← isBefore_iff_lt, isBefore_iff] at atMost
  rw [← not_lt]
  simp only [placeAfter, Prod.Lex.toLex_lt_toLex]
  omega

theorem place_le_place {date other : Date} : date.place ≤ other.place ↔ date ≤ other := by
  rw [← not_lt, place_lt_place, not_lt]

/-- Years count twelve months each, and less than a year is left. -/
theorem monthsSince_bounds (date earlier : Date) :
    12 * date.yearsSince earlier ≤ date.monthsSince earlier ∧
      date.monthsSince earlier ≤ 12 * date.yearsSince earlier + 12 := by
  have months := date.monthInYear
  have earlierMonths := earlier.monthInYear
  rw [yearsSince, monthsSince]
  split
  case isTrue isEarlier =>
    rw [isEarlierInYear_iff] at isEarlier
    omega
  case isFalse isLater =>
    rw [isEarlierInYear_iff] at isLater
    omega

/-- The days lie between those of the anniversary that is reached and those of the next one. -/
theorem daysSince_bounds {date earlier : Date} (atMost : earlier ≤ date) :
    365 * date.yearsSince earlier ≤ date.daysSince earlier ∧
      date.daysSince earlier ≤ 366 * (date.yearsSince earlier + 1) := by
  have completed : 0 ≤ date.yearsSince earlier := by
    rw [le_yearsSince_iff, placeAfter_zero, place_le_place]
    exact atMost
  obtain ⟨years, isYears⟩ := Int.eq_ofNat_of_zero_le completed
  have reached := le_dayNumber (le_yearsSince_iff.mp (Int.le_of_eq isYears.symm))
  have notNext : date.place < earlier.placeAfter ((years + 1 : Nat) : Int) := by
    rw [← not_le, ← le_yearsSince_iff]
    omega
  have before := dayNumber_lt notNext
  have least := (dayNumberIn_add earlier.year years earlier).1
  have most := (dayNumberIn_add earlier.year (years + 1) earlier).2
  rw [dayNumberIn_year] at least most
  rw [isYears, daysSince]
  omega

/-- All days are less than a hundred million days from the first day of year one. -/
theorem dayNumber_bounds (date : Date) :
    -100000000 < date.dayNumber ∧ date.dayNumber < 100000000 := by
  have inYear := dayNumberIn_inYear date.year date
  have starts := daysBeforeYear_mono date.yearInReach.1
  have ends := daysBeforeYear_mono (Int.add_le_add_right date.yearInReach.2 1)
  have first : daysBeforeYear firstYear = -95746130 := by decide
  have last : daysBeforeYear (lastYear + 1) = 95745399 := by decide
  rw [dayNumberIn_year] at inYear
  omega

theorem year_bounds (date : Date) : -262143 ≤ date.year ∧ date.year ≤ 262142 :=
  date.yearInReach

/-- No difference leaves the range of integers. -/
theorem toInt_difference (unit : String) (date earlier : Date) :
    (Int64.ofInt (Operator.difference unit date earlier)).toInt =
      Operator.difference unit date earlier := by
  have days := date.dayNumber_bounds
  have earlierDays := earlier.dayNumber_bounds
  have completed := monthsSince_bounds date earlier
  have years := date.year_bounds
  have earlierYears := earlier.year_bounds
  have months := date.monthInYear
  have earlierMonths := earlier.monthInYear
  have small : (Operator.difference unit date earlier).natAbs < 200000000 := by
    unfold Operator.difference
    split_ifs
    · unfold daysSince
      omega
    · unfold monthsSince
      omega
    · unfold monthsSince at *
      omega
    · decide
  refine Int64.toInt_ofInt_of_le ?_ ?_ <;> omega

/-- The days between dates add up and are positive from an earlier date to a later one. The completed years
are those of the last anniversary that is reached, so they grow with the later date and fall with the
earlier one. Both fit to the months, and no difference is too large for an integer. -/
theorem differences_agree (date earlier other : Date) :
    date.daysSince earlier + earlier.daysSince other = date.daysSince other ∧
    (0 < date.daysSince earlier ↔ earlier < date) ∧
    (∀ years, earlier.placeAfter years ≤ date.place ∧ date.place < earlier.placeAfter (years + 1) ↔
      years = date.yearsSince earlier) ∧
    Monotone (fun later : Date => later.yearsSince earlier) ∧ Antitone date.yearsSince ∧
    (date.yearsSince earlier < 0 ↔ date < earlier) ∧
    (earlier ≤ date →
      12 * date.yearsSince earlier ≤ date.monthsSince earlier ∧
      date.monthsSince earlier ≤ 12 * date.yearsSince earlier + 12 ∧
      365 * date.yearsSince earlier ≤ date.daysSince earlier ∧
      date.daysSince earlier ≤ 366 * (date.yearsSince earlier + 1)) ∧
    ∀ unit, (Int64.ofInt (Operator.difference unit date earlier)).toInt =
      Operator.difference unit date earlier := by
  refine ⟨?days, ?after, fun years => ?unique, fun first later atMost => ?grows,
    fun first later atMost => ?falls, ?negative, fun atMost => ?together,
    fun unit => toInt_difference unit date earlier⟩
  case days =>
    unfold daysSince
    omega
  case after =>
    rw [daysSince, ← dayNumber_strictMono.lt_iff_lt]
    omega
  case unique =>
    rw [← not_le, ← le_yearsSince_iff, ← le_yearsSince_iff]
    omega
  case grows =>
    exact le_yearsSince_iff.mpr
      ((le_yearsSince_iff.mp le_rfl).trans (place_le_place.mpr atMost))
  case falls =>
    exact le_yearsSince_iff.mpr
      ((placeAfter_mono _ atMost).trans (le_yearsSince_iff.mp le_rfl))
  case negative =>
    rw [← not_le, le_yearsSince_iff, placeAfter_zero, not_le, place_lt_place]
  case together =>
    obtain ⟨leastMonths, mostMonths⟩ := monthsSince_bounds date earlier
    exact ⟨leastMonths, mostMonths, daysSince_bounds atMost⟩

/-- A birthday that most years do not have. -/
def leapBirthday : Date :=
  (of? 2000 2 29).get (by decide)

/-- The last day of the first February after it. -/
def februaryEnd : Date :=
  (of? 2001 2 28).get (by decide)

/-- At the end of the next February twelve months and 365 days are over, but no year is completed. -/
theorem differences_agree_leapBirthday :
    leapBirthday ≤ februaryEnd ∧ februaryEnd.yearsSince leapBirthday = 0 ∧
    12 * 0 ≤ februaryEnd.monthsSince leapBirthday ∧
    februaryEnd.monthsSince leapBirthday = 12 * 0 + 12 ∧
    365 * 0 ≤ februaryEnd.daysSince leapBirthday ∧
    februaryEnd.daysSince leapBirthday ≤ 366 * (0 + 1) := by
  have atMost : leapBirthday ≤ februaryEnd := by decide
  have completed : februaryEnd.yearsSince leapBirthday = 0 := by decide
  have whole : februaryEnd.monthsSince leapBirthday = 12 * 0 + 12 := by decide
  obtain ⟨-, -, -, -, -, -, together, -⟩ := differences_agree februaryEnd leapBirthday leapBirthday
  obtain ⟨leastMonths, -, days⟩ := together atMost
  rw [completed] at leastMonths days
  exact ⟨atMost, completed, leastMonths, whole, days⟩

end Date

end Statute
