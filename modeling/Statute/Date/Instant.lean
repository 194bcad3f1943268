/-
This file reads instants of universal time, and dates with or without a time behind them.
-/

import Statute.Date.Text
import Statute.Value.Basic

namespace Statute

/-- An instant of universal time. A leap second counts as a second whole second of nanoseconds. -/
structure Instant where
  date : Date
  second : Nat
  nanosecond : Nat
  deriving DecidableEq, Repr

namespace Instant

/-- A second has this many nanoseconds. -/
def nanosecondsPerSecond : Nat := 1000000000

/-- A day has this many seconds. -/
def secondsPerDay : Nat := 86400

/-- The hours, minutes, seconds and nanoseconds on a clock. -/
structure Clock where
  hour : Nat
  minute : Nat
  second : Nat
  nanosecond : Nat

/-- The instant of a local date and clock, at an offset in seconds from universal time. -/
def ofLocal? (date : Date) (clock : Clock) (offset : Int) : Option Instant :=
  if 23 < clock.hour ∨ 59 < clock.minute ∨ 60 < clock.second ∨
      (secondsPerDay : Int) ≤ offset.natAbs then
    none
  else
    let leap := clock.second = 60
    let second : Int :=
      clock.hour * 3600 + clock.minute * 60 + (if leap then 59 else clock.second) - offset
    let nanosecond := clock.nanosecond + if leap then nanosecondsPerSecond else 0
    if second < 0 then
      date.previous?.map fun previous => ⟨previous, (second + secondsPerDay).toNat, nanosecond⟩
    else if (secondsPerDay : Int) ≤ second then
      date.next?.map fun next => ⟨next, (second - secondsPerDay).toNat, nanosecond⟩
    else some ⟨date, second.toNat, nanosecond⟩

/-- The date and the time are separated by a letter or a space. -/
def readSeparator? : List Char → Option (List Char)
  | char :: rest => if char = 'T' ∨ char = 't' ∨ char = ' ' then some rest else none
  | [] => none

/-- Only the first nine digits of a fraction count. -/
def readFraction? : List Char → Option (Nat × List Char)
  | '.' :: rest =>
      (Date.readNumber? 1 9 rest).map fun (digits, after) =>
        (digits * Nat.pow 10 (9 - (rest.length - after.length)), after.dropWhile Char.isDigit)
  | rest => some (0, rest)

/-- Two digits of the hours of an offset, the marks behind them, and two digits of minutes. -/
def readOffsetSize? (skipMark? : List Char → Option (List Char)) (chars : List Char) :
    Option (Int × List Char) := do
  let (hours, afterHours) ← Date.readNumber? 2 2 chars
  let beforeMinutes ← skipMark? afterHours
  let (minutes, rest) ← Date.readNumber? 2 2 beforeMinutes
  guard (minutes ≤ 59)
  return ((hours * 3600 + minutes * 60 : Nat), rest)

/-- An offset from universal time is a letter or a sign with hours and minutes. -/
def readOffset? (skipMark? : List Char → Option (List Char)) : List Char → Option (Int × List Char)
  | [] => none
  | sign :: rest =>
      if sign = 'Z' ∨ sign = 'z' then some (0, rest)
      else if sign = '+' then readOffsetSize? skipMark? rest
      else if sign = '-' ∨ sign = '\u2212' then
        (readOffsetSize? skipMark? rest).map fun (size, after) => (-size, after)
      else none

/-- The strict form has fixed widths and no blanks. -/
def read? (text : String) : Option Instant := do
  let (year, afterYear) ← Date.readNumber? 4 4 text.toList
  let beforeMonth ← Date.readMark? '-' afterYear
  let (month, afterMonth) ← Date.readNumber? 2 2 beforeMonth
  let beforeDay ← Date.readMark? '-' afterMonth
  let (day, afterDay) ← Date.readNumber? 2 2 beforeDay
  let beforeHour ← readSeparator? afterDay
  let (hour, afterHour) ← Date.readNumber? 2 2 beforeHour
  let beforeMinute ← Date.readMark? ':' afterHour
  let (minute, afterMinute) ← Date.readNumber? 2 2 beforeMinute
  let beforeSecond ← Date.readMark? ':' afterMinute
  let (second, afterSecond) ← Date.readNumber? 2 2 beforeSecond
  let (nanosecond, afterFraction) ← readFraction? afterSecond
  let (offset, rest) ← readOffset? (Date.readMark? ':') afterFraction
  guard rest.isEmpty
  let date ← Date.of? year month day
  ofLocal? date ⟨hour, minute, second, nanosecond⟩ offset

/-- The hours and minutes of a loose offset are separated by any row of colons and blanks. -/
def skipColons (chars : List Char) : Option (List Char) :=
  some (chars.dropWhile fun char => char == ':' || Text.isBlank char)

/-- The name of universal time counts as no offset in the loose form. -/
def readLooseOffset? (chars : List Char) : Option (Int × List Char) :=
  if (chars.take 3).map Char.toUpper = ['U', 'T', 'C'] then some (0, chars.drop 3)
  else readOffset? skipColons chars

/-- The loose form allows blanks around the parts, short numbers and years with a sign. -/
def readLoose? (text : String) : Option Instant := do
  let skip (chars : List Char) := chars.dropWhile Text.isBlank
  let (date, afterDate) ← Date.readDate? true text.toList
  let beforeHour ← readSeparator? afterDate
  let (hour, afterHour) ← Date.readNumber? 1 2 (skip beforeHour)
  let beforeMinute ← Date.readMark? ':' (skip afterHour)
  let (minute, afterMinute) ← Date.readNumber? 1 2 (skip beforeMinute)
  let beforeSecond ← Date.readMark? ':' (skip afterMinute)
  let (second, afterSecond) ← Date.readNumber? 1 2 (skip beforeSecond)
  let (nanosecond, afterFraction) ← readFraction? afterSecond
  let (offset, rest) ← readLooseOffset? (skip afterFraction)
  guard (skip rest).isEmpty
  ofLocal? date ⟨hour, minute, second, nanosecond⟩ offset

/-- Hours, minutes and seconds. A leap second is the sixtieth second. -/
def clockText (instant : Instant) : String :=
  let leap := if nanosecondsPerSecond ≤ instant.nanosecond then 1 else 0
  paddedNumber 2 (instant.second / 3600) ++ ":" ++ paddedNumber 2 (instant.second / 60 % 60) ++ ":" ++
    paddedNumber 2 (instant.second % 60 + leap)

/-- The fraction has no, three, six or nine digits, as many as it needs. -/
def fractionText (instant : Instant) : String :=
  let nanosecond := instant.nanosecond % nanosecondsPerSecond
  if nanosecond = 0 then ""
  else if nanosecond % 1000000 = 0 then "." ++ paddedNumber 3 (nanosecond / 1000000)
  else if nanosecond % 1000 = 0 then "." ++ paddedNumber 6 (nanosecond / 1000)
  else "." ++ paddedNumber 9 nanosecond

/-- The instant to the second. -/
def text (instant : Instant) : String :=
  instant.date.text ++ "T" ++ instant.clockText ++ "Z"

/-- The instant with its fraction. -/
def fullText (instant : Instant) : String :=
  instant.date.text ++ "T" ++ instant.clockText ++ instant.fractionText ++ "Z"

end Instant

namespace Date

/-- A date stands alone or in front of a time, which is moved to universal time first. -/
def read? (text : String) : Option Date :=
  let trimmed := Text.trim text
  match readDate? false trimmed.toList with
  | some (date, []) => some date
  | _ => (Instant.read? trimmed).map Instant.date

/-- The date that a text writes. -/
def parse (text : String) : Except ValueError Date :=
  match read? text with
  | some date => .ok date
  | none => .error (.invalidDate text)

/-- The date that a value writes. Only strings are dates. -/
def ofValue : Value → Except ValueError Date
  | .string text => parse text
  | other => .error (.notADate other.typeName other.text)

/-- A date as the data of rules. -/
def toValue (date : Date) : Value :=
  .string date.text

end Date

end Statute
