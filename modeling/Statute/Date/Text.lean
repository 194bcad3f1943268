/-
This file writes dates and reads them.
-/

import Statute.Date.Basic
import Statute.Double.Decimal
import Statute.Text.Blank

namespace Statute

/-- A number in decimal digits, with zeros in front up to a width. -/
def paddedNumber (width number : Nat) : String :=
  let digits := Nat.toDigits 10 number
  String.ofList (List.replicate (width - digits.length) '0' ++ digits)

/-- A year has four digits, and a sign when it is negative or needs more digits. -/
def yearText (year : Int) : String :=
  if year < 0 then "-" ++ paddedNumber 4 year.natAbs
  else if 9999 < year then "+" ++ paddedNumber 4 year.natAbs
  else paddedNumber 4 year.natAbs

namespace Date

/-- Year, month and day. -/
def text (date : Date) : String :=
  yearText date.year ++ "-" ++ paddedNumber 2 date.month ++ "-" ++ paddedNumber 2 date.day

/-- A number of at least so many digits and at most so many. -/
def readNumber? (least most : Nat) (chars : List Char) : Option (Nat × List Char) :=
  let digits := (chars.take most).takeWhile Char.isDigit
  if digits.length < least then none
  else some (Double.digitsValue digits, chars.drop digits.length)

/-- A required character. -/
def readMark? (mark : Char) : List Char → Option (List Char)
  | char :: rest => if char = mark then some rest else none
  | [] => none

/-- A year has up to four digits, or a sign and any number of digits. -/
def readYear? : List Char → Option (Int × List Char)
  | '-' :: rest => (readNumber? 1 rest.length rest).map fun (year, after) => (-(year : Int), after)
  | '+' :: rest => (readNumber? 1 rest.length rest).map fun (year, after) => ((year : Int), after)
  | chars => (readNumber? 1 4 chars).map fun (year, after) => ((year : Int), after)

/-- Blanks may stand before each number, and with `loose` also before each separator. -/
def readDate? (loose : Bool) (chars : List Char) : Option (Date × List Char) := do
  let skip (rest : List Char) := if loose then rest.dropWhile Text.isBlank else rest
  let (year, afterYear) ← readYear? (chars.dropWhile Text.isBlank)
  let beforeMonth ← readMark? '-' (skip afterYear)
  let (month, afterMonth) ← readNumber? 1 2 (beforeMonth.dropWhile Text.isBlank)
  let beforeDay ← readMark? '-' (skip afterMonth)
  let (day, rest) ← readNumber? 1 2 (beforeDay.dropWhile Text.isBlank)
  let date ← of? year month day
  return (date, rest)

end Date

end Statute
