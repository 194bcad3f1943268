/-
This file proves that the text of a date determines the date.
-/

import Statute.Date.Text

namespace Statute

theorem toList_paddedNumber (width number : Nat) :
    (paddedNumber width number).toList =
      List.replicate (width - (Nat.toDigits 10 number).length) '0' ++ Nat.toDigits 10 number := by
  rw [paddedNumber, String.toList_ofList]

/-- Zeros in front do not change the number that digits write. -/
theorem ofDigitChars_paddedNumber (width number : Nat) :
    Nat.ofDigitChars 10 (paddedNumber width number).toList 0 = number := by
  rw [toList_paddedNumber, Nat.ofDigitChars_append, Nat.ofDigitChars_replicate_zero, Nat.mul_zero,
    Nat.ofDigitChars_ten_toDigits]

/-- A padded number determines the number. -/
theorem paddedNumber_injective {width first second : Nat}
    (same : paddedNumber width first = paddedNumber width second) : first = second := by
  rw [← ofDigitChars_paddedNumber width first, same, ofDigitChars_paddedNumber]

/-- A number below one hundred is written in two places. -/
theorem length_paddedNumber_two {number : Nat} (small : number < 100) :
    (paddedNumber 2 number).toList.length = 2 := by
  have short : (Nat.toDigits 10 number).length ≤ 2 :=
    (Nat.length_toDigits_le_iff (by omega) (by omega)).mpr small
  rw [toList_paddedNumber, List.length_append, List.length_replicate]
  omega

theorem isDigit_of_mem_paddedNumber {width number : Nat} {char : Char}
    (member : char ∈ (paddedNumber width number).toList) : char.isDigit = true := by
  rw [toList_paddedNumber, List.mem_append] at member
  rcases member with zero | digit
  · rw [List.eq_of_mem_replicate zero]
    decide
  · exact Nat.isDigit_of_mem_toDigits (by omega) (by omega) digit

/-- A padded number starts with a digit. -/
theorem head_paddedNumber (width number : Nat) :
    ∃ digit rest, (paddedNumber width number).toList = digit :: rest ∧ digit.isDigit = true := by
  cases chars : (paddedNumber width number).toList with
  | nil =>
      rw [toList_paddedNumber] at chars
      exact absurd (List.append_eq_nil_iff.mp chars).2 Nat.toDigits_ne_nil
  | cons digit rest =>
      exact ⟨digit, rest, rfl, isDigit_of_mem_paddedNumber (chars ▸ List.mem_cons_self)⟩

/-- The sign of a year in its text. -/
def yearSign (year : Int) : List Char :=
  if year < 0 then ['-'] else if 9999 < year then ['+'] else []

theorem toList_yearText (year : Int) :
    (yearText year).toList = yearSign year ++ (paddedNumber 4 year.natAbs).toList := by
  unfold yearText yearSign
  split
  · rw [String.toList_append]
    rfl
  · split
    · rw [String.toList_append]
      rfl
    · rfl

/-- What goes before the digits of a padded number can be told from them. -/
theorem sign_injective {first second : List Char} {width number other : Nat}
    (firstSign : first = [] ∨ first = ['-'] ∨ first = ['+'])
    (secondSign : second = [] ∨ second = ['-'] ∨ second = ['+'])
    (same : first ++ (paddedNumber width number).toList =
      second ++ (paddedNumber width other).toList) : first = second := by
  obtain ⟨digit, rest, chars, isDigit⟩ := head_paddedNumber width number
  obtain ⟨otherDigit, otherRest, otherChars, isOtherDigit⟩ := head_paddedNumber width other
  have noSign {char : Char} (digit : char.isDigit = true) : char ≠ '-' ∧ char ≠ '+' := by
    constructor <;>
    · rintro rfl
      exact absurd digit (by decide)
  rw [chars, otherChars] at same
  rcases firstSign with rfl | rfl | rfl <;> rcases secondSign with rfl | rfl | rfl
  · rfl
  · exact absurd (List.cons.inj same).1 (noSign isDigit).1
  · exact absurd (List.cons.inj same).1 (noSign isDigit).2
  · exact absurd (List.cons.inj same).1.symm (noSign isOtherDigit).1
  · rfl
  · exact absurd (List.cons.inj same).1 (by decide)
  · exact absurd (List.cons.inj same).1.symm (noSign isOtherDigit).2
  · exact absurd (List.cons.inj same).1 (by decide)
  · rfl

theorem yearSign_cases (year : Int) :
    yearSign year = [] ∨ yearSign year = ['-'] ∨ yearSign year = ['+'] := by
  unfold yearSign
  split
  · exact .inr (.inl rfl)
  · split
    · exact .inr (.inr rfl)
    · exact .inl rfl

/-- A sign says whether a year is negative. -/
theorem yearSign_neg (year : Int) : yearSign year = ['-'] ↔ year < 0 := by
  unfold yearSign
  split
  · simp_all
  · split <;> simp_all

/-- The text of a year determines the year. -/
theorem yearText_injective {first second : Int} (same : yearText first = yearText second) :
    first = second := by
  have chars := congrArg String.toList same
  rw [toList_yearText, toList_yearText] at chars
  have signs := sign_injective (yearSign_cases first) (yearSign_cases second) chars
  rw [signs] at chars
  have numbers := paddedNumber_injective (String.toList_injective (List.append_cancel_left chars))
  have negative : first < 0 ↔ second < 0 := by
    rw [← yearSign_neg, ← yearSign_neg, signs]
  omega

namespace Date

theorem toList_text (date : Date) :
    date.text.toList = (yearText date.year).toList ++ ('-' :: (paddedNumber 2 date.month).toList ++
      '-' :: (paddedNumber 2 date.day).toList) := by
  simp [text]

/-- Months and days are written in two places. -/
theorem twoPlaces (date : Date) : (paddedNumber 2 date.month).toList.length = 2 ∧
    (paddedNumber 2 date.day).toList.length = 2 := by
  have months := date.monthInYear
  have days := date.dayInMonth
  have longest : monthLength date.year date.month ≤ 31 := by
    unfold monthLength
    split
    · split <;> omega
    · split <;> omega
  exact ⟨length_paddedNumber_two (by omega), length_paddedNumber_two (by omega)⟩

/-- The text of a date determines the date. -/
theorem text_injective {first second : Date} (same : first.text = second.text) : first = second := by
  have chars := congrArg String.toList same
  rw [toList_text, toList_text] at chars
  have ends : ('-' :: (paddedNumber 2 first.month).toList ++
      '-' :: (paddedNumber 2 first.day).toList).length =
      ('-' :: (paddedNumber 2 second.month).toList ++
        '-' :: (paddedNumber 2 second.day).toList).length := by
    simp [twoPlaces]
  obtain ⟨years, rest⟩ := List.append_inj' chars ends
  obtain ⟨months, days⟩ := List.append_inj rest (by simp [twoPlaces])
  have year := yearText_injective (String.toList_injective years)
  have month := paddedNumber_injective (String.toList_injective (List.cons.inj months).2)
  have day := paddedNumber_injective (String.toList_injective (List.cons.inj days).2)
  obtain ⟨firstYear, firstMonth, firstDay, _, _, _⟩ := first
  obtain ⟨secondYear, secondMonth, secondDay, _, _, _⟩ := second
  subst year month day
  rfl

end Date

end Statute
