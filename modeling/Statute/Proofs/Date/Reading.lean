/-
This file proves that the text of a date reads as the date.
-/

import Statute.Date.Instant
import Statute.Proofs.Date.Text

namespace Statute

theorem digitsValue_paddedNumber (width number : Nat) :
    Double.digitsValue (paddedNumber width number).toList = number := by
  have positional (digits : List Char) (value : Nat) :
      digits.foldl (fun value digit => value * 10 + (digit.toNat - '0'.toNat)) value =
        Nat.ofDigitChars 10 digits value := by
    simp only [Nat.ofDigitChars, Nat.mul_comm]
  rw [Double.digitsValue, positional, ofDigitChars_paddedNumber]

/-- A year is written in four places at least, and in no more when it needs no sign. -/
theorem length_paddedNumber_four (number : Nat) :
    4 ≤ (paddedNumber 4 number).toList.length ∧
      (number ≤ 9999 → (paddedNumber 4 number).toList.length = 4) := by
  rw [toList_paddedNumber, List.length_append, List.length_replicate]
  refine ⟨by omega, fun small => ?_⟩
  have short : (Nat.toDigits 10 number).length ≤ 4 :=
    (Nat.length_toDigits_le_iff (by omega) (by omega)).mpr (by omega)
  omega

namespace Text

theorem code_digit {char : Char} (digit : char.isDigit = true) :
    48 ≤ char.toNat ∧ char.toNat ≤ 57 := by
  simp only [Char.isDigit, Bool.and_eq_true, decide_eq_true_eq, ge_iff_le,
    UInt32.le_iff_toNat_le] at digit
  exact digit

theorem isBlank_digit {char : Char} (digit : char.isDigit = true) : isBlank char = false := by
  have code := code_digit digit
  simp only [isBlank, Bool.or_eq_false_iff, Bool.and_eq_false_iff, decide_eq_false_iff_not]
  omega

/-- Characters that neither start nor end with a blank have none to lose. -/
theorem trimChars_eq {first last : Char} {middle : List Char} (start : isBlank first = false)
    (finish : isBlank last = false) :
    trimChars (first :: middle ++ [last]) = first :: middle ++ [last] := by
  rw [trimChars, List.cons_append, List.dropWhile_cons_of_neg (by simp [start]), ← List.cons_append,
    List.reverse_append, List.reverse_singleton, List.singleton_append,
    List.dropWhile_cons_of_neg (by simp [finish])]
  simp

end Text

namespace Date

variable {digits rest : List Char}

/-- A row of digits that ends where no digit follows is read whole. -/
theorem readNumber?_append {least most : Nat} (areDigits : ∀ char ∈ digits, char.isDigit = true)
    (ends : ∀ char ∈ rest.head?, char.isDigit = false) (enough : least ≤ digits.length)
    (few : digits.length ≤ most) :
    readNumber? least most (digits ++ rest) = some (Double.digitsValue digits, rest) := by
  have after : (rest.take (most - digits.length)).takeWhile Char.isDigit = [] := by
    cases rest with
    | nil => simp
    | cons char others =>
        cases most - digits.length with
        | zero => simp
        | succ places => simp [ends char rfl]
  have whole : ((digits ++ rest).take most).takeWhile Char.isDigit = digits := by
    rw [List.take_append, List.take_of_length_le few, List.takeWhile_append_of_pos areDigits, after,
      List.append_nil]
  rw [readNumber?, whole]
  simp [Nat.not_lt.mpr enough]

theorem readNumber?_paddedNumber {width number least most : Nat}
    (ends : ∀ char ∈ rest.head?, char.isDigit = false)
    (enough : least ≤ (paddedNumber width number).toList.length)
    (few : (paddedNumber width number).toList.length ≤ most) :
    readNumber? least most ((paddedNumber width number).toList ++ rest) = some (number, rest) := by
  rw [readNumber?_append (fun _ member => isDigit_of_mem_paddedNumber member) ends enough few,
    digitsValue_paddedNumber]

theorem dropWhile_paddedNumber (width number : Nat) (rest : List Char) :
    ((paddedNumber width number).toList ++ rest).dropWhile Text.isBlank =
      (paddedNumber width number).toList ++ rest := by
  obtain ⟨digit, others, chars, isDigit⟩ := head_paddedNumber width number
  rw [chars, List.cons_append, List.dropWhile_cons_of_neg (by simp [Text.isBlank_digit isDigit])]

/-- A year is followed by a mark, so its digits end there. -/
theorem readYear?_yearText (year : Int) (rest : List Char) :
    readYear? ((yearText year).toList ++ '-' :: rest) = some (year, '-' :: rest) := by
  have ends : ∀ char ∈ ('-' :: rest).head?, char.isDigit = false := by simp
  obtain ⟨four, notMore⟩ := length_paddedNumber_four year.natAbs
  have signed : readNumber? 1 ((paddedNumber 4 year.natAbs).toList ++ '-' :: rest).length
      ((paddedNumber 4 year.natAbs).toList ++ '-' :: rest) = some (year.natAbs, '-' :: rest) :=
    readNumber?_paddedNumber ends (by omega) (by simp)
  rw [toList_yearText, yearSign]
  split
  · rename_i negative
    rw [List.append_assoc, List.singleton_append, readYear?, signed]
    simp only [Option.map_some, Option.some.injEq, Prod.mk.injEq, and_true]
    omega
  · split
    · rename_i long
      rw [List.append_assoc, List.singleton_append, readYear?, signed]
      simp only [Option.map_some, Option.some.injEq, Prod.mk.injEq, and_true]
      omega
    · have unsigned : readNumber? 1 4 ((paddedNumber 4 year.natAbs).toList ++ '-' :: rest) =
          some (year.natAbs, '-' :: rest) :=
        readNumber?_paddedNumber ends (by omega) (by omega)
      obtain ⟨digit, others, chars, isDigit⟩ := head_paddedNumber 4 year.natAbs
      rw [List.nil_append]
      unfold readYear?
      split
      · rename_i isNegative
        rw [chars] at isNegative
        cases isNegative
        cases isDigit
      · rename_i isPositive
        rw [chars] at isPositive
        cases isPositive
        cases isDigit
      · rw [unsigned]
        simp only [Option.map_some, Option.some.injEq, Prod.mk.injEq, and_true]
        omega

theorem of?_eq (date : Date) : of? date.year date.month date.day = some date := by
  rw [of?, dif_pos date.yearInReach, dif_pos date.monthInYear, dif_pos date.dayInMonth]

/-- The text of a date starts with a digit or a sign. -/
theorem head_yearText (year : Int) :
    ∃ first rest, (yearText year).toList = first :: rest ∧ Text.isBlank first = false := by
  obtain ⟨digit, others, chars, isDigit⟩ := head_paddedNumber 4 year.natAbs
  rw [toList_yearText, yearSign, chars]
  split
  · exact ⟨_, _, rfl, by decide⟩
  · split
    · exact ⟨_, _, rfl, by decide⟩
    · exact ⟨_, _, rfl, Text.isBlank_digit isDigit⟩

theorem readDate?_text (date : Date) : readDate? false date.text.toList = some (date, []) := by
  obtain ⟨first, others, chars, noBlank⟩ := head_yearText date.year
  obtain ⟨twoMonth, twoDay⟩ := date.twoPlaces
  have noDigit (rest : List Char) : ∀ char ∈ ('-' :: rest).head?, char.isDigit = false := by simp
  have month (rest : List Char) :
      readNumber? 1 2 ((paddedNumber 2 date.month).toList ++ '-' :: rest) =
        some (date.month, '-' :: rest) :=
    readNumber?_paddedNumber (noDigit rest) (by omega) (by omega)
  have day : readNumber? 1 2 (paddedNumber 2 date.day).toList = some (date.day, []) := by
    have whole := @readNumber?_paddedNumber [] 2 date.day 1 2 (by simp) (by omega) (by omega)
    rwa [List.append_nil] at whole
  have dayStart : (paddedNumber 2 date.day).toList.dropWhile Text.isBlank =
      (paddedNumber 2 date.day).toList := by
    have whole := dropWhile_paddedNumber 2 date.day []
    rwa [List.append_nil] at whole
  have start : date.text.toList.dropWhile Text.isBlank = date.text.toList := by
    rw [toList_text, chars, List.cons_append,
      List.dropWhile_cons_of_neg (by simp [noBlank])]
  rw [readDate?, start, toList_text, List.cons_append, readYear?_yearText]
  simp [readMark?, dropWhile_paddedNumber, month, dayStart, day, of?_eq]

/-- A date that was written is read again. -/
theorem read?_text (date : Date) : read? date.text = some date := by
  have trimmed : Text.trim date.text = date.text := by
    obtain ⟨first, others, chars, noBlank⟩ := head_yearText date.year
    obtain ⟨start, last, ending⟩ : ∃ start last, (paddedNumber 2 date.day).toList = start ++ [last] := by
      rcases List.eq_nil_or_concat (paddedNumber 2 date.day).toList with empty | ending
      · have two := date.twoPlaces.2
        rw [empty] at two
        cases two
      · simpa only [List.concat_eq_append] using ending
    have isLast : last ∈ (paddedNumber 2 date.day).toList := by simp [ending]
    have isDigit : last.isDigit = true := isDigit_of_mem_paddedNumber isLast
    apply String.toList_injective
    rw [Text.trim, String.toList_ofList, toList_text, chars, ending]
    have kept := @Text.trimChars_eq first last
      (others ++ '-' :: (paddedNumber 2 date.month).toList ++ '-' :: start) noBlank
      (Text.isBlank_digit isDigit)
    simpa using kept
  rw [read?, trimmed, readDate?_text]

end Date

end Statute
