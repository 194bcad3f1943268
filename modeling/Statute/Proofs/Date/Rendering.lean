/-
This file proves that a date survives being written, with any blanks around it, and that the texts of dates
with four digits for the year are ordered like the dates.
-/

import Mathlib.Data.List.TakeWhile
import Mathlib.Data.String.Basic
import Statute.Proofs.Date.Order
import Statute.Proofs.Date.Reading
import Statute.Proofs.Evaluation.Comparison

namespace Statute

namespace Text

/-- Blanks around characters do not matter for what is left without the blanks at both ends. -/
theorem trimChars_append {before after : List Char}
    (areBlank : ∀ char ∈ before ++ after, isBlank char = true) (chars : List Char) :
    trimChars (before ++ chars ++ after) = trimChars chars := by
  obtain ⟨blankBefore, blankAfter⟩ := List.forall_mem_append.mp areBlank
  have blankReversed : ∀ char ∈ after.reverse, isBlank char = true := by simpa using blankAfter
  have onlyAfter : after.dropWhile isBlank = [] := List.dropWhile_eq_nil_iff.mpr blankAfter
  rw [trimChars, trimChars, List.append_assoc, List.dropWhile_append_of_pos blankBefore,
    List.dropWhile_append]
  split
  case isTrue nothing =>
    rw [onlyAfter, List.isEmpty_iff.mp nothing]
  case isFalse =>
    rw [List.reverse_append, List.dropWhile_append_of_pos blankReversed]

theorem trim_append {before after : String}
    (areBlank : ∀ char ∈ before.toList ++ after.toList, isBlank char = true) (text : String) :
    trim (before ++ text ++ after) = trim text := by
  rw [trim, trim, String.toList_append, String.toList_append, trimChars_append areBlank]

end Text

/-- A row of digits is less than the power of ten with one more place. -/
theorem ofDigitChars_lt {digits : List Char} (areDigits : ∀ char ∈ digits, char.isDigit = true) :
    Nat.ofDigitChars 10 digits 0 < 10 ^ digits.length := by
  induction digits with
  | nil => simp
  | cons digit rest inductionHypothesis =>
      obtain ⟨isDigit, areRest⟩ := List.forall_mem_cons.mp areDigits
      have below := inductionHypothesis areRest
      have code := Text.code_digit isDigit
      have share : 10 ^ rest.length * (digit.toNat - '0'.toNat) ≤ 10 ^ rest.length * 9 :=
        Nat.mul_le_mul_left _ (by change digit.toNat - 48 ≤ 9; omega)
      rw [Nat.ofDigitChars_cons, Nat.ofDigitChars_eq_ofDigitChars_zero, List.length_cons, pow_succ]
      simp only [Nat.mul_zero, Nat.zero_add]
      omega

/-- Of two rows of equally many digits the one with the smaller number comes first, whatever follows. -/
theorem append_lt_of_ofDigitChars {first second : List Char}
    (areFirst : ∀ char ∈ first, char.isDigit = true)
    (areSecond : ∀ char ∈ second, char.isDigit = true) (equallyLong : first.length = second.length)
    (smaller : Nat.ofDigitChars 10 first 0 < Nat.ofDigitChars 10 second 0) (rest others : List Char) :
    first ++ rest < second ++ others := by
  induction first generalizing second with
  | nil =>
      rw [List.eq_nil_of_length_eq_zero equallyLong.symm] at smaller
      exact absurd smaller (Nat.lt_irrefl _)
  | cons digit digits inductionHypothesis =>
      cases second with
      | nil => cases equallyLong
      | cons other otherDigits =>
          obtain ⟨isDigit, areDigits⟩ := List.forall_mem_cons.mp areFirst
          obtain ⟨isOther, areOthers⟩ := List.forall_mem_cons.mp areSecond
          have code := Text.code_digit isDigit
          have otherCode := Text.code_digit isOther
          have sameLength : digits.length = otherDigits.length := Nat.succ.inj equallyLong
          have below := ofDigitChars_lt areOthers
          rw [Nat.ofDigitChars_cons, Nat.ofDigitChars_cons, Nat.ofDigitChars_eq_ofDigitChars_zero,
            Nat.ofDigitChars_eq_ofDigitChars_zero (l := otherDigits), Nat.mul_zero, Nat.zero_add,
            Nat.zero_add, sameLength] at smaller
          rw [List.cons_append, List.cons_append, List.cons_lt_cons_iff]
          rcases Nat.lt_trichotomy digit.toNat other.toNat with before | same | behind
          · exact .inl (Char.lt_def.mpr (UInt32.lt_iff_toNat_lt.mpr before))
          · rw [same] at smaller
            exact .inr ⟨Char.toNat_inj.mp same,
              inductionHypothesis areDigits areOthers sameLength (Nat.lt_of_add_lt_add_left smaller)⟩
          · -- A larger digit outweighs all digits behind the other one.
            have share : 10 ^ otherDigits.length * (other.toNat - '0'.toNat + 1) ≤
                10 ^ otherDigits.length * (digit.toNat - '0'.toNat) :=
              Nat.mul_le_mul_left _ (by change other.toNat - 48 + 1 ≤ digit.toNat - 48; omega)
            rw [Nat.mul_succ] at share
            omega

/-- Numbers with equally many places are ordered like their texts. -/
theorem paddedNumber_append_lt {width first second : Nat}
    (equallyLong : (paddedNumber width first).toList.length = (paddedNumber width second).toList.length)
    (smaller : first < second) (rest others : List Char) :
    (paddedNumber width first).toList ++ rest < (paddedNumber width second).toList ++ others := by
  refine append_lt_of_ofDigitChars (fun _ => isDigit_of_mem_paddedNumber)
    (fun _ => isDigit_of_mem_paddedNumber) equallyLong ?_ rest others
  rw [ofDigitChars_paddedNumber, ofDigitChars_paddedNumber]
  exact smaller

namespace Date

/-- A year is plain when its text is four digits and no sign. -/
def HasPlainYear (date : Date) : Prop :=
  0 ≤ date.year ∧ date.year ≤ 9999

theorem yearText_of_plain {date : Date} (plain : date.HasPlainYear) :
    (yearText date.year).toList = (paddedNumber 4 date.year.natAbs).toList := by
  rw [toList_yearText, yearSign, if_neg (by have := plain.1; omega),
    if_neg (by have := plain.2; omega), List.nil_append]

theorem length_plainYear {date : Date} (plain : date.HasPlainYear) :
    (paddedNumber 4 date.year.natAbs).toList.length = 4 :=
  (length_paddedNumber_four _).2 (by have := plain.1; have := plain.2; omega)

/-- Texts of plain years, months and days have fixed places, so they are ordered like the dates. -/
theorem text_lt {date other : Date} (plain : date.HasPlainYear) (otherPlain : other.HasPlainYear)
    (before : date < other) : date.text < other.text := by
  have years := length_plainYear plain
  have otherYears := length_plainYear otherPlain
  obtain ⟨months, days⟩ := date.twoPlaces
  obtain ⟨otherMonths, otherDays⟩ := other.twoPlaces
  rw [String.lt_iff_toList_lt, toList_text, toList_text, yearText_of_plain plain,
    yearText_of_plain otherPlain]
  rcases isBefore_iff.mp (isBefore_iff_lt.mpr before) with earlierYear |
      ⟨sameYear, earlierMonth | ⟨sameMonth, earlierDay⟩⟩
  · have smaller : date.year.natAbs < other.year.natAbs := by
      have := plain.1
      omega
    exact paddedNumber_append_lt (years.trans otherYears.symm) smaller _ _
  · rw [sameYear]
    refine List.append_left_lt (List.cons_lt_cons_iff.mpr (.inr ⟨rfl, ?_⟩))
    exact paddedNumber_append_lt (months.trans otherMonths.symm) earlierMonth _ _
  · rw [sameYear, sameMonth]
    refine List.append_left_lt (List.cons_lt_cons_iff.mpr (.inr ⟨rfl, List.append_left_lt
      (List.cons_lt_cons_iff.mpr (.inr ⟨rfl, ?_⟩))⟩))
    simpa using paddedNumber_append_lt (days.trans otherDays.symm) earlierDay [] []

theorem strictMonoOn_text : StrictMonoOn text {date | date.HasPlainYear} :=
  fun _ plain _ otherPlain before => text_lt plain otherPlain before

/-- The order of texts is the order of the dates. -/
theorem compare_text {date other : Date} (plain : date.HasPlainYear)
    (otherPlain : other.HasPlainYear) : Ord.compare date.text other.text = Ord.compare date other := by
  rw [← cmp_eq_compare, ← cmp_eq_compare]
  exact strictMonoOn_text.cmp_map_eq plain otherPlain

theorem parse_of_read? {text : String} {date : Date} (isRead : read? text = some date) :
    parse text = .ok date := by
  rw [parse, isRead]

/-- Blanks around a text do not matter for the date that it writes. -/
theorem read?_append {before after : String}
    (areBlank : ∀ char ∈ before.toList ++ after.toList, Text.isBlank char = true) (text : String) :
    read? (before ++ text ++ after) = read? text := by
  rw [read?, read?, Text.trim_append areBlank]

/-- A date is read again from its text, with any blanks around it, and from its value. Rules see the values of
dates with plain years in the order of the dates. -/
theorem text_isFaithful (date other : Date) :
    parse date.text = .ok date ∧
    (∀ before after : String, (∀ char ∈ before.toList ++ after.toList, Text.isBlank char = true) →
      parse (before ++ date.text ++ after) = .ok date) ∧
    ofValue date.toValue = .ok date ∧
    (date.HasPlainYear → other.HasPlainYear →
      Value.SeenAs (Ord.compare date other) date.toValue other.toValue) := by
  have plain : parse date.text = .ok date := parse_of_read? (read?_text date)
  refine ⟨plain, fun before after areBlank => ?_, plain, fun isPlain otherPlain => ?_⟩
  · exact parse_of_read? ((read?_append areBlank date.text).trans (read?_text date))
  · refine .of_compare ?_
    rw [← compare_text isPlain otherPlain]
    rfl

/-- The last day of February of a leap year. -/
def leapDay : Date :=
  ⟨2028, 2, 29, by decide, by decide, by decide⟩

/-- A day of a year with three digits. -/
def earlyDay : Date :=
  ⟨987, 12, 31, by decide, by decide, by decide⟩

/-- A date is read between blanks, and a year of three digits comes before one of four. -/
theorem text_isFaithful_leapDay :
    leapDay.HasPlainYear ∧ earlyDay.HasPlainYear ∧ parse "\t2028-02-29 " = .ok leapDay ∧
    Value.SeenAs .gt leapDay.toValue earlyDay.toValue := by
  have plain : leapDay.HasPlainYear := by
    unfold HasPlainYear
    decide
  have earlyPlain : earlyDay.HasPlainYear := by
    unfold HasPlainYear
    decide
  have areBlank : ∀ char ∈ "\t".toList ++ " ".toList, Text.isBlank char = true :=
    List.all_eq_true.mp rfl
  have later : Ord.compare leapDay earlyDay = .gt := by decide
  obtain ⟨-, isRead, -, isSeen⟩ := text_isFaithful leapDay earlyDay
  refine ⟨plain, earlyPlain, ?_, later ▸ isSeen plain earlyPlain⟩
  exact isRead "\t" " " areBlank

end Date

end Statute
