/-
This file proves that values are ordered on three scales, of numbers, texts and flags, and that values of
different scales, or of none, do not compare.
-/

import Statute.Proofs.Double.Order
import Statute.Value.Order

namespace Statute

namespace Value

/-- The kinds of values that are ordered among themselves. -/
inductive Scale
  | number
  | text
  | flag
  deriving DecidableEq, Repr

/-- The scale of a value. A NaN is on none, and neither are null, lists and records. -/
def scale? : Value → Option Scale
  | int _ => some .number
  | float value => if value.isNaN then none else some .number
  | string _ => some .text
  | bool _ => some .flag
  | _ => none

/-- A place on one of the scales. -/
inductive Grade
  | number (place : Int)
  | text (content : String)
  | flag (value : Bool)

namespace Grade

/-- The scale of a grade. -/
def scale : Grade → Scale
  | number _ => .number
  | text _ => .text
  | flag _ => .flag

/-- The order of grades of one scale. -/
def compare : Grade → Grade → Option Ordering
  | number first, number second => some (Ord.compare first second)
  | text first, text second => some (Ord.compare first second)
  | flag first, flag second => some (Ord.compare first second)
  | _, _ => none

theorem isSome_compare (first second : Grade) :
    (first.compare second).isSome = true ↔ first.scale = second.scale := by
  cases first <;> cases second <;> simp [compare, scale]

theorem compare_swap : (first second : Grade) →
    second.compare first = (first.compare second).map Ordering.swap
  | number _, number _ => congrArg some Std.OrientedCmp.eq_swap
  | text _, text _ => congrArg some Std.OrientedCmp.eq_swap
  | flag _, flag _ => congrArg some Std.OrientedCmp.eq_swap
  | number _, text _ => rfl
  | number _, flag _ => rfl
  | text _, number _ => rfl
  | text _, flag _ => rfl
  | flag _, number _ => rfl
  | flag _, text _ => rfl

/-- In a total order, an item that goes a strict way against another one goes it against every item
that does not. -/
theorem beats {α : Type} [Ord α] [Std.TransOrd α] {wanted : Ordering} (strict : wanted ≠ .eq)
    {best rival other : α} (beaten : Ord.compare best rival = wanted)
    (unbeaten : Ord.compare other rival ≠ wanted) : Ord.compare best other = wanted := by
  have swapped : Ord.compare rival other = (Ord.compare other rival).swap :=
    Std.OrientedCmp.eq_swap
  cases wanted with
  | eq => exact absurd rfl strict
  | lt =>
      refine Std.TransCmp.lt_of_lt_of_isLE beaten ?_
      rw [swapped]
      revert unbeaten
      cases Ord.compare other rival <;> decide
  | gt =>
      refine Std.TransCmp.gt_of_gt_of_isGE beaten ?_
      rw [swapped]
      revert unbeaten
      cases Ord.compare other rival <;> decide

theorem compare_beats {wanted : Ordering} (strict : wanted ≠ .eq) {best rival other : Grade}
    (beaten : best.compare rival = some wanted) (comparable : other.scale = rival.scale)
    (unbeaten : other.compare rival ≠ some wanted) : best.compare other = some wanted := by
  have sameScale : best.scale = rival.scale :=
    (isSome_compare best rival).mp (beaten ▸ rfl)
  cases rival <;> cases best <;> cases sameScale <;> cases other <;> cases comparable <;>
    exact congrArg some (beats strict (Option.some.inj beaten)
      fun same => unbeaten (congrArg some same))

end Grade

/-- The grade of a value that is on a scale. -/
def grade? : Value → Option Grade
  | int value => (Double.ofInt value.toInt).place.map .number
  | float value => value.place.map .number
  | string content => some (.text content)
  | bool value => some (.flag value)
  | _ => none

theorem scale?_eq (value : Value) : value.scale? = value.grade?.map Grade.scale := by
  cases value with
  | int value =>
      rw [grade?, Double.place_ofInt]
      rfl
  | float value => cases value <;> rfl
  | _ => rfl

/-- Values compare by their grades. -/
theorem compare_eq (first second : Value) :
    first.compare second = first.grade?.bind fun left => second.grade?.bind left.compare := by
  have onNumbers (left right : Double) :
      left.compare right = (left.place.map Grade.number).bind fun place =>
        (right.place.map Grade.number).bind place.compare := by
    rw [Double.compare]
    cases left.place <;> cases right.place <;> rfl
  cases first <;> cases second <;>
    simp [compare, double?, grade?, onNumbers, Grade.compare, Option.bind_map, Function.comp_def]

theorem isSome_compare (first second : Value) :
    (first.compare second).isSome = true ↔
      ∃ scale, first.scale? = some scale ∧ second.scale? = some scale := by
  rw [compare_eq, scale?_eq, scale?_eq]
  cases first.grade? with
  | none => simp
  | some left =>
      cases second.grade? with
      | none => simp
      | some right => simpa [Grade.isSome_compare] using eq_comm

theorem compare_swap (first second : Value) :
    second.compare first = (first.compare second).map Ordering.swap := by
  rw [compare_eq, compare_eq]
  cases first.grade? with
  | none => cases second.grade? <;> rfl
  | some left =>
      cases second.grade? with
      | none => rfl
      | some right => exact Grade.compare_swap left right

theorem isSome_compare_of_scale {scale : Scale} {first second : Value}
    (isFirst : first.scale? = some scale) (isSecond : second.scale? = some scale) :
    (first.compare second).isSome = true :=
  (isSome_compare first second).mpr ⟨scale, isFirst, isSecond⟩

theorem isSome_compare_trans {first second third : Value}
    (left : (first.compare second).isSome = true) (right : (second.compare third).isSome = true) :
    (first.compare third).isSome = true := by
  obtain ⟨scale, isFirst, isSecond⟩ := (isSome_compare first second).mp left
  obtain ⟨other, isOther, isThird⟩ := (isSome_compare second third).mp right
  obtain rfl : scale = other := Option.some.inj (isSecond.symm.trans isOther)
  exact isSome_compare_of_scale isFirst isThird

/-- Of two values only one goes a strict way against the other. -/
theorem compare_asymm {wanted : Ordering} (strict : wanted ≠ .eq) {first second : Value}
    (beaten : first.compare second = some wanted) : second.compare first ≠ some wanted := by
  rw [compare_swap, beaten]
  cases wanted with
  | eq => exact absurd rfl strict
  | lt => nofun
  | gt => nofun

/-- A value that goes a strict way against another one goes it against every value of the scale that
does not. -/
theorem compare_beats {wanted : Ordering} (strict : wanted ≠ .eq) {best rival other : Value}
    (beaten : best.compare rival = some wanted) (comparable : (other.compare rival).isSome = true)
    (unbeaten : other.compare rival ≠ some wanted) : best.compare other = some wanted := by
  rw [compare_eq] at *
  cases isBest : best.grade? with
  | none => simp [isBest] at beaten
  | some best =>
      cases isRival : rival.grade? with
      | none => simp [isBest, isRival] at beaten
      | some rival =>
          cases isOther : other.grade? with
          | none => simp [isOther] at comparable
          | some other =>
              simp only [isBest, isRival, isOther, Option.bind_some] at *
              exact Grade.compare_beats strict beaten
                ((Grade.isSome_compare other rival).mp comparable) unbeaten

end Value

end Statute
