/-
This file proves which values and results agree with themselves.
-/

import Statute.Case.Agreement
import Statute.Proofs.Collections
import Statute.Proofs.Double.Whole
import Statute.Proofs.Value.Equality

namespace Statute

namespace Double

/-- Larger than every other number, or smaller than all of them. -/
def isInfinite : Double → Bool
  | nan => false
  | signed _ rank => rank.val == infinityRank

theorem isFinite_eq (number : Double) :
    number.isFinite = (!number.isNaN && !number.isInfinite) := by
  cases number <;> rfl

theorem isFinite_of_isZero {number : Double} (isZero : number.isZero = true) :
    number.isFinite = true := by
  cases number with
  | nan => cases isZero
  | signed negative rank =>
      rw [isFinite, isZero_signed.mp isZero]
      exact bne_iff_ne.mpr infinityRank_pos.symm

theorem isFinite_ofInt64 (value : Int64) : (ofInt value.toInt).isFinite = true :=
  bne_iff_ne.mpr ((integerRank_eq (natAbs_toInt_le value)).trans_lt
    (wholeRank_lt_infinity (natAbs_toInt_le value))).ne

/-- To subtract a number is to add the one with the other sign. -/
theorem sub_self_eq (negative : Bool) (rank : Fin (infinityRank + 1)) :
    signed negative rank - signed negative rank =
      add (signed negative rank) (signed (!negative) rank) :=
  rfl

/-- Nothing is left of a finite number without itself. -/
theorem sub_self {negative : Bool} {rank : Fin (infinityRank + 1)} (finite : rank.val ≠ infinityRank) :
    signed negative rank - signed negative rank = zero := by
  have opposite : signedUnits negative rank.val + signedUnits (!negative) rank.val = 0 := by
    cases negative <;> simp [signedUnits]
  simp [sub_self_eq, add, finite, opposite, zero]

/-- An infinity without itself is no number. -/
theorem sub_self_infinite {negative : Bool} {rank : Fin (infinityRank + 1)}
    (infinite : rank.val = infinityRank) : signed negative rank - signed negative rank = nan := by
  simp [sub_self_eq, add, infinite]

theorem zero_div_abs {negative : Bool} {rank : Fin (infinityRank + 1)} (finite : rank.val ≠ infinityRank)
    (nonzero : rank.val ≠ 0) : (zero / signed negative rank).abs = zero := by
  have isQuotient : zero / signed negative rank = ofRank (false != negative) 0 := by
    change div (signed false 0) (signed negative rank) = _
    simp only [div, Fin.val_zero, infinityRank_pos.symm, finite, nonzero, if_false, ofUnits]
    rw [units_zero, Nat.zero_mul, nearestRank_zero]
  rw [isQuotient]
  rfl

/-- The difference of a number to itself is a tolerable share of it, unless the number is infinite. -/
theorem shareOfSelf_isLE {number : Double} (nonzero : number.isZero = false) :
    ((number - number) / number).abs.isLE tolerance = number.isFinite := by
  cases number with
  | nan => rfl
  | signed negative rank =>
      by_cases infinite : rank.val = infinityRank
      · have notFinite : (signed negative rank).isFinite = false := by
          rw [isFinite, infinite, bne_self_eq_false]
        rw [sub_self_infinite infinite, nan_div, notFinite]
        rfl
      · have finite : (signed negative rank).isFinite = true := bne_iff_ne.mpr infinite
        have hasRank : rank.val ≠ 0 := fun isZero => by
          rw [isZero_signed.mpr isZero] at nonzero
          cases nonzero
        rw [sub_self infinite, zero_div_abs infinite hasRank, finite]
        decide +kernel

end Double

namespace Value

/-- An infinite number, by itself and not within a list or a record. -/
def isInfinite : Value → Bool
  | float value => value.isInfinite
  | _ => false

/-- A number agrees with itself if it is finite. -/
theorem agrees_self_number {value : Value} {number : Double} (isNumber : value.double? = some number) :
    value.agrees value = number.isFinite := by
  simp only [agrees, isNumber]
  split
  case isTrue isZero => rw [isZero, Double.isFinite_of_isZero isZero]
  case isFalse notZero => exact Double.shareOfSelf_isLE (Bool.eq_false_iff.mpr notZero)

/-- A value agrees with itself if no NaN occurs in it and it is no infinite number. -/
theorem agrees_self (value : Value) : value.agrees value = (!value.hasNaN && !value.isInfinite) := by
  have loosely (isOther : value.double? = none) : value.agrees value = !value.hasNaN := by
    have reflexive : value.looseEq value = true ↔ value.content?.isSome = true :=
      (looseEq_iff value value).trans Meet.self_iff
    simp only [agrees, isOther]
    rw [Bool.eq_iff_iff, reflexive, isSome_content?]
  cases value with
  | int value => exact (agrees_self_number rfl).trans (Double.isFinite_ofInt64 value)
  | float value => exact (agrees_self_number rfl).trans (Double.isFinite_eq value)
  | _ => exact (loosely rfl).trans (Bool.and_true _).symm

theorem fieldsHaveNaN_eq_false_iff (fields : List (String × Value)) :
    fieldsHaveNaN fields = false ↔ ∀ field ∈ fields, field.2.hasNaN = false := by
  induction fields with
  | nil => simp [fieldsHaveNaN]
  | cons field rest inductionHypothesis =>
      obtain ⟨name, value⟩ := field
      rw [fieldsHaveNaN, Bool.or_eq_false_iff, inductionHypothesis, List.forall_mem_cons]

end Value

namespace Record

/-- No NaN occurs in the result, and none of its own fields is infinite. -/
structure IsClaimable (result : Record) : Prop where
  hasNoNaN : Value.fieldsHaveNaN result = false
  isFinite : ∀ field ∈ result, field.2.isInfinite = false

/-- A result agrees with itself if each of its fields does. -/
theorem agrees_self_iff {result : Record} (sorted : Entries.Sorted result) :
    Record.agrees result result = true ↔ ∀ field ∈ result, field.2.agrees field.2 = true := by
  rw [Record.agrees, beq_self_eq_true, Bool.true_and, List.all_eq_true]
  refine forall₂_congr fun field member => ?_
  have found : Entries.get? field.1 result = some field.2 := sorted.get?_eq_some_iff.mpr member
  dsimp only
  rw [found]

theorem agrees_self_iff_isClaimable {result : Record} (sorted : Entries.Sorted result) :
    Record.agrees result result = true ↔ IsClaimable result := by
  rw [agrees_self_iff sorted]
  constructor
  · intro agree
    have parts (field : String × Value) (member : field ∈ result) :
        field.2.hasNaN = false ∧ field.2.isInfinite = false := by
      simpa [Value.agrees_self] using agree field member
    exact ⟨(Value.fieldsHaveNaN_eq_false_iff result).mpr fun field member => (parts field member).1,
      fun field member => (parts field member).2⟩
  · rintro ⟨hasNoNaN, isFinite⟩ field member
    rw [Value.agrees_self, (Value.fieldsHaveNaN_eq_false_iff result).mp hasNoNaN field member,
      isFinite field member]
    rfl

end Record

end Statute
