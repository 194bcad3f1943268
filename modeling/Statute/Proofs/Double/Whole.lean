/-
This file proves what is left of an integer that is sent through its nearest number, and that this number
is on the same side of every other number as the integer.
-/

import Statute.Proofs.Double.Places

namespace Statute

namespace Double

variable {first second : Double}

theorem exactUnits?_eq_of_isLE (below : first.isLE second = true) (above : second.isLE first = true) :
    first.exactUnits? = second.exactUnits? := by
  obtain ⟨low, high, isLow, isHigh, ordered⟩ := isLE_iff_exactUnits.mp below
  obtain ⟨otherHigh, otherLow, isOtherHigh, isOtherLow, reversed⟩ := isLE_iff_exactUnits.mp above
  obtain rfl : high = otherHigh := Option.some.inj (isHigh.symm.trans isOtherHigh)
  obtain rfl : low = otherLow := Option.some.inj (isLow.symm.trans isOtherLow)
  rw [isLow, isHigh, ordered.antisymm reversed]

theorem isNaN_of_isLE (ordered : first.isLE second = true) :
    first.isNaN = false ∧ second.isNaN = false := by
  obtain ⟨low, high, isLow, isHigh, -⟩ := isLE_iff.mp ordered
  cases first with
  | nan => cases isLow
  | signed _ _ =>
      cases second with
      | nan => cases isHigh
      | signed _ _ => exact ⟨rfl, rfl⟩

/-- A number above a minimum has the same units after it is raised. It may become the minimum itself, which
is a zero of the other sign then. -/
theorem exactUnits?_max (ordered : second.isLE first = true) :
    (first.max second).exactUnits? = first.exactUnits? := by
  obtain ⟨isSecond, isFirst⟩ := isNaN_of_isLE ordered
  rw [Double.max]
  split
  case isTrue => rfl
  case isFalse notAbove =>
    obtain ⟨-, notBelow⟩ := Bool.or_eq_false_iff.mp (Bool.eq_false_iff.mpr notAbove)
    exact exactUnits?_eq_of_isLE ordered (isLE_of_not_isLT isSecond isFirst notBelow)

/-- A number below a maximum has the same units after it is lowered. -/
theorem exactUnits?_min (ordered : first.isLE second = true) :
    (first.min second).exactUnits? = first.exactUnits? := by
  obtain ⟨isFirst, isSecond⟩ := isNaN_of_isLE ordered
  rw [Double.min]
  split
  case isTrue => rfl
  case isFalse notBelow =>
    obtain ⟨-, notAbove⟩ := Bool.or_eq_false_iff.mp (Bool.eq_false_iff.mpr notBelow)
    exact exactUnits?_eq_of_isLE (isLE_of_not_isLT isFirst isSecond notAbove) ordered

/-- Cutting off goes by the units. -/
theorem toInt64_congr {units : Int} (isFirst : first.exactUnits? = some units)
    (isSecond : second.exactUnits? = some units) : first.toInt64 = second.toInt64 := by
  rw [← Int64.toInt_inj, toInt_toInt64_of_units isFirst, toInt_toInt64_of_units isSecond]

/-- The rank that is nearest to a size in units, up to infinity. -/
def rankOfUnits (size : Nat) : Nat :=
  limited (nearestRank size 1)

theorem rankOfUnits_mono : Monotone rankOfUnits :=
  limited_mono.comp (nearestRank_mono 1)

theorem rankOfUnits_zero : rankOfUnits 0 = 0 := by
  rw [rankOfUnits, nearestRank_zero]
  rfl

theorem rankOfUnits_units (rank : Fin (infinityRank + 1)) : rankOfUnits (units rank) = rank := by
  rw [rankOfUnits, nearestRank_units]
  exact min_eq_left (Nat.le_of_lt_succ rank.isLt)

/-- The units of an integer, as the size with its sign. -/
theorem withSign_units (value : Int) :
    withSign (value < 0) (value.natAbs * unitsOfOne) = value * unitsOfOne := by
  rw [withSign_mul, withSign_natAbs]

/-- The place of a number is on the same side of the nearest number's place as its units are of the
integer's. -/
theorem place_beside_ofInt {number : Double} {units : Int} (isUnits : number.exactUnits? = some units)
    (value : Int) :
    ∃ place, number.place = some place ∧
      (units ≤ value * unitsOfOne → place ≤ integerPlace value) ∧
      (value * unitsOfOne ≤ units → integerPlace value ≤ place) := by
  cases number with
  | nan => cases isUnits
  | signed negative rank =>
      obtain rfl := Option.some.inj isUnits
      refine ⟨_, rfl, fun ordered => ?_, fun ordered => ?_⟩
      all_goals
        rw [signedUnits_eq, ← withSign_units] at ordered
        rw [← rankOfUnits_units rank]
        exact withSign_mono rankOfUnits_mono rankOfUnits_zero ordered

/-- A number that is not above an integer is not above the integer's nearest number. -/
theorem isLE_ofInt {number : Double} {units : Int} {value : Int} (isUnits : number.exactUnits? = some units)
    (ordered : units ≤ value * unitsOfOne) : number.isLE (ofInt value) = true := by
  obtain ⟨place, isPlace, notAbove, -⟩ := place_beside_ofInt isUnits value
  exact isLE_iff.mpr ⟨_, _, isPlace, place_ofInt value, notAbove ordered⟩

/-- A number that is not below an integer is not below the integer's nearest number. -/
theorem ofInt_isLE {number : Double} {units : Int} {value : Int} (isUnits : number.exactUnits? = some units)
    (ordered : value * unitsOfOne ≤ units) : (ofInt value).isLE number = true := by
  obtain ⟨place, isPlace, -, notBelow⟩ := place_beside_ofInt isUnits value
  exact isLE_iff.mpr ⟨_, _, place_ofInt value, isPlace, notBelow ordered⟩

theorem ofInt_mono {low high : Int} (ordered : low ≤ high) : (ofInt low).isLE (ofInt high) = true :=
  isLE_iff.mpr ⟨_, _, place_ofInt low, place_ofInt high, integerPlace_le ordered⟩

/-- The whole part of every number is short: its bits are among the significand's. -/
theorem isShort_wholePart (rank : Nat) (negative : Bool) :
    IsShort (withSign negative (units rank / unitsOfOne)) := by
  obtain ⟨ones, -, isOne⟩ := exists_unitsOfOne
  obtain ⟨dropped, significand, rfl, full, small⟩ := exists_scale rank
  rw [binade_eq] at small
  rw [IsShort, natAbs_withSign, units_scaled full (by rw [binade_eq]; omega), isOne]
  rcases Nat.le_total ones dropped with many | few
  · refine ⟨significand, dropped - ones, by omega, ?_⟩
    rw [← Nat.sub_add_cancel many, Nat.pow_add, ← Nat.mul_assoc, Nat.mul_div_cancel _ (Nat.two_pow_pos ones),
      Nat.sub_add_cancel many]
  · -- the point is within the significand
    refine ⟨significand * 2 ^ dropped / 2 ^ ones, 0, ?_, by rw [Nat.pow_zero, Nat.mul_one]⟩
    have cut : significand * 2 ^ dropped / 2 ^ ones ≤ significand :=
      Nat.div_le_of_le_mul ((Nat.mul_comm _ _).le.trans
        (Nat.mul_le_mul_right significand (Nat.pow_le_pow_right (by decide) few)))
    omega

/-- What is left of an integer that is sent through its nearest number. -/
def throughNumber (value : Int64) : Int64 :=
  (ofInt value.toInt).toInt64

/-- Cutting off gives a short integer, or the largest one where a larger number is cut off. -/
theorem isShort_toInt64 (number : Double) :
    IsShort number.toInt64.toInt ∨ number.toInt64 = Int64.maxValue := by
  have most : Int64.maxValue.toInt = 9223372036854775807 := rfl
  have least : Int64.minValue.toInt = -9223372036854775808 := rfl
  cases number with
  | nan => exact .inl ⟨0, 0, by decide, rfl⟩
  | signed negative rank =>
      have isCut := toInt_toInt64 negative rank
      have short := isShort_wholePart rank negative
      rw [clamped] at isCut
      by_cases above : Int64.maxValue.toInt < withSign negative (units rank / unitsOfOne)
      · exact .inr (Int64.toInt_inj.mp (by omega))
      · left
        by_cases below : withSign negative (units rank / unitsOfOne) < Int64.minValue.toInt
        · have isLeast : (signed negative rank).toInt64.toInt = -2 ^ 63 := by omega
          rw [isLeast]
          exact ⟨1, 63, by decide, by decide⟩
        · have kept : (signed negative rank).toInt64.toInt =
              withSign negative (units rank / unitsOfOne) := by omega
          rwa [kept]

theorem natAbs_toInt_le (value : Int64) : value.toInt.natAbs ≤ 2 ^ 64 := by
  have := value.le_toInt
  have := value.toInt_lt
  omega

theorem throughNumber_of_isShort {value : Int64} (short : IsShort value.toInt) :
    throughNumber value = value := by
  refine toInt64_of_exactUnits ?_
  have isUnits := units_integerRank short (natAbs_toInt_le value)
  calc (ofInt value.toInt).exactUnits?
    _ = some (withSign (value.toInt < 0) (units (integerRank value.toInt.natAbs))) := rfl
    _ = some (value.toInt * unitsOfOne) := by rw [isUnits, withSign_units]

/-- Short integers come back as they are, and so does the largest one, since its nearest number is cut off
again. No other integer does. -/
theorem throughNumber_eq_self_iff (value : Int64) :
    throughNumber value = value ↔ IsShort value.toInt ∨ value = Int64.maxValue := by
  constructor
  · intro kept
    rw [← kept]
    exact isShort_toInt64 _
  · rintro (short | rfl)
    · exact throughNumber_of_isShort short
    · decide +kernel

theorem throughNumber_mono {low high : Int64} (ordered : low ≤ high) :
    throughNumber low ≤ throughNumber high :=
  toInt64_le (ofInt_mono (Int64.le_iff_toInt_le.mp ordered))

end Double

end Statute
