/-
This file proves that the numbers of a declared type lie between what rounding and cutting off make of
the type's bounds, and says when this is between the bounds themselves.
-/

import Statute.Proofs.Double.Places
import Statute.Rule.Constraint

namespace Statute

namespace Value

/-- The units of a numeric value, exactly. -/
def exactUnits? : Value → Option Int
  | int value => some (value.toInt * Double.unitsOfOne)
  | float value => value.exactUnits?
  | _ => none

/-- The order of numeric values, without rounding. -/
def IsAtMost (first second : Value) : Prop :=
  ∃ low high, first.exactUnits? = some low ∧ second.exactUnits? = some high ∧ low ≤ high

instance (first second : Value) : Decidable (IsAtMost first second) :=
  match isLow : first.exactUnits?, isHigh : second.exactUnits? with
  | some low, some high => decidable_of_iff (low ≤ high) (by simp [IsAtMost, isLow, isHigh])
  | none, _ => .isFalse (by simp [IsAtMost, isLow])
  | some _, none => .isFalse (by simp [IsAtMost, isHigh])

namespace IsAtMost

variable {first second third : Value}

theorem trans (left : IsAtMost first second) (right : IsAtMost second third) : IsAtMost first third := by
  obtain ⟨low, middle, isLow, isMiddle, below⟩ := left
  obtain ⟨other, high, isOther, isHigh, above⟩ := right
  obtain rfl : middle = other := Option.some.inj (isMiddle.symm.trans isOther)
  exact ⟨low, high, isLow, isHigh, below.trans above⟩

theorem floats {first second : Double} (ordered : first.isLE second = true) :
    IsAtMost (float first) (float second) :=
  Double.isLE_iff_exactUnits.mp ordered

theorem integers {first second : Int64} (ordered : first ≤ second) : IsAtMost (int first) (int second) :=
  ⟨_, _, rfl, rfl, Int.mul_le_mul_of_nonneg_right (Int64.le_iff_toInt_le.mp ordered) (Int.natCast_nonneg _)⟩

end IsAtMost

end Value

namespace TypeSpec

open Value (IsAtMost)

variable {spec : TypeSpec} {value : Value} {number least most : Double}

/-- The minimum is not above the maximum, where the type has both. -/
def IsOrdered (spec : TypeSpec) : Prop :=
  ∀ least most, spec.constraints.min = some least → spec.constraints.max = some most →
    least.isLE most = true

/-- A number between the bounds of the type. -/
def clamp (spec : TypeSpec) (number : Double) : Double :=
  let raised :=
    match spec.constraints.min with
    | some least => number.max least
    | none => number
  match spec.constraints.max with
  | some most => raised.min most
  | none => raised

/-- A number with the decimal places of the type. -/
def rounded (spec : TypeSpec) (number : Double) : Double :=
  match spec.constraints.precision with
  | some precision => number.roundTo (Constraints.places precision)
  | none => number

/-- True when the type gives a whole number for a value. -/
def makesWhole (spec : TypeSpec) (value : Value) : Bool :=
  spec.constraints.isMinorCurrency || spec.isType "int" ||
    value.int?.isSome && spec.constraints.precision.isNone

/-- What rounding and cutting off make of a number in the place of a value. -/
def settle (spec : TypeSpec) (value : Value) (number : Double) : Value :=
  if spec.makesWhole value then .int (spec.rounded number).toInt64 else .float (spec.rounded number)

theorem enforceNumber_eq (spec : TypeSpec) (value : Value) (number : Double) :
    spec.enforceNumber value number = spec.settle value (spec.clamp number) := by
  have isBounded : spec.bounded number = spec.rounded (spec.clamp number) := rfl
  unfold enforceNumber settle makesWhole
  rw [isBounded]
  cases spec.constraints.isMinorCurrency || spec.isType "int" <;> rfl

theorem enforce_null (notText : spec.isType "string" = false) :
    spec.enforce .null =
      if spec.isType "int" then .int 0 else if spec.isType "float" then .float Double.zero else .null := by
  rw [enforce, notText]
  rfl

theorem enforce_number (notText : spec.isType "string" = false) (isNumber : number? value = some number)
    (constrains : spec.constrainsNumbers = true) :
    spec.enforce value = spec.settle value (spec.clamp number) := by
  rw [← enforceNumber_eq]
  cases value with
  | null => simp [number?, Value.double?] at isNumber
  | _ => simp [enforce, notText, constrains, isNumber]

theorem isLE_clamp (ordered : spec.IsOrdered) (isMin : spec.constraints.min = some least)
    (isBound : least.isNaN = false) (number : Double) : least.isLE (spec.clamp number) = true := by
  unfold clamp
  rw [isMin]
  cases isMax : spec.constraints.max with
  | none => exact Double.isLE_max_right number isBound
  | some most =>
      exact Double.isLE_min (Double.isLE_max_right number isBound) (ordered least most isMin isMax)

theorem clamp_isLE (isMax : spec.constraints.max = some most) (isBound : most.isNaN = false)
    (number : Double) : (spec.clamp number).isLE most = true := by
  unfold clamp
  rw [isMax]
  exact Double.min_isLE_right _ isBound

/-- Rounding to the places of the type keeps the order of numbers, unless no number can be rounded to so
many places. -/
theorem rounded_cases (spec : TypeSpec) {first second : Double} (ordered : first.isLE second = true) :
    (spec.rounded first = .nan ∧ spec.rounded second = .nan) ∨
      (spec.rounded first).isLE (spec.rounded second) = true := by
  unfold rounded
  split
  · exact (Double.roundTo_cases _).imp (fun isNaN => ⟨isNaN first, isNaN second⟩)
      fun mono => mono first second ordered
  · exact .inr ordered

/-- Rounding and cutting off keep the order of numbers, as far as they leave any. -/
theorem settle_mono {first second : Double} (ordered : first.isLE second = true)
    (isResult : (spec.settle value first).exactUnits?.isSome = true ∨
      (spec.settle value second).exactUnits?.isSome = true) :
    IsAtMost (spec.settle value first) (spec.settle value second) := by
  unfold settle
  split
  case isTrue =>
    refine .integers ?_
    rcases rounded_cases spec ordered with ⟨isFirst, isSecond⟩ | below
    · rw [isFirst, isSecond]
      exact Int64.le_refl _
    · exact Double.toInt64_le below
  case isFalse notWhole =>
    have isFloat (number : Double) : spec.settle value number = .float (spec.rounded number) :=
      if_neg notWhole
    rcases rounded_cases spec ordered with ⟨isFirst, isSecond⟩ | below
    · rw [isFloat, isFloat, isFirst, isSecond] at isResult
      exact absurd isResult (by decide)
    · exact .floats below

/-- A bound that rounding to the places of the type does not change. -/
def HasPlaces (spec : TypeSpec) (bound : Double) : Prop :=
  ∀ precision, spec.constraints.precision = some precision →
    precision ≤ 22 ∧ bound.HasPlaces precision

theorem rounded_of_hasPlaces (hasPlaces : spec.HasPlaces number) : spec.rounded number = number := by
  unfold rounded
  split
  case h_1 precision isPrecision =>
    obtain ⟨few, exact⟩ := hasPlaces precision isPrecision
    have isPlaces : Constraints.places precision = precision :=
      Int.bmod_eq_of_le (by simp [UInt32.size]) (by simp [UInt32.size]; omega)
    rw [isPlaces, Double.roundTo_of_hasPlaces few exact]
  case h_2 => rfl

/-- A whole number of 64 bits. -/
def IsWhole (number : Double) : Prop :=
  ∃ whole : Int64, number.exactUnits? = some (whole.toInt * Double.unitsOfOne)

theorem settle_of_hasPlaces (hasPlaces : spec.HasPlaces number) :
    spec.settle value number = if spec.makesWhole value then .int number.toInt64 else .float number := by
  rw [settle, rounded_of_hasPlaces hasPlaces]

theorem exactUnits?_of_isWhole (whole : IsWhole number) :
    number.exactUnits? = some (number.toInt64.toInt * Double.unitsOfOne) := by
  obtain ⟨value, exact⟩ := whole
  rw [exact, Double.toInt64_of_exactUnits exact]

/-- A minimum without too many places stays where it is, or is raised. -/
theorem isAtMost_settle (hasPlaces : spec.HasPlaces least) (isBound : least.isNaN = false)
    (isWhole : spec.makesWhole value = true → IsWhole least ∨ least.isLE Double.zero = true) :
    IsAtMost (.float least) (spec.settle value least) := by
  rw [settle_of_hasPlaces hasPlaces]
  split
  case isTrue whole =>
    rcases isWhole whole with exact | notPositive
    · exact ⟨_, _, exactUnits?_of_isWhole exact, rfl, le_rfl⟩
    · obtain ⟨units, isUnits, isNegative⟩ := Double.exactUnits?_nonpos notPositive
      exact ⟨units, _, isUnits, rfl, Double.units_le_toInt64 isUnits isNegative⟩
  case isFalse => exact .floats (Double.isLE_refl isBound)

/-- A maximum without too many places stays where it is, or is lowered. -/
theorem settle_isAtMost_self (hasPlaces : spec.HasPlaces most) (isBound : most.isNaN = false)
    (isWhole : spec.makesWhole value = true → IsWhole most ∨ Double.zero.isLE most = true) :
    IsAtMost (spec.settle value most) (.float most) := by
  rw [settle_of_hasPlaces hasPlaces]
  split
  case isTrue whole =>
    rcases isWhole whole with exact | unsigned
    · exact ⟨_, _, rfl, exactUnits?_of_isWhole exact, le_rfl⟩
    · obtain ⟨units, isUnits, isPositive⟩ := Double.exactUnits?_nonneg unsigned
      exact ⟨_, units, rfl, isUnits, Double.toInt64_le_units isUnits isPositive⟩
  case isFalse => exact .floats (Double.isLE_refl isBound)

/-- Results are not below what rounding and cutting off make of the minimum. -/
theorem settle_isAtMost_enforce (notText : spec.isType "string" = false) (ordered : spec.IsOrdered)
    (isNumber : number? value = some number) (isResult : (spec.enforce value).exactUnits?.isSome = true)
    (isMin : spec.constraints.min = some least) (isBound : least.isNaN = false) :
    IsAtMost (spec.settle value least) (spec.enforce value) := by
  have isEnforced := enforce_number notText isNumber (by simp [constrainsNumbers, isMin])
  rw [isEnforced] at isResult ⊢
  exact settle_mono (isLE_clamp ordered isMin isBound number) (.inr isResult)

/-- Results are not above what rounding and cutting off make of the maximum. -/
theorem enforce_isAtMost_settle (notText : spec.isType "string" = false)
    (isNumber : number? value = some number) (isResult : (spec.enforce value).exactUnits?.isSome = true)
    (isMax : spec.constraints.max = some most) (isBound : most.isNaN = false) :
    IsAtMost (spec.enforce value) (spec.settle value most) := by
  have isEnforced := enforce_number notText isNumber (by simp [constrainsNumbers, isMax])
  rw [isEnforced] at isResult ⊢
  exact settle_mono (clamp_isLE isMax isBound number) (.inl isResult)

theorem clamp_least_isLE (isMin : spec.constraints.min = some least) (isBound : least.isNaN = false) :
    (spec.clamp least).isLE least = true := by
  have raised : least.max least = least := by
    rw [Double.max, ite_self]
  unfold clamp
  rw [isMin]
  dsimp only
  rw [raised]
  split
  · exact Double.min_isLE_left isBound _
  · exact Double.isLE_refl isBound

theorem isLE_clamp_most (isMax : spec.constraints.max = some most) (isBound : most.isNaN = false) :
    most.isLE (spec.clamp most) = true := by
  unfold clamp
  rw [isMax]
  refine Double.isLE_min ?_ (Double.isLE_refl isBound)
  split
  · exact Double.isLE_max_left isBound _
  · exact Double.isLE_refl isBound

/-- The minimum itself gives what rounding and cutting off make of it, so results may reach it. -/
theorem enforce_least (notText : spec.isType "string" = false)
    (isResult : (spec.enforce (.float least)).exactUnits?.isSome = true)
    (isMin : spec.constraints.min = some least) (isBound : least.isNaN = false) :
    IsAtMost (spec.enforce (.float least)) (spec.settle (.float least) least) := by
  have isEnforced : spec.enforce (.float least) = spec.settle (.float least) (spec.clamp least) :=
    enforce_number notText rfl (by simp [constrainsNumbers, isMin])
  rw [isEnforced] at isResult ⊢
  exact settle_mono (clamp_least_isLE isMin isBound) (.inl isResult)

/-- The maximum itself gives what rounding and cutting off make of it, so results may reach it. -/
theorem enforce_most (notText : spec.isType "string" = false)
    (isResult : (spec.enforce (.float most)).exactUnits?.isSome = true)
    (isMax : spec.constraints.max = some most) (isBound : most.isNaN = false) :
    IsAtMost (spec.settle (.float most) most) (spec.enforce (.float most)) := by
  have isEnforced : spec.enforce (.float most) = spec.settle (.float most) (spec.clamp most) :=
    enforce_number notText rfl (by simp [constrainsNumbers, isMax])
  rw [isEnforced] at isResult ⊢
  exact settle_mono (isLE_clamp_most isMax isBound) (.inr isResult)

/-- The numbers of a type lie between what rounding and cutting off make of its bounds, and the bounds
themselves give these ends. So the numbers lie between the bounds unless a bound is moved outwards,
which never happens to a bound that has no more places than the type and, where the type makes numbers
whole, is whole itself or is moved toward zero into the bounds. Null has a default of its own, which
the bounds do not affect. -/
theorem enforce_bounds (spec : TypeSpec) (value : Value) (notText : spec.isType "string" = false)
    (ordered : spec.IsOrdered) :
    (value = .null → spec.enforce value =
      if spec.isType "int" then .int 0 else if spec.isType "float" then .float Double.zero else .null) ∧
    ((number? value).isSome = true → (spec.enforce value).exactUnits?.isSome = true →
      (∀ least, spec.constraints.min = some least → least.isNaN = false →
        IsAtMost (spec.settle value least) (spec.enforce value) ∧
        (value = .float least → IsAtMost (spec.enforce value) (spec.settle value least)) ∧
        (IsAtMost (.float least) (spec.settle value least) →
          IsAtMost (.float least) (spec.enforce value)) ∧
        (spec.HasPlaces least →
          (spec.makesWhole value = true → IsWhole least ∨ least.isLE Double.zero = true) →
          IsAtMost (.float least) (spec.enforce value))) ∧
      (∀ most, spec.constraints.max = some most → most.isNaN = false →
        IsAtMost (spec.enforce value) (spec.settle value most) ∧
        (value = .float most → IsAtMost (spec.settle value most) (spec.enforce value)) ∧
        (IsAtMost (spec.settle value most) (.float most) →
          IsAtMost (spec.enforce value) (.float most)) ∧
        (spec.HasPlaces most →
          (spec.makesWhole value = true → IsWhole most ∨ Double.zero.isLE most = true) →
          IsAtMost (spec.enforce value) (.float most)))) := by
  refine ⟨?null, fun isNumeric isResult => ?numeric⟩
  case null =>
    rintro rfl
    exact enforce_null notText
  case numeric =>
    obtain ⟨number, isNumber⟩ := Option.isSome_iff_exists.mp isNumeric
    refine ⟨fun least isMin isBound => ?minimum, fun most isMax isBound => ?maximum⟩
    case minimum =>
      have above := settle_isAtMost_enforce notText ordered isNumber isResult isMin isBound
      refine ⟨above, ?_, fun kept => kept.trans above, fun hasPlaces isWhole =>
        (isAtMost_settle hasPlaces isBound isWhole).trans above⟩
      rintro rfl
      exact enforce_least notText isResult isMin isBound
    case maximum =>
      have below := enforce_isAtMost_settle notText isNumber isResult isMax isBound
      refine ⟨below, ?_, fun kept => below.trans kept, fun hasPlaces isWhole =>
        below.trans (settle_isAtMost_self hasPlaces isBound isWhole)⟩
      rintro rfl
      exact enforce_most notText isResult isMax isBound

/-- An amount of cents from ten to a hundred. -/
def cents : TypeSpec :=
  ⟨some "amount", ⟨some "eurocent", some 0, some (Double.ofInt 10), some (Double.ofInt 100)⟩⟩

theorem enforce_bounds_cents :
    IsAtMost (.float (Double.ofInt 10)) (cents.enforce (.int 250)) ∧
      IsAtMost (cents.enforce (.int 250)) (.float (Double.ofInt 100)) := by
  have ordered : cents.IsOrdered := by
    rintro least most ⟨⟩ ⟨⟩
    decide +kernel
  have hasPlaces (number : Double) (exact : number.HasPlaces 0) : cents.HasPlaces number := by
    rintro precision ⟨⟩
    exact ⟨by decide, exact⟩
  obtain ⟨above, below⟩ := (enforce_bounds cents (.int 250) (by decide) ordered).2 (by decide +kernel)
    (by decide +kernel)
  constructor
  · refine (above (Double.ofInt 10) rfl (by decide +kernel)).2.2.2 (hasPlaces _ ⟨10, ?_⟩) fun _ =>
      .inl ⟨10, ?_⟩
    · decide +kernel
    · decide +kernel
  · refine (below (Double.ofInt 100) rfl (by decide +kernel)).2.2.2 (hasPlaces _ ⟨100, ?_⟩) fun _ =>
      .inl ⟨100, ?_⟩
    · decide +kernel
    · decide +kernel

/-- A type that has a minimum, but no maximum. -/
def atLeast (typeName : String) (precision : Option Nat) (least : Double) : TypeSpec :=
  ⟨some typeName, ⟨none, precision, some least, none⟩⟩

/-- The default of null, rounding and cutting off each give a zero that is below the minimum. -/
theorem enforce_leaves_bounds :
    (((atLeast "int" none (Double.ofInt 1)).enforce .null).exactUnits? = some 0 ∧
      ¬ IsAtMost (.float (Double.ofInt 1)) ((atLeast "int" none (Double.ofInt 1)).enforce .null)) ∧
    (((atLeast "float" (some 0) (Double.ofRatio false 2 5)).enforce (.int 0)).exactUnits? = some 0 ∧
      ¬ IsAtMost (.float (Double.ofRatio false 2 5))
        ((atLeast "float" (some 0) (Double.ofRatio false 2 5)).enforce (.int 0))) ∧
    (((atLeast "int" none (Double.ofRatio false 1 2)).enforce (.int 0)).exactUnits? = some 0 ∧
      ¬ IsAtMost (.float (Double.ofRatio false 1 2))
        ((atLeast "int" none (Double.ofRatio false 1 2)).enforce (.int 0))) := by
  decide +kernel

end TypeSpec

end Statute
