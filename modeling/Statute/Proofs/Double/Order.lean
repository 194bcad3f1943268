/-
This file proves that the order of numbers is that of their exact sizes, that larger and smaller operands
stay within bounds in this order, and that the nearest numbers of integers are in the order of these.
-/

import Mathlib.Order.Monotone.Basic
import Statute.Proofs.Double.Rounding

namespace Statute

namespace Double

/-- A size with its sign. -/
def withSign (negative : Bool) (size : Nat) : Int :=
  if negative then -(size : Int) else size

@[simp]
theorem withSign_true (size : Nat) : withSign true size = -(size : Int) :=
  rfl

@[simp]
theorem withSign_false (size : Nat) : withSign false size = size :=
  rfl

theorem withSign_mul (negative : Bool) (size factor : Nat) :
    withSign negative (size * factor) = withSign negative size * factor := by
  cases negative with
  | false => exact Int.natCast_mul size factor
  | true => rw [withSign_true, withSign_true, Int.natCast_mul, Int.neg_mul]

theorem withSign_tdiv (negative : Bool) (size divisor : Nat) :
    (withSign negative size).tdiv divisor = withSign negative (size / divisor) := by
  cases negative with
  | false => exact (Int.ofNat_tdiv size divisor).symm
  | true => rw [withSign_true, withSign_true, Int.neg_tdiv, Int.ofNat_tdiv]

theorem natAbs_withSign (negative : Bool) (size : Nat) : (withSign negative size).natAbs = size := by
  cases negative <;> simp

theorem withSign_natAbs (value : Int) : withSign (value < 0) value.natAbs = value := by
  by_cases negative : value < 0
  · rw [decide_eq_true negative, withSign_true]
    omega
  · rw [decide_eq_false negative, withSign_false]
    omega

theorem withSign_inj {first second : Bool} {size other : Nat}
    (same : withSign first size = withSign second other) : size = other ∧ (0 < size → first = second) := by
  cases first <;> cases second <;> simp only [withSign_true, withSign_false] at same <;>
    simp <;> omega

/-- Sizes that are mapped in order stay in order with their signs. -/
theorem withSign_mono {map : Nat → Nat} (mono : Monotone map) (zero : map 0 = 0)
    {first second : Bool} {size other : Nat} (ordered : withSign first size ≤ withSign second other) :
    withSign first (map size) ≤ withSign second (map other) := by
  cases first <;> cases second <;> simp only [withSign_true, withSign_false] at *
  · exact Int.ofNat_le.mpr (mono (Int.ofNat_le.mp ordered))
  · obtain ⟨rfl, rfl⟩ : size = 0 ∧ other = 0 := by omega
    omega
  · omega
  · have reversed := mono (show other ≤ size by omega)
    omega

/-- Sizes that are mapped in strict order keep their order both ways. -/
theorem withSign_le_iff {map : Nat → Nat} (mono : StrictMono map) (zero : map 0 = 0)
    {first second : Bool} {size other : Nat} :
    withSign first (map size) ≤ withSign second (map other) ↔
      withSign first size ≤ withSign second other := by
  refine ⟨fun mapped => ?_, withSign_mono mono.monotone zero⟩
  have sizes := mono.le_iff_le (a := size) (b := other)
  have others := mono.le_iff_le (a := other) (b := size)
  have sizeZero := mono.injective.eq_iff (a := size) (b := 0)
  have otherZero := mono.injective.eq_iff (a := other) (b := 0)
  rw [zero] at sizeZero otherZero
  cases first <;> cases second <;> simp only [withSign_true, withSign_false] at * <;> omega

@[simp]
theorem place_signed (negative : Bool) (rank : Fin (infinityRank + 1)) :
    (signed negative rank).place = some (withSign negative rank) :=
  rfl

@[simp]
theorem place_nan : nan.place = none :=
  rfl

/-- The number of units of a number, with its sign. Infinity has more units than every other number. -/
def exactUnits? : Double → Option Int
  | nan => none
  | signed negative rank => some (signedUnits negative rank)

theorem signedUnits_eq (negative : Bool) (rank : Nat) :
    signedUnits negative rank = withSign negative (units rank) :=
  rfl

theorem isLE_iff {first second : Double} :
    first.isLE second = true ↔
      ∃ low high, first.place = some low ∧ second.place = some high ∧ low ≤ high := by
  rw [isLE, isLT, numericEq, compare]
  cases first.place with
  | none => simp
  | some low =>
      cases second.place with
      | none => simp
      | some high => simp [Int.compare_eq_lt, Int.le_iff_lt_or_eq]

/-- Numbers are ordered as their exact units are. -/
theorem isLE_iff_exactUnits {first second : Double} :
    first.isLE second = true ↔
      ∃ low high, first.exactUnits? = some low ∧ second.exactUnits? = some high ∧ low ≤ high := by
  rw [isLE_iff]
  cases first with
  | nan => simp [exactUnits?]
  | signed negative rank =>
      cases second with
      | nan => simp [exactUnits?]
      | signed otherNegative other =>
          simp [exactUnits?, signedUnits_eq, withSign_le_iff units_strictMono rfl]

theorem compare_of_place {first second : Double} {low high : Int} (isLow : first.place = some low)
    (isHigh : second.place = some high) : first.compare second = some (Ord.compare low high) := by
  rw [compare, isLow, isHigh]

theorem isLE_refl {number : Double} (isNumber : number.isNaN = false) : number.isLE number = true := by
  cases number with
  | nan => cases isNumber
  | signed negative rank => exact isLE_iff.mpr ⟨_, _, rfl, rfl, le_rfl⟩

theorem isLE_of_isLT {first second : Double} (below : first.isLT second = true) :
    first.isLE second = true := by
  rw [isLE, below, Bool.true_or]

theorem exactUnits?_nonpos {number : Double} (notPositive : number.isLE zero = true) :
    ∃ units, number.exactUnits? = some units ∧ units ≤ 0 := by
  obtain ⟨units, none, isUnits, isZero, below⟩ := isLE_iff_exactUnits.mp notPositive
  obtain rfl : none = 0 := (Option.some.inj isZero).symm
  exact ⟨units, isUnits, below⟩

theorem exactUnits?_nonneg {number : Double} (unsigned : zero.isLE number = true) :
    ∃ units, number.exactUnits? = some units ∧ 0 ≤ units := by
  obtain ⟨none, units, isZero, isUnits, above⟩ := isLE_iff_exactUnits.mp unsigned
  obtain rfl : none = 0 := (Option.some.inj isZero).symm
  exact ⟨units, isUnits, above⟩

/-- The larger operand is not below a bound, whatever the other operand is. -/
theorem isLE_max_right (number : Double) {least : Double} (isNumber : least.isNaN = false) :
    least.isLE (number.max least) = true := by
  rw [Double.max, isNumber, Bool.false_or]
  split
  case isTrue below => exact isLE_of_isLT below
  case isFalse => exact isLE_refl isNumber

theorem min_isLE_right (number : Double) {most : Double} (isNumber : most.isNaN = false) :
    (number.min most).isLE most = true := by
  rw [Double.min, isNumber, Bool.false_or]
  split
  case isTrue below => exact isLE_of_isLT below
  case isFalse => exact isLE_refl isNumber

/-- The smaller operand is not below a bound that neither operand is below. -/
theorem isLE_min {least first second : Double} (isFirst : least.isLE first = true)
    (isSecond : least.isLE second = true) : least.isLE (first.min second) = true := by
  rw [Double.min]
  split
  · exact isFirst
  · exact isSecond

/-- Of two numbers one is at most the other. -/
theorem isLE_of_not_isLT {first second : Double} (isFirst : first.isNaN = false)
    (isSecond : second.isNaN = false) (notBelow : first.isLT second = false) :
    second.isLE first = true := by
  cases first with
  | nan => cases isFirst
  | signed negative rank =>
      cases second with
      | nan => cases isSecond
      | signed otherNegative other =>
          refine isLE_iff.mpr ⟨_, _, rfl, rfl, not_lt.mp fun below => ?_⟩
          rw [isLT, compare_of_place rfl rfl, Int.compare_eq_lt.mpr below] at notBelow
          cases notBelow

theorem min_isLE_left {first : Double} (isNumber : first.isNaN = false) (second : Double) :
    (first.min second).isLE first = true := by
  rw [Double.min]
  split
  case isTrue => exact isLE_refl isNumber
  case isFalse above =>
    obtain ⟨isSecond, notBelow⟩ := Bool.or_eq_false_iff.mp (Bool.eq_false_iff.mpr above)
    exact isLE_of_not_isLT isNumber isSecond notBelow

theorem isLE_max_left {first : Double} (isNumber : first.isNaN = false) (second : Double) :
    first.isLE (first.max second) = true := by
  rw [Double.max]
  split
  case isTrue => exact isLE_refl isNumber
  case isFalse above =>
    obtain ⟨isSecond, notBelow⟩ := Bool.or_eq_false_iff.mp (Bool.eq_false_iff.mpr above)
    exact isLE_of_not_isLT isSecond isNumber notBelow

/-- A rank that stops at infinity. -/
def limited (rank : Nat) : Nat :=
  Min.min rank infinityRank

theorem limited_mono : Monotone limited :=
  fun _ _ ordered => min_le_min_right infinityRank ordered

@[simp]
theorem place_ofRank (negative : Bool) (rank : Nat) :
    (ofRank negative rank).place = some (withSign negative (limited rank)) :=
  rfl

/-- The rank of an integer of a size. -/
def integerRank (size : Nat) : Nat :=
  limited (wholeRank size)

theorem integerRank_mono : Monotone integerRank :=
  limited_mono.comp wholeRank_mono

theorem integerRank_zero : integerRank 0 = 0 := by
  rw [integerRank, wholeRank_zero]
  rfl

theorem integerRank_pos {size : Nat} (positive : 0 < size) : 0 < integerRank size :=
  Nat.lt_min.mpr ⟨wholeRank_pos positive, by decide⟩

theorem integerRank_eq {size : Nat} (small : size ≤ 2 ^ 64) : integerRank size = wholeRank size :=
  min_eq_left (wholeRank_lt_infinity small).le

/-- The place of an integer in the order of all numbers. -/
def integerPlace (value : Int) : Int :=
  withSign (value < 0) (integerRank value.natAbs)

theorem place_ofInt (value : Int) : (ofInt value).place = some (integerPlace value) :=
  rfl

theorem integerPlace_le {first second : Int} (ordered : first ≤ second) :
    integerPlace first ≤ integerPlace second := by
  refine withSign_mono integerRank_mono integerRank_zero ?_
  rwa [withSign_natAbs, withSign_natAbs]

/-- Integers at one place have one sign and one rank. -/
theorem ranks_of_integerPlace_eq {first second : Int} (same : integerPlace first = integerPlace second) :
    decide (first < 0) = decide (second < 0) ∧
      integerRank first.natAbs = integerRank second.natAbs := by
  obtain ⟨ranks, signs⟩ := withSign_inj same
  refine ⟨?_, ranks⟩
  rcases Nat.eq_zero_or_pos first.natAbs with isZero | positive
  · -- the only integer without a rank is zero
    have otherZero : second.natAbs = 0 := by
      refine Nat.eq_zero_of_not_pos fun positive => (integerRank_pos positive).ne ?_
      rw [← ranks, isZero, integerRank_zero]
    rw [Int.natAbs_eq_zero.mp isZero, Int.natAbs_eq_zero.mp otherZero]
  · exact signs (integerRank_pos positive)

/-- Integers have the same nearest number if they have the same place. -/
theorem ofInt_eq_iff {first second : Int} :
    ofInt first = ofInt second ↔ integerPlace first = integerPlace second := by
  constructor
  · intro same
    have places := congrArg place same
    rwa [place_ofInt, place_ofInt, Option.some_inj] at places
  · intro same
    obtain ⟨signs, ranks⟩ := ranks_of_integerPlace_eq same
    have fields {negative other : Bool} {rank otherRank : Fin (infinityRank + 1)}
        (sameSign : negative = other) (sameRank : rank.val = otherRank.val) :
        signed negative rank = signed other otherRank := by
      rw [sameSign, Fin.ext sameRank]
    exact fields signs ranks

/-- The nearest numbers of two integers are equal, or else they compare as the integers do. -/
theorem compare_ofInt (first second : Int) :
    (ofInt first).compare (ofInt second) =
      some (if ofInt first = ofInt second then .eq else Ord.compare first second) := by
  rw [compare_of_place (place_ofInt first) (place_ofInt second)]
  by_cases same : ofInt first = ofInt second
  · rw [if_pos same, ofInt_eq_iff.mp same, Int.compare_eq_eq.mpr rfl]
  · have differ : integerPlace first ≠ integerPlace second := fun places => same (ofInt_eq_iff.mpr places)
    rw [if_neg same]
    rcases Int.lt_trichotomy first second with below | rfl | above
    · have places := integerPlace_le below.le
      rw [Int.compare_eq_lt.mpr below, Int.compare_eq_lt.mpr (by omega)]
    · exact absurd rfl same
    · have places := integerPlace_le above.le
      rw [Int.compare_eq_gt.mpr above, Int.compare_eq_gt.mpr (by omega)]

/-- At most 53 bits are between the first and the last one that is set. -/
def IsShort (value : Int) : Prop :=
  ∃ significand places, significand ≤ 2 ^ 53 ∧ value.natAbs = significand * 2 ^ places

theorem units_integerRank {value : Int} (short : IsShort value) (small : value.natAbs ≤ 2 ^ 64) :
    units (integerRank value.natAbs) = value.natAbs * unitsOfOne := by
  obtain ⟨significand, places, isShort, isSize⟩ := short
  rw [integerRank_eq small, isSize, units_wholeRank isShort]

theorem integerRank_lt {size larger : Nat} (small : size < 2 ^ 53) (ordered : size < larger) :
    integerRank size < integerRank larger := by
  have inRange : size ≤ 2 ^ 64 := by omega
  rw [integerRank_eq inRange]
  exact Nat.lt_min.mpr ⟨wholeRank_lt small ordered, wholeRank_lt_infinity (by omega)⟩

/-- Integers with one nearest number are the same if one of them is below 53 bits, or if both are short. -/
theorem eq_of_ofInt_eq {first second : Int} (same : ofInt first = ofInt second)
    (apart : first.natAbs < 2 ^ 53 ∨ IsShort first ∧ IsShort second ∧
      first.natAbs ≤ 2 ^ 64 ∧ second.natAbs ≤ 2 ^ 64) : first = second := by
  obtain ⟨signs, ranks⟩ := ranks_of_integerPlace_eq (ofInt_eq_iff.mp same)
  rw [decide_eq_decide] at signs
  have sizes : first.natAbs = second.natAbs := by
    rcases apart with small | ⟨isFirst, isSecond, firstSmall, secondSmall⟩
    · rcases Nat.lt_trichotomy first.natAbs second.natAbs with below | equal | above
      · exact absurd ranks (integerRank_lt small below).ne
      · exact equal
      · exact absurd ranks (integerRank_lt (above.trans small) above).ne'
    · have isUnits := congrArg units ranks
      rw [units_integerRank isFirst firstSmall, units_integerRank isSecond secondSmall] at isUnits
      exact Nat.eq_of_mul_eq_mul_right unitsOfOne_pos isUnits
  omega

end Double

end Statute
