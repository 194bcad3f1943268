/-
This file proves that multiplication by a positive number, rounding to decimal places and cutting off keep
the order of numbers.
-/

import Statute.Proofs.Double.Order

namespace Statute

namespace Double

variable {first second : Double}

/-- An operation that keeps the sign, or turns it for zeros only, and maps the rank. -/
def MapsRanks (operation : Double → Double) (map : Nat → Nat) : Prop :=
  ∀ negative rank, (operation (signed negative rank)).place = some (withSign negative (map rank))

theorem MapsRanks.isLE {operation : Double → Double} {map : Nat → Nat}
    (maps : MapsRanks operation map) (mono : Monotone map) (zero : map 0 = 0)
    (ordered : first.isLE second = true) : (operation first).isLE (operation second) = true := by
  obtain ⟨low, high, isLow, isHigh, below⟩ := isLE_iff.mp ordered
  cases first with
  | nan => cases isLow
  | signed negative rank =>
      cases second with
      | nan => cases isHigh
      | signed otherNegative other =>
          cases isLow
          cases isHigh
          exact isLE_iff.mpr ⟨_, _, maps negative rank, maps otherNegative other,
            withSign_mono mono zero below⟩

/-- Infinity is kept, and no other rank goes beyond it. -/
def extended (map : Nat → Nat) (rank : Nat) : Nat :=
  if infinityRank ≤ rank then infinityRank else limited (map rank)

theorem extended_mono {map : Nat → Nat} (mono : Monotone map) : Monotone (extended map) := by
  intro low high ordered
  unfold extended
  split
  · rw [if_pos (by omega)]
  · split
    · exact min_le_right _ _
    · exact limited_mono (mono ordered)

theorem extended_zero {map : Nat → Nat} (zero : map 0 = 0) : extended map 0 = 0 := by
  rw [extended, if_neg (by decide), zero]
  rfl

theorem infinityRank_pos : infinityRank ≠ 0 := by
  decide

theorem mul_mapsRanks {factor : Fin (infinityRank + 1)} (positive : factor.val ≠ 0)
    (finite : factor.val ≠ infinityRank) :
    MapsRanks (· * signed false factor)
      (extended fun rank => nearestRank (units rank * units factor) unitsOfOne) := by
  intro negative rank
  have isProduct : signed negative rank * signed false factor =
      mul (signed negative rank) (signed false factor) := rfl
  by_cases infinite : rank.val = infinityRank
  · simp [isProduct, mul, extended, infinite, positive, infinityRank_pos, limited]
  · have below : ¬ infinityRank ≤ rank.val := by omega
    simp [isProduct, mul, extended, infinite, finite, below, ofUnits]

theorem div_mapsRanks {divisor : Fin (infinityRank + 1)} (positive : divisor.val ≠ 0)
    (finite : divisor.val ≠ infinityRank) :
    MapsRanks (· / signed false divisor)
      (extended fun rank => nearestRank (units rank * unitsOfOne) (units divisor)) := by
  intro negative rank
  have isQuotient : signed negative rank / signed false divisor =
      div (signed negative rank) (signed false divisor) := rfl
  by_cases infinite : rank.val = infinityRank
  · simp [isQuotient, div, extended, infinite, finite, limited]
  · have below : ¬ infinityRank ≤ rank.val := by omega
    simp [isQuotient, div, extended, infinite, finite, positive, below, ofUnits]

theorem round_mapsRanks :
    MapsRanks round (extended fun rank => wholeRank ((2 * units rank + unitsOfOne) / (2 * unitsOfOne))) := by
  intro negative rank
  by_cases infinite : rank.val = infinityRank
  · simp [round, extended, infinite]
  · have below : ¬ infinityRank ≤ rank.val := by omega
    simp [round, extended, infinite, below, ofRatio, ofUnits, wholeRank]

/-- Rounding to a whole number gives no rank to zero. -/
theorem roundedWhole_zero : wholeRank ((2 * units 0 + unitsOfOne) / (2 * unitsOfOne)) = 0 := by
  have one := unitsOfOne_pos
  rw [units_zero, Nat.div_eq_of_lt (by omega), wholeRank_zero]

theorem isLE_mul {factor : Fin (infinityRank + 1)} (positive : factor.val ≠ 0)
    (finite : factor.val ≠ infinityRank) (ordered : first.isLE second = true) :
    (first * signed false factor).isLE (second * signed false factor) = true := by
  refine (mul_mapsRanks positive finite).isLE (extended_mono ?_) (extended_zero ?_) ordered
  · exact (nearestRank_mono unitsOfOne).comp fun _ _ below =>
      Nat.mul_le_mul_right _ (units_strictMono.monotone below)
  · rw [units_zero, Nat.zero_mul, nearestRank_zero]

theorem isLE_div {divisor : Fin (infinityRank + 1)} (positive : divisor.val ≠ 0)
    (finite : divisor.val ≠ infinityRank) (ordered : first.isLE second = true) :
    (first / signed false divisor).isLE (second / signed false divisor) = true := by
  refine (div_mapsRanks positive finite).isLE (extended_mono ?_) (extended_zero ?_) ordered
  · exact (nearestRank_mono (units divisor)).comp fun _ _ below =>
      Nat.mul_le_mul_right _ (units_strictMono.monotone below)
  · rw [units_zero, Nat.zero_mul, nearestRank_zero]

theorem isLE_round (ordered : first.isLE second = true) : first.round.isLE second.round = true := by
  refine round_mapsRanks.isLE (extended_mono ?_) (extended_zero roundedWhole_zero) ordered
  refine wholeRank_mono.comp fun _ _ below => Nat.div_le_div_right ?_
  have units := units_strictMono.monotone below
  omega

/-- Not below zero, or no number. -/
def IsUnsigned : Double → Prop
  | nan => True
  | signed negative _ => negative = false

theorem IsUnsigned.mul : {first second : Double} → first.IsUnsigned → second.IsUnsigned →
    (first * second).IsUnsigned := by
  intro first second isFirst isSecond
  change (Double.mul first second).IsUnsigned
  cases first with
  | nan => trivial
  | signed negative rank =>
      cases second with
      | nan => trivial
      | signed otherNegative other =>
          cases isFirst
          cases isSecond
          unfold Double.mul
          dsimp only
          split
          · split
            · trivial
            · rfl
          · rfl

theorem IsUnsigned.div {first second : Double} (isFirst : first.IsUnsigned)
    (isSecond : second.IsUnsigned) : (first / second).IsUnsigned := by
  change (Double.div first second).IsUnsigned
  cases first with
  | nan => trivial
  | signed negative rank =>
      cases second with
      | nan => trivial
      | signed otherNegative other =>
          cases isFirst
          cases isSecond
          unfold Double.div
          dsimp only
          repeat' split
          all_goals trivial

theorem isUnsigned_powerSteps {result square : Double} (isResult : result.IsUnsigned)
    (isSquare : square.IsUnsigned) (exponent steps : Nat) :
    (powerSteps result square exponent steps).IsUnsigned := by
  induction steps generalizing result square exponent with
  | zero => exact isResult
  | succ steps inductionHypothesis =>
      refine inductionHypothesis ?_ (isSquare.mul isSquare) (exponent / 2)
      split
      · exact isResult.mul isSquare
      · exact isResult

theorem isUnsigned_power {base : Double} (isBase : base.IsUnsigned) (exponent : Int) :
    (power base exponent).IsUnsigned := by
  have isOne : (ofInt 1).IsUnsigned := rfl
  unfold power
  dsimp only
  split
  · exact isOne.div (isUnsigned_powerSteps isOne isBase _ _)
  · exact isUnsigned_powerSteps isOne isBase _ _

theorem isUnsigned_powerOfTen (exponent : Int) : (power (ofInt 10) exponent).IsUnsigned :=
  have isTen : (ofInt 10).IsUnsigned := rfl
  isUnsigned_power isTen exponent

theorem mul_nan (value : Double) : value * nan = nan := by
  cases value <;> rfl

theorem nan_div (divisor : Double) : nan / divisor = nan := by
  cases divisor <;> rfl

theorem isZero_ofRank (negative : Bool) : (ofRank negative 0).isZero = true := by
  cases negative <;> rfl

theorem isZero_signed {negative : Bool} {rank : Fin (infinityRank + 1)} :
    (signed negative rank).isZero = true ↔ rank.val = 0 :=
  beq_iff_eq

theorem round_isZero {value : Double} (isZero : value.isZero = true) : value.round.isZero = true := by
  cases value with
  | nan => cases isZero
  | signed negative rank =>
      have rankZero := isZero_signed.mp isZero
      have rounded : round (signed negative rank) =
          ofRank negative (wholeRank ((2 * units rank.val + unitsOfOne) / (2 * unitsOfOne))) :=
        if_neg (by rw [rankZero]; exact infinityRank_pos.symm)
      rw [rounded, rankZero, roundedWhole_zero, isZero_ofRank]

theorem zero_div {divisor : Fin (infinityRank + 1)} (zeroDivisor : divisor.val = 0) {value : Double}
    (isZero : value.isZero = true) : value / signed false divisor = nan := by
  cases value with
  | nan => cases isZero
  | signed negative rank =>
      change div (signed negative rank) (signed false divisor) = nan
      simp [div, isZero_signed.mp isZero, zeroDivisor, infinityRank_pos.symm]

/-- A factor without bounds or without size leaves nothing of a number. -/
theorem scaled_eq_nan {factor : Fin (infinityRank + 1)}
    (extreme : factor.val = 0 ∨ factor.val = infinityRank) (value : Double) :
    round (value * signed false factor) / signed false factor = nan := by
  cases value with
  | nan => exact nan_div _
  | signed negative rank =>
      have isProduct : signed negative rank * signed false factor =
          mul (signed negative rank) (signed false factor) := rfl
      rcases extreme with zeroFactor | infinite
      · by_cases unlimited : rank.val = infinityRank
        · rw [isProduct, mul, if_pos (.inl unlimited), if_pos (.inr zeroFactor)]
          exact nan_div _
        · refine zero_div zeroFactor (round_isZero ?_)
          have none : ¬ (rank.val = infinityRank ∨ factor.val = infinityRank) := by
            rw [zeroFactor]
            exact not_or.mpr ⟨unlimited, infinityRank_pos.symm⟩
          rw [isProduct, mul, if_neg none, zeroFactor, units_zero, Nat.mul_zero, ofUnits, nearestRank_zero,
            isZero_ofRank]
      · change div (round (mul (signed negative rank) (signed false factor))) (signed false factor) = nan
        by_cases rankZero : rank.val = 0
        · simp [mul, div, round, infinite, rankZero]
        · simp [mul, div, round, infinite, rankZero, infinityRank_pos, ofRank]

/-- Rounding to decimal places keeps the order, unless no number can be rounded to so many places. -/
theorem roundTo_cases (places : Int) :
    (∀ value, roundTo value places = nan) ∨
      ∀ first second : Double, first.isLE second = true →
        (first.roundTo places).isLE (second.roundTo places) = true := by
  have isUnsigned := isUnsigned_powerOfTen places
  unfold roundTo
  dsimp only
  cases isFactor : power (ofInt 10) places with
  | nan => exact .inl fun value => by rw [mul_nan]; rfl
  | signed negative factor =>
      rw [isFactor] at isUnsigned
      obtain rfl : negative = false := isUnsigned
      by_cases extreme : factor.val = 0 ∨ factor.val = infinityRank
      · exact .inl (scaled_eq_nan extreme)
      · obtain ⟨positive, finite⟩ := not_or.mp extreme
        exact .inr fun first second ordered =>
          isLE_div positive finite (isLE_round (isLE_mul positive finite ordered))

/-- An integer, or the nearest end of the range of 64 bits. -/
def clamped (value : Int) : Int :=
  Max.max Int64.minValue.toInt (Min.min value Int64.maxValue.toInt)

theorem clamped_le_clamped {first second : Int} (ordered : first ≤ second) :
    clamped first ≤ clamped second := by
  unfold clamped
  omega

theorem clamped_toInt (value : Int64) : clamped value.toInt = value.toInt := by
  rw [clamped, min_eq_left (Int64.toInt_le value), max_eq_right (Int64.minValue_le_toInt value)]

/-- A number is cut off toward zero and kept in the range of 64 bits. -/
theorem toInt_toInt64 (negative : Bool) (rank : Fin (infinityRank + 1)) :
    (signed negative rank).toInt64.toInt = clamped (withSign negative (units rank / unitsOfOne)) := by
  have least : Int64.minValue.toInt = -9223372036854775808 := rfl
  have most : Int64.maxValue.toInt = 9223372036854775807 := rfl
  unfold toInt64 clamped
  dsimp only
  generalize units rank.val / unitsOfOne = whole
  split
  · have kept : withSign negative whole = if negative then -(whole : Int) else whole := rfl
    have range : -9223372036854775808 ≤ withSign negative whole ∧
        withSign negative whole ≤ 9223372036854775807 := by
      cases negative <;> simp only [withSign_true, withSign_false] <;> omega
    rw [← kept, Int64.toInt_ofInt_of_le (by omega) (by omega)]
    omega
  · cases negative <;> simp only [withSign_true, withSign_false, if_true, Bool.false_eq_true, if_false] <;>
      omega

/-- Numbers that are cut off stay in order. -/
theorem toInt64_le (ordered : first.isLE second = true) : first.toInt64 ≤ second.toInt64 := by
  obtain ⟨low, high, isLow, isHigh, below⟩ := isLE_iff.mp ordered
  rw [Int64.le_iff_toInt_le]
  cases first with
  | nan => cases isLow
  | signed negative rank =>
      cases second with
      | nan => cases isHigh
      | signed otherNegative other =>
          cases isLow
          cases isHigh
          rw [toInt_toInt64, toInt_toInt64]
          have whole : Monotone fun rank => units rank / unitsOfOne :=
            fun _ _ below => Nat.div_le_div_right (units_strictMono.monotone below)
          exact clamped_le_clamped (withSign_mono whole (by rw [units_zero, Nat.zero_div]) below)

/-- A whole number of 64 bits is not changed. -/
theorem toInt64_of_exactUnits {number : Double} {value : Int64}
    (exact : number.exactUnits? = some (value.toInt * unitsOfOne)) : number.toInt64 = value := by
  cases number with
  | nan => cases exact
  | signed negative rank =>
      have isUnits : withSign negative (units rank) = value.toInt * unitsOfOne := Option.some.inj exact
      have size : units rank = value.toInt.natAbs * unitsOfOne := by
        have sizes := congrArg Int.natAbs isUnits
        rwa [natAbs_withSign, Int.natAbs_mul, Int.natAbs_natCast] at sizes
      have isWhole : withSign negative value.toInt.natAbs = value.toInt := by
        rw [size, withSign_mul] at isUnits
        exact Int.eq_of_mul_eq_mul_right (by have one := unitsOfOne_pos; omega) isUnits
      rw [← Int64.toInt_inj, toInt_toInt64, size, Nat.mul_div_cancel _ unitsOfOne_pos, isWhole]
      exact clamped_toInt value

end Double

end Statute
