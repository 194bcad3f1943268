/-
This file proves that rounding to decimal places does not change a number that has no more places, and
that cutting off brings a number toward zero.
-/

import Statute.Proofs.Double.Monotone

namespace Statute

namespace Double

/-- A number that is a whole number of at most 53 bits after multiplication by a power of ten. -/
def HasPlaces (places : Nat) : Double → Prop
  | nan => False
  | signed _ rank => ∃ whole, whole ≤ 2 ^ 53 ∧ units rank * 10 ^ places = whole * unitsOfOne

/-- The first powers of ten are numbers, so they are computed without rounding. -/
theorem powerOfTen_exact : ∀ places : Fin 23,
    (power (ofInt 10) places.val).exactUnits? = some ((10 ^ places.val * unitsOfOne : Nat) : Int) ∧
      (power (ofInt 10) places.val).isFinite = true := by
  decide +kernel

theorem exists_powerOfTen {places : Nat} (few : places ≤ 22) : ∃ factor : Fin (infinityRank + 1),
    power (ofInt 10) places = signed false factor ∧ factor.val ≠ infinityRank ∧
      units factor = 10 ^ places * unitsOfOne := by
  obtain ⟨isUnits, finite⟩ := powerOfTen_exact ⟨places, by omega⟩
  have isUnsigned := isUnsigned_powerOfTen places
  cases isFactor : power (ofInt 10) places with
  | nan => cases isFactor ▸ finite
  | signed negative factor =>
      dsimp only at isUnits finite
      rw [isFactor] at isUnits finite isUnsigned
      obtain rfl : negative = false := isUnsigned
      exact ⟨factor, rfl, bne_iff_ne.mp finite, Int.ofNat_inj.mp (Option.some.inj isUnits)⟩

theorem rank_lt_infinity {rank whole : Nat} (small : whole ≤ 2 ^ 53)
    (below : units rank ≤ whole * unitsOfOne) : rank < infinityRank := by
  rw [← units_wholeRank_small small] at below
  exact (units_strictMono.le_iff_le.mp below).trans_lt (wholeRank_lt_infinity (by omega))

theorem ofRank_val (negative : Bool) (rank : Fin (infinityRank + 1)) :
    ofRank negative rank = signed negative rank := by
  simp only [ofRank, Nat.min_eq_left (Nat.le_of_lt_succ rank.isLt)]

/-- A product that is a number is computed without rounding. -/
theorem mul_exact {negative : Bool} {rank factor product : Fin (infinityRank + 1)}
    (finite : rank.val ≠ infinityRank) (finiteFactor : factor.val ≠ infinityRank)
    (exact : units rank * units factor = units product * unitsOfOne) :
    signed negative rank * signed false factor = signed negative product := by
  change mul _ _ = _
  simp [mul, finite, finiteFactor, ofUnits, exact, nearestRank_units_mul unitsOfOne_pos, ofRank_val]

/-- A quotient that is a number is computed without rounding. -/
theorem div_exact {negative : Bool} {rank divisor quotient : Fin (infinityRank + 1)}
    (finite : rank.val ≠ infinityRank) (finiteDivisor : divisor.val ≠ infinityRank)
    (positive : 0 < units divisor) (exact : units rank * unitsOfOne = units quotient * units divisor) :
    signed negative rank / signed false divisor = signed negative quotient := by
  have nonzero : divisor.val ≠ 0 := fun isZero => by
    rw [isZero, units_zero] at positive
    exact Nat.lt_irrefl 0 positive
  change div _ _ = _
  simp [div, finite, finiteDivisor, nonzero, ofUnits, exact, nearestRank_units_mul positive,
    ofRank_val]

/-- A whole number is not changed by rounding. -/
theorem round_exact {negative : Bool} {rank : Fin (infinityRank + 1)} {whole : Nat}
    (finite : rank.val ≠ infinityRank) (exact : units rank = whole * unitsOfOne) :
    (signed negative rank).round = signed negative rank := by
  have one := unitsOfOne_pos
  have isWhole : (2 * units rank + unitsOfOne) / (2 * unitsOfOne) = whole := by
    rw [exact, Nat.mul_left_comm, Nat.mul_comm whole, Nat.mul_add_div (by omega),
      Nat.div_eq_of_lt (by omega), Nat.add_zero]
  rw [round, if_neg finite, isWhole, ofRatio, ofUnits, ← exact, nearestRank_units,
    ofRank_val]

/-- A number is not changed by rounding if it has no more places. -/
theorem roundTo_of_hasPlaces {number : Double} {places : Nat} (few : places ≤ 22)
    (hasPlaces : number.HasPlaces places) : number.roundTo places = number := by
  cases number with
  | nan => cases hasPlaces
  | signed negative rank =>
      obtain ⟨whole, small, isWhole⟩ := hasPlaces
      obtain ⟨factor, isFactor, finiteFactor, isPower⟩ := exists_powerOfTen few
      have tens : 0 < 10 ^ places := Nat.pow_pos (by decide)
      have finite : rank.val < infinityRank :=
        rank_lt_infinity small (isWhole ▸ Nat.le_mul_of_pos_right _ tens)
      obtain ⟨product, isProduct⟩ : ∃ product : Fin (infinityRank + 1), product.val = wholeRank whole :=
        ⟨⟨wholeRank whole, Nat.lt_succ_of_lt (wholeRank_lt_infinity (by omega))⟩, rfl⟩
      have finiteProduct : product.val ≠ infinityRank :=
        isProduct ▸ (wholeRank_lt_infinity (by omega)).ne
      have isUnits : units product = whole * unitsOfOne := isProduct ▸ units_wholeRank_small small
      have exact : units rank * units factor = units product * unitsOfOne := by
        rw [isPower, ← Nat.mul_assoc, isWhole, isUnits]
      have positive : 0 < units factor := isPower ▸ Nat.mul_pos tens unitsOfOne_pos
      rw [roundTo, isFactor]
      calc round (signed negative rank * signed false factor) / signed false factor
        _ = round (signed negative product) / signed false factor := by
            rw [mul_exact finite.ne finiteFactor exact]
        _ = signed negative product / signed false factor := by
            rw [round_exact finiteProduct isUnits]
        _ = signed negative rank := div_exact finiteProduct finiteFactor positive exact.symm

theorem clamped_le {value : Int} (unsigned : 0 ≤ value) : clamped value ≤ value := by
  have least : Int64.minValue.toInt = -9223372036854775808 := rfl
  unfold clamped
  omega

theorem le_clamped {value : Int} (notPositive : value ≤ 0) : value ≤ clamped value := by
  have most : Int64.maxValue.toInt = 9223372036854775807 := rfl
  unfold clamped
  omega

theorem toInt_toInt64_of_units {number : Double} {units : Int} (isUnits : number.exactUnits? = some units) :
    number.toInt64.toInt = clamped (units.tdiv unitsOfOne) := by
  cases number with
  | nan => cases isUnits
  | signed negative rank =>
      obtain rfl := Option.some.inj isUnits
      rw [toInt_toInt64, signedUnits_eq, withSign_tdiv]

/-- Cutting off raises numbers that are not above zero. -/
theorem units_le_toInt64 {number : Double} {units : Int} (isUnits : number.exactUnits? = some units)
    (notPositive : units ≤ 0) : units ≤ number.toInt64.toInt * unitsOfOne := by
  have one := unitsOfOne_pos
  have split := Int.mul_tdiv_add_tmod units unitsOfOne
  have rest : 0 ≤ (-units).tmod unitsOfOne := Int.tmod_nonneg _ (by omega)
  have whole : 0 ≤ (-units).tdiv unitsOfOne := Int.tdiv_nonneg (by omega) (by omega)
  rw [Int.neg_tmod] at rest
  rw [Int.neg_tdiv] at whole
  calc units
    _ ≤ units.tdiv unitsOfOne * unitsOfOne := by rw [Int.mul_comm]; omega
    _ ≤ number.toInt64.toInt * unitsOfOne := by
        rw [toInt_toInt64_of_units isUnits]
        exact Int.mul_le_mul_of_nonneg_right (le_clamped (by omega)) (by omega)

/-- Cutting off lowers numbers that are not below zero. -/
theorem toInt64_le_units {number : Double} {units : Int} (isUnits : number.exactUnits? = some units)
    (unsigned : 0 ≤ units) : number.toInt64.toInt * unitsOfOne ≤ units := by
  have one := unitsOfOne_pos
  have split := Int.mul_tdiv_add_tmod units unitsOfOne
  have rest : 0 ≤ units.tmod unitsOfOne := Int.tmod_nonneg _ unsigned
  have whole : 0 ≤ units.tdiv unitsOfOne := Int.tdiv_nonneg unsigned (by omega)
  calc number.toInt64.toInt * unitsOfOne
    _ ≤ units.tdiv unitsOfOne * unitsOfOne := by
        rw [toInt_toInt64_of_units isUnits]
        exact Int.mul_le_mul_of_nonneg_right (clamped_le whole) (by omega)
    _ ≤ units := by rw [Int.mul_comm]; omega

end Double

end Statute
