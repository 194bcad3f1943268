/-
This file proves that the nearest number to a quotient keeps the order of quotients, and that a quotient
that is a number is kept.
-/

import Mathlib.Algebra.Order.Ring.Nat
import Mathlib.Data.Nat.Log
import Mathlib.Order.Monotone.Basic
import Statute.Double.Basic

namespace Statute

namespace Double

theorem binade_eq : binade = 2 ^ 52 :=
  rfl

/-- The quotient is not rounded below its whole part. -/
theorem le_divideToEven (numerator denominator : Nat) :
    numerator / denominator ≤ divideToEven numerator denominator := by
  unfold divideToEven
  dsimp only
  split
  · omega
  · split <;> omega

/-- The quotient is rounded by less than one. -/
theorem divideToEven_le (numerator denominator : Nat) :
    divideToEven numerator denominator ≤ numerator / denominator + 1 := by
  unfold divideToEven
  dsimp only
  split
  · omega
  · split <;> omega

/-- Rounded quotients are in the order of their numerators. -/
theorem divideToEven_mono {first second : Nat} (ordered : first ≤ second) (denominator : Nat) :
    divideToEven first denominator ≤ divideToEven second denominator := by
  have quotients : first / denominator ≤ second / denominator := Nat.div_le_div_right ordered
  rcases Nat.lt_or_eq_of_le quotients with below | same
  · exact (divideToEven_le first denominator).trans (below.trans_le (le_divideToEven second denominator))
  · -- with one whole part, the remainders are in order
    have remainders : first % denominator ≤ second % denominator := by
      have split := Nat.div_add_mod first denominator
      have otherSplit := Nat.div_add_mod second denominator
      rw [same] at split
      omega
    unfold divideToEven
    dsimp only
    rw [same]
    split <;> split <;> (try split) <;> (try split) <;> omega

/-- A whole quotient is not rounded. -/
theorem divideToEven_mul {denominator : Nat} (positive : 0 < denominator) (quotient : Nat) :
    divideToEven (quotient * denominator) denominator = quotient := by
  simp [divideToEven, Nat.mul_mod_left, Nat.mul_div_cancel _ positive, positive]

/-- Every rank is a significand and a number of binades. Only the lowest binade has significands that
are not full. -/
theorem exists_scale (rank : Nat) : ∃ dropped significand,
    rank = dropped * binade + significand ∧ (dropped = 0 ∨ binade ≤ significand) ∧
      significand < 2 * binade := by
  rw [binade_eq]
  by_cases low : rank < 2 ^ 52
  · exact ⟨0, rank, by omega, .inl rfl, by omega⟩
  · exact ⟨rank / 2 ^ 52 - 1, 2 ^ 52 + rank % 2 ^ 52, by omega, .inr (by omega), by omega⟩

/-- The units of a rank are its significand, doubled for each binade. A significand that is carried into
the next binade counts the same there. -/
theorem units_scaled {dropped significand : Nat} (full : dropped = 0 ∨ binade ≤ significand)
    (small : significand ≤ 2 * binade) :
    units (dropped * binade + significand) = significand * 2 ^ dropped := by
  unfold units
  rw [binade_eq] at *
  by_cases low : significand < 2 ^ 52
  · obtain rfl : dropped = 0 := full.resolve_right (by omega)
    rw [if_pos (by omega), Nat.zero_mul, Nat.zero_add, Nat.pow_zero, Nat.mul_one]
  · rw [if_neg (by omega)]
    rcases Nat.lt_or_eq_of_le small with inside | carried
    · have quotient : (dropped * 2 ^ 52 + significand) / 2 ^ 52 = dropped + 1 := by omega
      have remainder : (dropped * 2 ^ 52 + significand) % 2 ^ 52 = significand - 2 ^ 52 := by omega
      rw [quotient, remainder, Nat.add_sub_cancel, Nat.add_sub_cancel' (by omega)]
      rfl
    · have quotient : (dropped * 2 ^ 52 + significand) / 2 ^ 52 = dropped + 2 := by omega
      have remainder : (dropped * 2 ^ 52 + significand) % 2 ^ 52 = 0 := by omega
      have next : Nat.pow 2 (dropped + 2 - 1) = 2 * 2 ^ dropped := Nat.pow_succ'
      rw [quotient, remainder, carried, next]
      omega

theorem units_strictMono : StrictMono units := by
  refine strictMono_nat_of_lt_succ fun rank => ?_
  obtain ⟨dropped, significand, rfl, full, small⟩ := exists_scale rank
  have next := @units_scaled dropped (significand + 1) (full.imp_right (by omega)) (by omega)
  rw [units_scaled full small.le, Nat.add_assoc, next]
  exact Nat.mul_lt_mul_of_pos_right (Nat.lt_succ_self significand) (Nat.two_pow_pos dropped)

/-- The bits that rounding drops are those beyond the 53 leading ones. -/
theorem quotient_lt (quotient : Nat) : quotient / 2 ^ (quotient.log2 - 52) < 2 * binade := by
  rw [binade_eq, Nat.div_lt_iff_lt_mul (Nat.two_pow_pos _), ← Nat.pow_succ', ← Nat.pow_add]
  exact Nat.lt_of_lt_of_le Nat.lt_log2_self (Nat.pow_le_pow_right (by omega) (by omega))

theorem le_quotient {quotient : Nat} (dropped : quotient.log2 - 52 ≠ 0) :
    binade ≤ quotient / 2 ^ (quotient.log2 - 52) := by
  have positive : quotient ≠ 0 := fun isZero => dropped (by rw [isZero, Nat.log2_zero])
  rw [binade_eq, Nat.le_div_iff_mul_le (Nat.two_pow_pos _), ← Nat.pow_add]
  calc 2 ^ (52 + (quotient.log2 - 52)) = 2 ^ quotient.log2 := by congr 1; omega
    _ ≤ quotient := Nat.log2_self_le positive

/-- The bits of a quotient beyond its 53 leading ones. -/
def droppedBits (numerator denominator : Nat) : Nat :=
  (numerator / denominator).log2 - 52

theorem nearestRank_eq (numerator denominator : Nat) :
    nearestRank numerator denominator = droppedBits numerator denominator * binade +
      divideToEven numerator (denominator * 2 ^ droppedBits numerator denominator) :=
  rfl

/-- A carry reaches the next binade and no further. -/
theorem nearestRank_le_binade (numerator denominator : Nat) :
    nearestRank numerator denominator ≤ (droppedBits numerator denominator + 2) * binade := by
  have rounded := divideToEven_le numerator (denominator * 2 ^ droppedBits numerator denominator)
  have quotient := quotient_lt (numerator / denominator)
  rw [Nat.div_div_eq_div_mul] at quotient
  rw [nearestRank_eq, Nat.add_mul]
  exact Nat.add_le_add_left (rounded.trans quotient) _

theorem binade_le_nearestRank {numerator denominator : Nat}
    (dropped : droppedBits numerator denominator ≠ 0) :
    (droppedBits numerator denominator + 1) * binade ≤ nearestRank numerator denominator := by
  have rounded := le_divideToEven numerator (denominator * 2 ^ droppedBits numerator denominator)
  have quotient := le_quotient dropped
  rw [Nat.div_div_eq_div_mul] at quotient
  rw [nearestRank_eq, Nat.add_mul, Nat.one_mul]
  exact Nat.add_le_add_left (quotient.trans rounded) _

theorem droppedBits_mono {first second : Nat} (ordered : first ≤ second) (denominator : Nat) :
    droppedBits first denominator ≤ droppedBits second denominator := by
  unfold droppedBits
  rw [Nat.log2_eq_log_two, Nat.log2_eq_log_two]
  exact Nat.sub_le_sub_right (Nat.log_mono_right (Nat.div_le_div_right ordered)) 52

/-- The nearest ranks are in the order of the numerators. -/
theorem nearestRank_mono (denominator : Nat) :
    Monotone fun numerator => nearestRank numerator denominator := by
  intro first second ordered
  rcases Nat.lt_or_eq_of_le (droppedBits_mono ordered denominator) with fewer | same
  · calc nearestRank first denominator
        ≤ (droppedBits first denominator + 2) * binade := nearestRank_le_binade first denominator
      _ ≤ (droppedBits second denominator + 1) * binade := Nat.mul_le_mul_right _ (by omega)
      _ ≤ nearestRank second denominator := binade_le_nearestRank (by omega)
  · dsimp only
    rw [nearestRank_eq, nearestRank_eq, same]
    exact Nat.add_le_add_left (divideToEven_mono ordered _) _

/-- The bits of the units of a rank that are dropped are the doublings of its significand. -/
theorem droppedBits_scaled {dropped significand denominator : Nat} (positive : 0 < denominator)
    (full : dropped = 0 ∨ binade ≤ significand) (small : significand < 2 * binade) :
    droppedBits (significand * 2 ^ dropped * denominator) denominator = dropped := by
  rw [droppedBits, Nat.mul_div_cancel _ positive]
  rw [binade_eq] at *
  by_cases low : significand < 2 ^ 52
  · obtain rfl : dropped = 0 := full.resolve_right (by omega)
    rw [Nat.pow_zero, Nat.mul_one, Nat.log2_eq_log_two]
    have log : Nat.log 2 significand ≤ Nat.log 2 (2 ^ 52) := Nat.log_mono_right low.le
    rw [Nat.log_pow Nat.one_lt_two] at log
    omega
  · have leading : (significand * 2 ^ dropped).log2 = 52 + dropped := by
      refine (Nat.log2_eq_iff (Nat.mul_ne_zero (by omega) (Nat.two_pow_pos dropped).ne')).mpr ⟨?_, ?_⟩
      · rw [Nat.pow_add]
        exact Nat.mul_le_mul_right _ (by omega)
      · rw [Nat.add_right_comm, Nat.pow_add]
        exact Nat.mul_lt_mul_of_pos_right (by omega) (Nat.two_pow_pos dropped)
    rw [leading, Nat.add_sub_cancel_left]

/-- The units of a rank are nearest to this rank. -/
theorem nearestRank_units_mul {denominator : Nat} (positive : 0 < denominator) (rank : Nat) :
    nearestRank (units rank * denominator) denominator = rank := by
  obtain ⟨dropped, significand, rfl, full, small⟩ := exists_scale rank
  have isDropped := droppedBits_scaled positive full small
  rw [nearestRank_eq, units_scaled full small.le, isDropped, Nat.mul_assoc,
    Nat.mul_comm (2 ^ dropped), divideToEven_mul (Nat.mul_pos positive (Nat.two_pow_pos dropped))]

theorem units_zero : units 0 = 0 :=
  rfl

theorem nearestRank_zero (denominator : Nat) : nearestRank 0 denominator = 0 := by
  simp [nearestRank, divideToEven]

theorem nearestRank_units (rank : Nat) : nearestRank (units rank) 1 = rank := by
  simpa using nearestRank_units_mul Nat.one_pos rank

/-- A significand of at most 53 bits is full after enough doublings. -/
theorem exists_full {significand : Nat} (positive : 0 < significand) (short : significand ≤ 2 ^ 53) :
    ∃ shift, shift ≤ 52 ∧ binade ≤ significand * 2 ^ shift ∧ significand * 2 ^ shift ≤ 2 * binade := by
  rw [binade_eq]
  rcases Nat.lt_or_eq_of_le short with inside | rfl
  · have bits : significand.log2 < 53 := (Nat.log2_lt positive.ne').mpr inside
    refine ⟨52 - significand.log2, by omega, ?_, ?_⟩
    · calc 2 ^ 52 = 2 ^ significand.log2 * 2 ^ (52 - significand.log2) := by
            rw [← Nat.pow_add, Nat.add_sub_cancel' (by omega)]
        _ ≤ _ := Nat.mul_le_mul_right _ (Nat.log2_self_le positive.ne')
    · calc significand * 2 ^ (52 - significand.log2)
          ≤ 2 ^ (significand.log2 + 1) * 2 ^ (52 - significand.log2) :=
            Nat.mul_le_mul_right _ Nat.lt_log2_self.le
        _ = 2 * 2 ^ 52 := by rw [← Nat.pow_add, ← Nat.pow_succ']; congr 1; omega
  · exact ⟨0, by omega, by omega, by omega⟩

/-- A significand of at most 53 bits, doubled often enough, counts the units of a rank. -/
theorem exists_units {significand places : Nat} (short : significand ≤ 2 ^ 53) (enough : 52 ≤ places) :
    ∃ rank, units rank = significand * 2 ^ places := by
  rcases Nat.eq_zero_or_pos significand with rfl | positive
  · exact ⟨0, by rw [Nat.zero_mul]; rfl⟩
  · obtain ⟨shift, few, full, carried⟩ := exists_full positive short
    refine ⟨(places - shift) * binade + significand * 2 ^ shift, ?_⟩
    rw [units_scaled (.inr full) carried, Nat.mul_assoc, ← Nat.pow_add,
      Nat.add_sub_cancel' (few.trans enough)]

/-- One is a power of two. The exponent is a variable, since the power is too large to be computed by the
way. -/
theorem exists_unitsOfOne : ∃ ones, ones = 1074 ∧ unitsOfOne = 2 ^ ones :=
  ⟨1074, rfl, by decide +kernel⟩

theorem unitsOfOne_pos : 0 < unitsOfOne := by
  obtain ⟨ones, -, isOne⟩ := exists_unitsOfOne
  rw [isOne]
  exact Nat.two_pow_pos ones

/-- The rank that is nearest to a whole number. -/
def wholeRank (size : Nat) : Nat :=
  nearestRank (size * unitsOfOne) 1

theorem wholeRank_mono : Monotone wholeRank :=
  fun _ _ ordered => nearestRank_mono 1 (Nat.mul_le_mul_right _ ordered)

/-- Whole numbers of at most 53 leading bits are numbers. -/
theorem units_wholeRank {significand : Nat} (short : significand ≤ 2 ^ 53) (places : Nat) :
    units (wholeRank (significand * 2 ^ places)) = significand * 2 ^ places * unitsOfOne := by
  obtain ⟨ones, all, isOne⟩ := exists_unitsOfOne
  obtain ⟨rank, isUnits⟩ : ∃ rank, units rank = significand * 2 ^ (places + ones) :=
    exists_units short (by omega)
  rw [wholeRank, isOne, Nat.mul_assoc, ← Nat.pow_add, ← isUnits, nearestRank_units]

theorem units_wholeRank_small {size : Nat} (small : size ≤ 2 ^ 53) :
    units (wholeRank size) = size * unitsOfOne := by
  simpa using units_wholeRank small 0

/-- A whole number below 53 bits has no other nearest number than its own. -/
theorem wholeRank_lt {size larger : Nat} (small : size < 2 ^ 53) (ordered : size < larger) :
    wholeRank size < wholeRank larger := by
  refine Nat.lt_of_lt_of_le (units_strictMono.lt_iff_lt.mp ?_) (wholeRank_mono ordered)
  rw [units_wholeRank_small small.le, units_wholeRank_small small]
  exact Nat.mul_lt_mul_of_pos_right (Nat.lt_succ_self size) unitsOfOne_pos

theorem wholeRank_zero : wholeRank 0 = 0 := by
  refine units_strictMono.injective ((units_wholeRank_small (Nat.zero_le _)).trans ?_)
  rw [Nat.zero_mul]
  rfl

theorem wholeRank_pos {size : Nat} (positive : 0 < size) : 0 < wholeRank size := by
  simpa only [wholeRank_zero] using wholeRank_lt (by omega) positive

/-- Whole numbers of at most 64 bits stay far below infinity. -/
theorem wholeRank_lt_infinity {size : Nat} (small : size ≤ 2 ^ 64) : wholeRank size < infinityRank := by
  obtain ⟨ones, all, isOne⟩ := exists_unitsOfOne
  have isUnits : units ((12 + ones) * binade + binade) = 2 ^ 64 * unitsOfOne := by
    rw [units_scaled (.inr le_rfl) (by omega), isOne, Nat.pow_add, ← Nat.mul_assoc]
    rfl
  calc wholeRank size ≤ wholeRank (2 ^ 64) := wholeRank_mono small
    _ = (12 + ones) * binade + binade := by rw [wholeRank, ← isUnits, nearestRank_units]
    _ < infinityRank := by rw [all]; decide

end Double

end Statute
