/-
This file proves that dates are ordered in time.
-/

import Mathlib.Order.Defs.LinearOrder
import Statute.Date.Basic

namespace Statute.Date

/-- Dates are compared by their years, then by their months, then by their days. -/
theorem isBefore_iff {date other : Date} :
    date.isBefore other = true ↔ date.year < other.year ∨ date.year = other.year ∧
      (date.month < other.month ∨ date.month = other.month ∧ date.day < other.day) := by
  simp [isBefore, isEarlierInYear]

theorem isAtMost_iff {date other : Date} :
    date.isAtMost other = true ↔ ¬ other.isBefore date = true := by
  simp [isAtMost]

/-- Of two dates neither of which is before the other, there is only one. -/
theorem eq_of_isAtMost {date other : Date} (atMost : date.isAtMost other = true)
    (atLeast : other.isAtMost date = true) : date = other := by
  rw [isAtMost_iff, isBefore_iff] at atMost atLeast
  obtain ⟨year, month, day, _, _, _⟩ := date
  obtain ⟨otherYear, otherMonth, otherDay, _, _, _⟩ := other
  dsimp only at atMost atLeast
  obtain rfl : year = otherYear := by omega
  obtain rfl : month = otherMonth := by omega
  obtain rfl : day = otherDay := by omega
  rfl

instance : LE Date where
  le date other := date.isAtMost other = true

instance : LT Date where
  lt date other := date.isBefore other = true

instance : DecidableLE Date := fun date other =>
  inferInstanceAs (Decidable (date.isAtMost other = true))

instance : DecidableLT Date := fun date other =>
  inferInstanceAs (Decidable (date.isBefore other = true))

theorem isBefore_iff_lt {date other : Date} : date.isBefore other = true ↔ date < other :=
  Iff.rfl

theorem isAtMost_iff_le {date other : Date} : date.isAtMost other = true ↔ date ≤ other :=
  Iff.rfl

/-- The order of dates in time. -/
instance : LinearOrder Date where
  le_refl date := by
    rw [← isAtMost_iff_le, isAtMost_iff, isBefore_iff]
    omega
  le_trans first second third := by
    simp only [← isAtMost_iff_le, isAtMost_iff, isBefore_iff]
    omega
  lt_iff_le_not_ge date other := by
    simp only [← isAtMost_iff_le, ← isBefore_iff_lt, isAtMost_iff, isBefore_iff]
    omega
  le_antisymm _ _ := eq_of_isAtMost
  le_total date other := by
    simp only [← isAtMost_iff_le, isAtMost_iff, isBefore_iff]
    omega
  toDecidableLE := inferInstance

end Statute.Date
