/-
This file proves which integers between the bounds of a declared type stay as they are, and what becomes of
the others.
-/

import Statute.Proofs.Double.Whole
import Statute.Proofs.Rule.Bounds

namespace Statute.TypeSpec

open Value (IsAtMost)

variable {spec : TypeSpec} {number : Double} {whole : Int64}

/-- An integer is between the bounds that the type has. -/
structure InBounds (spec : TypeSpec) (whole : Int64) : Prop where
  above : ∀ least, spec.constraints.min = some least → IsAtMost (.float least) (.int whole)
  below : ∀ most, spec.constraints.max = some most → IsAtMost (.int whole) (.float most)

/-- A number between the bounds has the same units after it is brought between them. -/
theorem exactUnits?_clamp
    (above : ∀ least, spec.constraints.min = some least → least.isLE number = true)
    (below : ∀ most, spec.constraints.max = some most → number.isLE most = true) :
    (spec.clamp number).exactUnits? = number.exactUnits? := by
  unfold clamp
  cases isMin : spec.constraints.min with
  | none =>
      cases isMax : spec.constraints.max with
      | none => rfl
      | some most => exact Double.exactUnits?_min (below most isMax)
  | some least =>
      have raised := Double.exactUnits?_max (above least isMin)
      cases isMax : spec.constraints.max with
      | none => exact raised
      | some most =>
          have ordered : (number.max least).isLE most = true := by
            rw [Double.isLE_iff_exactUnits, raised, ← Double.isLE_iff_exactUnits]
            exact below most isMax
          exact (Double.exactUnits?_min ordered).trans raised

/-- The nearest number of an integer between the bounds is between them. -/
theorem InBounds.exactUnits?_clamp (inBounds : spec.InBounds whole) :
    (spec.clamp (Double.ofInt whole.toInt)).exactUnits? = (Double.ofInt whole.toInt).exactUnits? := by
  refine TypeSpec.exactUnits?_clamp (fun least isMin => ?_) fun most isMax => ?_
  · obtain ⟨units, _, isUnits, ⟨⟩, ordered⟩ := inBounds.above least isMin
    exact Double.isLE_ofInt isUnits ordered
  · obtain ⟨_, units, ⟨⟩, isUnits, ordered⟩ := inBounds.below most isMax
    exact Double.ofInt_isLE isUnits ordered

/-- Without places to round to, an integer between the bounds goes through its nearest number if the type
constrains numbers, and nothing else happens to it. -/
theorem enforce_inBounds (notText : spec.isType "string" = false)
    (unrounded : spec.constraints.precision = none) (inBounds : spec.InBounds whole) :
    spec.enforce (.int whole) =
      .int (if spec.constrainsNumbers then Double.throughNumber whole else whole) := by
  cases constrains : spec.constrainsNumbers with
  | false => simp [enforce, notText, constrains]
  | true =>
      have makesWhole : spec.makesWhole (.int whole) = true := by
        simp [TypeSpec.makesWhole, Value.int?, unrounded]
      have kept : spec.rounded (spec.clamp (Double.ofInt whole.toInt)) =
          spec.clamp (Double.ofInt whole.toInt) := by
        rw [rounded, unrounded]
      rw [enforce_number notText rfl constrains, settle, if_pos makesWhole, kept, if_pos rfl]
      exact congrArg Value.int (Double.toInt64_congr inBounds.exactUnits?_clamp rfl)

theorem enforce_inBounds_eq_self_iff (notText : spec.isType "string" = false)
    (unrounded : spec.constraints.precision = none) (inBounds : spec.InBounds whole) :
    spec.enforce (.int whole) = .int whole ↔
      spec.constrainsNumbers = false ∨ Double.IsShort whole.toInt ∨ whole = Int64.maxValue := by
  rw [enforce_inBounds notText unrounded inBounds, Value.int.injEq,
    ← Double.throughNumber_eq_self_iff]
  cases spec.constrainsNumbers <;> simp

/-- An integer is not moved to the other side of a short one. -/
theorem enforce_inBounds_order (notText : spec.isType "string" = false)
    (unrounded : spec.constraints.precision = none) (inBounds : spec.InBounds whole) {short : Int64}
    (isShort : Double.IsShort short.toInt) :
    (short ≤ whole → IsAtMost (.int short) (spec.enforce (.int whole))) ∧
      (whole ≤ short → IsAtMost (spec.enforce (.int whole)) (.int short)) := by
  have kept := Double.throughNumber_of_isShort isShort
  rw [enforce_inBounds notText unrounded inBounds]
  split
  case isTrue =>
    constructor
    · intro below
      exact .integers (kept ▸ Double.throughNumber_mono below)
    · intro above
      exact .integers (kept ▸ Double.throughNumber_mono above)
  case isFalse => exact ⟨.integers, .integers⟩

/-- An integer between the bounds of a type without precision is sent through its nearest number if the
type constrains numbers. It stays the same exactly when the type does not, when at most 53 bits are between
the first and the last one that is set, or when it is the largest integer. So every integer of at most 53
bits stays the same, and the others stay between the short integers around them. -/
theorem enforce_integer (spec : TypeSpec) (whole : Int64) (notText : spec.isType "string" = false)
    (unrounded : spec.constraints.precision = none) (inBounds : spec.InBounds whole) :
    spec.enforce (.int whole) =
      .int (if spec.constrainsNumbers then Double.throughNumber whole else whole) ∧
    (spec.enforce (.int whole) = .int whole ↔
      spec.constrainsNumbers = false ∨ Double.IsShort whole.toInt ∨ whole = Int64.maxValue) ∧
    (whole.toInt.natAbs ≤ 2 ^ 53 → spec.enforce (.int whole) = .int whole) ∧
    ∀ short : Int64, Double.IsShort short.toInt →
      (short ≤ whole → IsAtMost (.int short) (spec.enforce (.int whole))) ∧
      (whole ≤ short → IsAtMost (spec.enforce (.int whole)) (.int short)) := by
  have keeps := enforce_inBounds_eq_self_iff notText unrounded inBounds
  refine ⟨enforce_inBounds notText unrounded inBounds, keeps, fun small => ?_,
    fun _ isShort => enforce_inBounds_order notText unrounded inBounds isShort⟩
  exact keeps.mpr (.inr (.inl ⟨whole.toInt.natAbs, 0, small, by rw [Nat.pow_zero, Nat.mul_one]⟩))

/-- Whole cents without precision, from zero to `2 ^ 62`. -/
def wholeCents : TypeSpec :=
  ⟨some "amount", ⟨some "eurocent", none, some Double.zero, some (Double.ofInt (2 ^ 62))⟩⟩

/-- The bounds themselves are between the bounds. -/
theorem enforce_integer_largest : wholeCents.InBounds 4611686018427387904 ∧
    wholeCents.enforce (.int 4611686018427387904) = .int 4611686018427387904 := by
  have inBounds : wholeCents.InBounds 4611686018427387904 := by
    constructor
    · rintro least ⟨⟩
      decide +kernel
    · rintro most ⟨⟩
      decide +kernel
  exact ⟨inBounds, (enforce_integer wholeCents _ (by decide) rfl inBounds).2.1.mpr
    (.inr (.inl ⟨1, 62, by decide, by decide⟩))⟩

/-- A type that has neither bounds nor precision. -/
def unbounded (typeName : String) (unit : Option String) : TypeSpec :=
  ⟨some typeName, ⟨unit, none, none, none⟩⟩

/-- An integer between the bounds of a type without precision comes out as another one. -/
def TakesFor (spec : TypeSpec) (whole other : Int64) : Prop :=
  spec.isType "string" = false ∧ spec.constraints.precision = none ∧ spec.InBounds whole ∧
    (spec.enforce (.int whole)).int? = some other ∧ whole ≠ other

/-- The first integer above 53 bits becomes the one before it, as an amount of cents, as a whole number and
as a number without a unit. -/
theorem enforce_changes_integer :
    (unbounded "amount" (some "eurocent")).TakesFor 9007199254740993 9007199254740992 ∧
      (unbounded "int" none).TakesFor 9007199254740993 9007199254740992 ∧
      (unbounded "number" none).TakesFor 9007199254740993 9007199254740992 := by
  have noBounds (typeName : String) (unit : Option String) :
      (unbounded typeName unit).InBounds 9007199254740993 := by
    constructor <;> rintro _ ⟨⟩
  refine ⟨⟨by decide, rfl, noBounds _ _, ?_, by decide⟩, ⟨by decide, rfl, noBounds _ _, ?_, by decide⟩,
    ⟨by decide, rfl, noBounds _ _, ?_, by decide⟩⟩
  · decide +kernel
  · decide +kernel
  · decide +kernel

end Statute.TypeSpec
