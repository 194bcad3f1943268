/-
This file proves that operations, filters of tables, extremes, memberships and event patterns all go by
one order of values, and says what this order makes of integers.
-/

import Statute.Evaluation.Aggregate
import Statute.Proofs.Value.Equality
import Statute.Rule.Declaration
import Statute.Table.Basic

namespace Statute

namespace Value

theorem content?_of_grade {value : Value} {grade : Grade} (isGrade : value.grade? = some grade) :
    value.content? = some (.graded grade) := by
  cases value <;> first | exact congrArg (Option.map Content.graded) isGrade | cases isGrade

/-- Values compare when both have a grade and the grades compare. -/
theorem compare_eq_some {first second : Value} {order : Ordering} :
    first.compare second = some order ↔ ∃ left right, first.grade? = some left ∧
      second.grade? = some right ∧ left.compare right = some order := by
  rw [compare_eq]
  cases first.grade? <;> cases second.grade? <;> simp

theorem Grade.compare_eq_some_eq {first second : Grade} :
    first.compare second = some .eq ↔ first = second := by
  cases first <;> cases second <;> simp [Grade.compare]

theorem compare_symm (first second : Value) (order : Ordering) :
    first.compare second = some order ↔ second.compare first = some order.swap := by
  rw [compare_swap first second]
  cases first.compare second <;> simp [Ordering.swap_inj]

/-- Values that compare are loosely equal when neither of them is smaller. -/
theorem looseEq_of_compare {first second : Value} {order : Ordering}
    (compared : first.compare second = some order) : first.looseEq second = (order == .eq) := by
  obtain ⟨left, right, isLeft, isRight, graded⟩ := compare_eq_some.mp compared
  have isEqual : first.looseEq second = true ↔ order = .eq := by
    rw [looseEq_iff, content?_of_grade isLeft, content?_of_grade isRight, Meet.some_iff,
      Content.graded.injEq, ← Grade.compare_eq_some_eq, graded, Option.some.injEq]
  exact Bool.eq_iff_iff.mpr (isEqual.trans beq_iff_eq.symm)

theorem compare_lt_trans {first second third : Value} (left : first.compare second = some .lt)
    (right : second.compare third = some .lt) : first.compare third = some .lt := by
  have swapped : third.compare second = some .gt := (compare_symm second third .lt).mp right
  refine compare_beats (by decide) left ?_ ?_
  · rw [swapped, Option.isSome_some]
  · rw [swapped]
    decide

/-- Equal values compare alike with all others. -/
theorem grade?_of_compare {first second : Value} (same : first.compare second = some .eq) :
    first.grade? = second.grade? := by
  obtain ⟨left, right, isLeft, isRight, graded⟩ := compare_eq_some.mp same
  rw [isLeft, isRight, Grade.compare_eq_some_eq.mp graded]

end Value

namespace Comparison

/-- The orders of two operands of which a comparison holds. -/
def accepts : Comparison → Ordering → Bool
  | equals, order => order == .eq
  | notEquals, order => order != .eq
  | greaterThan, order => order == .gt
  | lessThan, order => order == .lt
  | greaterOrEqual, order => order != .lt
  | lessOrEqual, order => order != .gt

/-- The filter of tables that stands for a comparison. -/
def filter : Comparison → Filter
  | equals => .equal
  | notEquals => .notEqual
  | greaterThan => .above
  | lessThan => .below
  | greaterOrEqual => .atLeast
  | lessOrEqual => .atMost

/-- A filter lets those cells pass of which the comparison holds. -/
theorem test_filter (comparison : Comparison) (cell operand : Value) :
    comparison.filter.test cell operand = comparison.holds cell operand := by
  cases comparison <;> rfl

theorem filter_ne_within (comparison : Comparison) : comparison.filter ≠ .within := by
  cases comparison <;> decide

theorem parse_sign (comparison : Comparison) :
    Filter.parse comparison.filter.sign = .ok comparison.filter := by
  cases comparison <;> rfl

theorem filterBy_sign (comparison : Comparison) (table : Table) (column : String) (operand : Value) :
    table.filterBy column comparison.filter.sign operand =
      .ok (table.keep column comparison.filter operand) := by
  simp [Table.filterBy, parse_sign, filter_ne_within]

theorem holds_of_compare (comparison : Comparison) {first second : Value} {order : Ordering}
    (compared : first.compare second = some order) :
    comparison.holds first second = comparison.accepts order := by
  cases comparison <;> simp only [holds, Value.looseEq_of_compare compared, compared] <;>
    cases order <;> rfl

/-- The comparisons that ask for an order. -/
def ordering : List Comparison :=
  [greaterThan, lessThan, greaterOrEqual, lessOrEqual]

/-- Of values without an order, no comparison holds that asks for one. -/
theorem holds_of_incomparable {first second : Value} (incomparable : first.compare second = none) :
    ∀ comparison ∈ ordering, comparison.holds first second = false := by
  simp [ordering, holds, incomparable]

/-- Exactly one of the strict comparisons and equality accepts an order. -/
theorem countP_accepts (order : Ordering) :
    [lessThan, equals, greaterThan].countP (fun comparison => comparison.accepts order) = 1 := by
  cases order <;> rfl

end Comparison

namespace Value

/-- The order of values is one that agrees with loose equality: it turns around with its operands, being
smaller is transitive, and equal values compare alike with all others. Of values that compare exactly one
of the three comparisons holds, and of all others none that asks for an order. Filters of tables keep the
rows of whose cells the comparison holds. -/
theorem compare_isCoherent (first second third : Value) :
    (∀ order, first.compare second = some order ↔ second.compare first = some order.swap) ∧
    (first.compare second = some .lt → second.compare third = some .lt →
      first.compare third = some .lt) ∧
    (first.compare second = some .eq →
      first.compare third = second.compare third ∧ third.compare first = third.compare second) ∧
    (∀ order, first.compare second = some order →
      (order = .eq ↔ first.looseEq second = true) ∧
      [Comparison.lessThan, .equals, .greaterThan].countP (fun comparison =>
        comparison.holds first second) = 1 ∧
      Comparison.greaterOrEqual.holds first second =
        (Comparison.greaterThan.holds first second || Comparison.equals.holds first second) ∧
      Comparison.lessOrEqual.holds first second =
        (Comparison.lessThan.holds first second || Comparison.equals.holds first second)) ∧
    (first.compare second = none →
      ∀ comparison ∈ Comparison.ordering, comparison.holds first second = false) ∧
    ∀ comparison : Comparison,
      comparison.filter.test first second = comparison.holds first second ∧
      ∀ (table : Table) (column : String),
        table.filterBy column comparison.filter.sign second = .ok (table.filter fun row =>
          (Entries.get? column row).any fun cell => comparison.holds cell second) := by
  refine ⟨compare_symm first second, compare_lt_trans, fun same => ?congruence,
    fun order compared => ?comparable, Comparison.holds_of_incomparable, fun comparison => ?filters⟩
  case congruence =>
    constructor <;> rw [compare_eq, compare_eq, grade?_of_compare same]
  case comparable =>
    simp only [Comparison.holds_of_compare _ compared, looseEq_of_compare compared]
    refine ⟨beq_iff_eq.symm, Comparison.countP_accepts order, ?_, ?_⟩ <;> cases order <;> rfl
  case filters =>
    refine ⟨comparison.test_filter first second, fun table column => ?_⟩
    rw [comparison.filterBy_sign, Table.keep]
    congr! 3 with row
    cases Entries.get? column row <;> simp [comparison.test_filter]

/-- An integer, a float and an integer, each below the next. -/
theorem compare_isCoherent_mixed :
    (int 1).compare (float (Double.ofInt 2)) = some .lt ∧
    (float (Double.ofInt 2)).compare (int 3) = some .lt ∧ (int 1).compare (int 3) = some .lt := by
  have left : (int 1).compare (float (Double.ofInt 2)) = some .lt := by decide +kernel
  have right : (float (Double.ofInt 2)).compare (int 3) = some .lt := by decide +kernel
  exact ⟨left, right, (compare_isCoherent _ _ _).2.1 left right⟩

/-- What rules see of two values: their order, as the operations, the filters, the extremes, the
memberships and the event patterns show it. -/
structure SeenAs (order : Ordering) (first second : Value) : Prop where
  compare : first.compare second = some order
  looseEq : first.looseEq second = (order == .eq)
  holds : ∀ comparison : Comparison, comparison.holds first second = comparison.accepts order
  test : ∀ comparison : Comparison, comparison.filter.test first second = comparison.accepts order
  smallest : Aggregate.min.apply [first, second] = .ok (if order = .gt then second else first)
  largest : Aggregate.max.apply [first, second] = .ok (if order = .lt then second else first)
  hasMember : ∀ items : List Value,
    (list (first :: items)).hasMember second = (order == .eq || (list items).hasMember second)
  within : ∀ items : List Value, Filter.within.test first (list (second :: items)) =
    (order == .eq || Filter.within.test first (list items))
  isMatch : ∀ (eventType : String) (filter data : Record) (name : String),
    Entries.get? name data = some first →
    EventPattern.isMatch ⟨eventType, (name, second) :: filter⟩ eventType data =
      (order == .eq && EventPattern.isMatch ⟨eventType, filter⟩ eventType data)

theorem isNull_of_compare {first second : Value} {order : Ordering}
    (compared : first.compare second = some order) : first.isNull = false := by
  cases first <;> first | rfl | cases compared

theorem apply_pair {first second : Value} {order : Ordering}
    (compared : first.compare second = some order) {aggregate : Aggregate} {wanted : Ordering}
    (isExtremum : aggregate.combine = aggregate.extremum wanted) :
    aggregate.apply [first, second] = .ok (if order.swap = wanted then second else first) := by
  have reversed := (compare_symm first second order).mp compared
  have present : [first, second].filter (fun operand => !operand.isNull) = [first, second] := by
    simp [isNull_of_compare compared, isNull_of_compare reversed]
  simp [Aggregate.apply, present, isExtremum, Aggregate.extremum, Aggregate.better, reversed]

theorem SeenAs.of_compare {first second : Value} {order : Ordering}
    (compared : first.compare second = some order) : SeenAs order first second where
  compare := compared
  looseEq := looseEq_of_compare compared
  holds comparison := comparison.holds_of_compare compared
  test comparison := by rw [comparison.test_filter, comparison.holds_of_compare compared]
  smallest := by
    rw [apply_pair compared rfl]
    cases order <;> rfl
  largest := by
    rw [apply_pair compared rfl]
    cases order <;> rfl
  hasMember items := by
    simp [Value.hasMember, looseEq_of_compare compared]
  within items := by
    simp [Filter.test, looseEq_of_compare compared]
  isMatch eventType filter data name isFirst := by
    simp [EventPattern.isMatch, isFirst, looseEq_of_compare compared]

/-- The order of two integers as rules see it. Integers with one nearest float are equal. -/
def seenOrder (first second : Int64) : Ordering :=
  if Double.ofInt first.toInt = Double.ofInt second.toInt then .eq
  else Ord.compare first.toInt second.toInt

theorem compare_integers (first second : Int64) :
    (int first).compare (int second) = some (seenOrder first second) :=
  Double.compare_ofInt first.toInt second.toInt

/-- The order that rules see is that of the integers, unless different ones have one nearest float. -/
theorem seenOrder_eq_iff (first second : Int64) :
    seenOrder first second = Ord.compare first.toInt second.toInt ↔
      (Double.ofInt first.toInt = Double.ofInt second.toInt → first = second) := by
  rw [seenOrder]
  split
  case isTrue same =>
    rw [eq_comm, Std.LawfulEqCmp.compare_eq_iff_eq, Int64.toInt_inj]
    exact ⟨fun equal _ => equal, fun equal => equal same⟩
  case isFalse differs =>
    exact ⟨fun _ same => absurd same differs, fun _ => rfl⟩

/-- Integers have different nearest floats if one of them is below 53 bits, or if both are short. -/
theorem eq_of_nearest_eq {first second : Int64}
    (exact : first.toInt.natAbs < 2 ^ 53 ∨ second.toInt.natAbs < 2 ^ 53 ∨
      Double.IsShort first.toInt ∧ Double.IsShort second.toInt)
    (same : Double.ofInt first.toInt = Double.ofInt second.toInt) : first = second := by
  have small (value : Int64) : value.toInt.natAbs ≤ 2 ^ 64 := by
    have := value.le_toInt
    have := value.toInt_lt
    omega
  apply Int64.toInt_inj.mp
  rcases exact with isSmall | isSmall | ⟨isFirst, isSecond⟩
  · exact Double.eq_of_ofInt_eq same (.inl isSmall)
  · exact (Double.eq_of_ofInt_eq same.symm (.inl isSmall)).symm
  · exact Double.eq_of_ofInt_eq same (.inr ⟨isFirst, isSecond, small first, small second⟩)

/-- Rules see integers in the order of their nearest floats, which is never the wrong way round. Different
integers are taken for equal exactly when they have one nearest float, so never when one of them is below
53 bits or when both have at most 53 significant bits. -/
theorem integers_seenAs (first second : Int64) :
    SeenAs (seenOrder first second) (int first) (int second) ∧
    (seenOrder first second = Ord.compare first.toInt second.toInt ↔
      (Double.ofInt first.toInt = Double.ofInt second.toInt → first = second)) ∧
    (first.toInt.natAbs < 2 ^ 53 ∨ second.toInt.natAbs < 2 ^ 53 ∨
      Double.IsShort first.toInt ∧ Double.IsShort second.toInt →
        seenOrder first second = Ord.compare first.toInt second.toInt) :=
  ⟨.of_compare (compare_integers first second), seenOrder_eq_iff first second,
    fun exact => (seenOrder_eq_iff first second).mpr (eq_of_nearest_eq exact)⟩

/-- Above 53 bits the next integer may be taken for equal, and none of the two is larger. -/
theorem neighbours_seenAs_equal :
    (9007199254740993 : Int64) ≠ 9007199254740992 ∧
    (int 9007199254740993).looseEq (int 9007199254740992) = true ∧
    (int 9007199254740993).compare (int 9007199254740992) ≠ some .gt := by
  decide +kernel

end Value

end Statute
