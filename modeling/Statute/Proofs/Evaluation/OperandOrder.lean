/-
This file proves when sums and products of integers depend on the order of their operands.
-/

import Mathlib.Data.List.Infix
import Mathlib.Data.List.Perm.Subperm
import Mathlib.Data.List.Sublists
import Statute.Proofs.Evaluation.Arithmetic
import Statute.Proofs.Evaluation.Columns

namespace Statute

namespace Double

theorem add_comm (first second : Double) : first + second = second + first := by
  change add first second = add second first
  cases first with
  | nan => cases second <;> rfl
  | signed firstNegative first =>
      cases second with
      | nan => rfl
      | signed secondNegative second =>
          by_cases firstInfinite : first.val = infinityRank
          · by_cases secondInfinite : second.val = infinityRank
            · obtain rfl : first = second := Fin.ext (firstInfinite.trans secondInfinite.symm)
              cases firstNegative <;> cases secondNegative <;> simp [add, firstInfinite]
            · simp [add, firstInfinite, secondInfinite]
          · by_cases secondInfinite : second.val = infinityRank
            · simp [add, firstInfinite, secondInfinite]
            · simp only [add, firstInfinite, secondInfinite, if_false, Bool.and_comm firstNegative,
                Int.add_comm (signedUnits firstNegative first.val)]

theorem mul_comm (first second : Double) : first * second = second * first := by
  change mul first second = mul second first
  cases first with
  | nan => cases second <;> rfl
  | signed firstNegative first =>
      cases second with
      | nan => rfl
      | signed secondNegative second =>
          simp only [mul, bne_comm (a := firstNegative), Nat.mul_comm (units first.val),
            or_comm (a := first.val = infinityRank), or_comm (a := first.val = 0)]

end Double

/-- Whole operands are no lists that an iteration would spread. -/
theorem Value.flatMap_spread {operands : List Value} (whole : ∀ operand ∈ operands, operand.IsWhole) :
    operands.flatMap spread = operands := by
  have single : ∀ operand ∈ operands, operand.spread = [operand] := by
    intro operand member
    cases operand with
    | list items => exact absurd (whole _ member) id
    | _ => rfl
  rw [List.flatMap_congr single, List.flatMap_singleton']

namespace Aggregate

variable {aggregate : Aggregate} {operands reordered : List Value} {numbers others : List Int64}

/-- Sums and products. -/
def Commutes (aggregate : Aggregate) : Prop :=
  aggregate = add ∨ aggregate = multiply

namespace Commutes

theorem isArithmetic (commutes : aggregate.Commutes) : aggregate.IsArithmetic := by
  rcases commutes with rfl | rfl
  · exact .add
  · exact .multiply

theorem integerStep_comm (commutes : aggregate.Commutes) (first second : Int) :
    aggregate.integerStep first second = aggregate.integerStep second first := by
  rcases commutes with rfl | rfl
  · exact Int.add_comm first second
  · exact Int.mul_comm first second

theorem integerStep_right_comm (commutes : aggregate.Commutes) (total first second : Int) :
    aggregate.integerStep (aggregate.integerStep total first) second =
      aggregate.integerStep (aggregate.integerStep total second) first := by
  rcases commutes with rfl | rfl
  · exact Int.add_right_comm total first second
  · exact Int.mul_right_comm total first second

theorem floatStep_comm (commutes : aggregate.Commutes) (first second : Double) :
    aggregate.floatStep first second = aggregate.floatStep second first := by
  rcases commutes with rfl | rfl
  · exact Double.add_comm first second
  · exact Double.mul_comm first second

/-- The exact result is that of any order. -/
theorem exact_perm (commutes : aggregate.Commutes) (perm : numbers.Perm others) :
    aggregate.exact numbers = aggregate.exact others := by
  induction perm with
  | nil => rfl
  | cons first rest _ =>
      exact rest.foldl_eq' (fun second _ third _ total =>
        commutes.integerStep_right_comm total second.toInt third.toInt) first.toInt
  | swap first second rest =>
      rw [exact, exact, exactFrom, exactFrom, List.foldl_cons, List.foldl_cons,
        commutes.integerStep_comm]
  | trans _ _ first second => exact first.trans second

/-- Two operands give the same float in either order. -/
theorem approximate_perm (commutes : aggregate.Commutes) (perm : numbers.Perm others)
    (few : numbers.length ≤ 2) : aggregate.approximate numbers = aggregate.approximate others := by
  induction perm with
  | nil => rfl
  | @cons first before _ rest _ =>
      rcases before with _ | ⟨second, _ | ⟨third, others⟩⟩
      · rw [List.nil_perm.mp rest]
      · rw [List.singleton_perm.mp rest]
      · simp at few
  | swap first second rest =>
      cases rest with
      | nil => exact commutes.floatStep_comm _ _
      | cons third others => simp at few
  | trans earlier _ first second => exact (first few).trans (second (earlier.length_eq ▸ few))

end Commutes

theorem Commutes.apply_eq_iff (commutes : aggregate.Commutes)
    (whole : ∀ operand ∈ operands, operand.IsWhole) (perm : operands.Perm reordered) :
    aggregate.apply reordered = aggregate.apply operands ↔
      (aggregate.StaysWhole (Value.integers operands) ∧
        aggregate.StaysWhole (Value.integers reordered)) ∨
      (¬ aggregate.StaysWhole (Value.integers operands) ∧
        ¬ aggregate.StaysWhole (Value.integers reordered) ∧
        aggregate.approximate (Value.integers reordered) =
          aggregate.approximate (Value.integers operands)) := by
  obtain ⟨exactly, nearly⟩ := apply_whole commutes.isArithmetic whole
  obtain ⟨otherExactly, otherNearly⟩ := apply_whole commutes.isArithmetic
    fun operand member => whole operand (perm.mem_iff.mpr member)
  by_cases stays : aggregate.StaysWhole (Value.integers operands)
  · obtain ⟨result, isResult, isExact⟩ := exactly stays
    by_cases otherStays : aggregate.StaysWhole (Value.integers reordered)
    · obtain ⟨other, isOther, otherExact⟩ := otherExactly otherStays
      have same : other = result := by
        rw [← Int64.toInt_inj, otherExact, isExact, commutes.exact_perm (Value.integers_perm perm)]
      simp [isResult, isOther, stays, otherStays, same]
    · simp [isResult, otherNearly otherStays, stays, otherStays]
  · by_cases otherStays : aggregate.StaysWhole (Value.integers reordered)
    · obtain ⟨other, isOther, otherExact⟩ := otherExactly otherStays
      simp [nearly stays, isOther, stays, otherStays]
    · simp [nearly stays, otherNearly otherStays, stays, otherStays]

/-- Of at most two integers only the whole result can be too large. -/
theorem staysWhole_of_few (few : numbers.length ≤ 2) :
    aggregate.StaysWhole numbers ↔ Fits (aggregate.exact numbers) := by
  refine ⟨fun stays => stays numbers List.prefix_rfl, fun fits part isPrefix => ?_⟩
  rcases part with _ | ⟨first, _ | ⟨second, rest⟩⟩
  · exact fits_toInt 0
  · exact fits_toInt first
  · rw [isPrefix.eq_of_length_le (Nat.le_trans few (by simp))]
    exact fits

/-- So the order of two operands does not matter. -/
theorem Commutes.apply_of_few (commutes : aggregate.Commutes)
    (whole : ∀ operand ∈ operands, operand.IsWhole) (perm : operands.Perm reordered)
    (few : (Value.integers operands).length ≤ 2) :
    aggregate.apply reordered = aggregate.apply operands := by
  have numbers := Value.integers_perm perm
  have otherFew : (Value.integers reordered).length ≤ 2 := numbers.length_eq ▸ few
  rw [commutes.apply_eq_iff whole perm, staysWhole_of_few few, staysWhole_of_few otherFew,
    commutes.exact_perm numbers, commutes.approximate_perm numbers few]
  by_cases fits : Fits (aggregate.exact (Value.integers reordered)) <;> simp [fits]

/-- The result is the same integer in every order exactly when each selection of the operands has an
exact result of 64 bits. -/
theorem Commutes.apply_same_iff (commutes : aggregate.Commutes)
    (whole : ∀ operand ∈ operands, operand.IsWhole) :
    (∃ result, ∀ reordered, operands.Perm reordered →
        aggregate.apply reordered = .ok (.int result)) ↔
      ∀ selection, selection.Sublist operands → Fits (aggregate.exact (Value.integers selection)) := by
  have wholeOf {reordered : List Value} (perm : operands.Perm reordered) :
      ∀ operand ∈ reordered, operand.IsWhole :=
    fun operand member => whole operand (perm.mem_iff.mpr member)
  constructor
  · rintro ⟨result, same⟩ selection isSublist
    -- an order that starts with the selection has its result as a running result
    obtain ⟨rest, perm⟩ := isSublist.exists_perm_append
    have stays : aggregate.StaysWhole (Value.integers (selection ++ rest)) := by
      by_contra leaves
      cases (same _ perm).symm.trans ((apply_whole commutes.isArithmetic (wholeOf perm)).2 leaves)
    refine stays _ ?_
    rw [Value.integers_append]
    exact List.prefix_append _ _
  · intro fits
    refine ⟨Int64.ofInt (aggregate.exact (Value.integers operands)), fun reordered perm => ?_⟩
    have stays : aggregate.StaysWhole (Value.integers reordered) := by
      rintro part ⟨rest, split⟩
      obtain ⟨first, second, rfl, rfl, _⟩ := List.filterMap_eq_append_iff.mp split.symm
      obtain ⟨selection, sameItems, isSublist⟩ :=
        (List.prefix_append first second).sublist.subperm.trans perm.symm.subperm
      rw [← Value.integers, ← commutes.exact_perm (Value.integers_perm sameItems)]
      exact fits selection isSublist
    obtain ⟨result, isResult, isExact⟩ := (apply_whole commutes.isArithmetic (wholeOf perm)).1 stays
    rw [isResult, commutes.exact_perm (Value.integers_perm perm), ← isExact, Int64.ofInt_toInt]

/-- Sums and products of nulls, flags and integers are the same in two orders exactly when the running
results of both have 64 bits, or of neither and the floats agree, which they do for two operands. All
orders give the same integer exactly when each selection of the operands has an exact result of 64 bits.
So the order of the rows of a table does not matter to the sum of such a column, also when an iteration
over the rows adds it up. -/
theorem apply_reordered (commutes : aggregate.Commutes) (operands : List Value)
    (whole : ∀ operand ∈ operands, operand.IsWhole) :
    let integers := Value.integers
    (∀ reordered, operands.Perm reordered →
      (aggregate.apply reordered = aggregate.apply operands ↔
        (aggregate.StaysWhole (integers operands) ∧ aggregate.StaysWhole (integers reordered)) ∨
        (¬ aggregate.StaysWhole (integers operands) ∧ ¬ aggregate.StaysWhole (integers reordered) ∧
          aggregate.approximate (integers reordered) =
            aggregate.approximate (integers operands)))) ∧
    ((integers operands).length ≤ 2 → ∀ reordered, operands.Perm reordered →
      aggregate.apply reordered = aggregate.apply operands) ∧
    ((∃ result, ∀ reordered, operands.Perm reordered →
        aggregate.apply reordered = .ok (.int result)) ↔
      ∀ selection, selection.Sublist operands → Fits (aggregate.exact (integers selection))) ∧
    ∀ (table shuffled : Table) name, table.Perm shuffled → table.column name = operands →
      (∀ selection, selection.Sublist operands → Fits (aggregate.exact (integers selection))) →
      aggregate.apply (shuffled.column name) = aggregate.apply operands ∧
      ∀ (node : Operation) surroundings progress,
        node.CombinesColumn aggregate shuffled name surroundings progress →
          ((node.evaluate Evaluation.valueOf).runFrom surroundings progress).1 =
            aggregate.apply operands := by
  intro integers
  have inOrders := commutes.apply_same_iff whole
  refine ⟨fun reordered perm => ?_, fun few reordered perm => ?_, inOrders,
    fun table shuffled name perm isColumn fits => ?_⟩
  · exact commutes.apply_eq_iff whole perm
  · exact commutes.apply_of_few whole perm few
  · have cells : operands.Perm (shuffled.column name) := isColumn ▸ perm.filterMap _
    have areWhole : ∀ operand ∈ shuffled.column name, operand.IsWhole :=
      fun operand member => whole operand (cells.mem_iff.mpr member)
    obtain ⟨result, same⟩ := inOrders.mpr fits
    have sameSum : aggregate.apply (shuffled.column name) = aggregate.apply operands :=
      (same _ cells).trans (same _ (List.Perm.refl _)).symm
    refine ⟨sameSum, fun node surroundings progress combines => ?_⟩
    rw [combines.result, Value.flatMap_spread areWhole, sameSum]

/-- The amounts of a household, one of which is not known. -/
def householdAmounts : Table :=
  [[("amount", .int 2)], [("amount", .bool true)], [("amount", .int (-7))], [("amount", .null)]]

/-- The iteration over rows that adds up their amounts. -/
def totalAmount (table : Table) : Operation :=
  { Operation.named Operator.forEach.name with
    subject := some (.literal (.list (table.map .record)))
    value := some (.literal (.string (referenceText "amount")))
    combine := some (Operator.aggregate add).name }

/-- Small amounts have one sum in every order of the rows, the largest integer and one are added either
way, and a running result that is too large in one order only makes the results differ. -/
theorem apply_reordered_household :
    let largest := Value.int Int64.maxValue
    (add.apply (Table.column householdAmounts.reverse "amount") =
        add.apply (householdAmounts.column "amount") ∧
      Operation.bareResult (totalAmount householdAmounts.reverse) =
        add.apply (householdAmounts.column "amount")) ∧
      add.apply [.int 1, largest] = add.apply [largest, .int 1] ∧
      add.apply [largest, .int (-1), .int 1] ≠ add.apply [largest, .int 1, .int (-1)] := by
  intro largest
  obtain ⟨-, -, -, column⟩ := apply_reordered (.inl rfl) (householdAmounts.column "amount") (by
    decide)
  obtain ⟨-, two, -⟩ := apply_reordered (.inl rfl) [largest, .int 1] (by decide)
  obtain ⟨three, -⟩ := apply_reordered (.inl rfl) [largest, .int 1, .int (-1)] (by decide)
  refine ⟨?_, two (by decide) _ (List.Perm.swap _ _ _), fun same => ?_⟩
  · have fits : ∀ selection ∈ (householdAmounts.column "amount").sublists',
        Fits (add.exact (Value.integers selection)) := by
      decide
    obtain ⟨cells, rows⟩ := column householdAmounts householdAmounts.reverse "amount"
      (List.reverse_perm _).symm rfl fun selection isSublist =>
        fits selection (List.mem_sublists'.mpr isSublist)
    exact ⟨cells, rows _ _ _ ⟨⟨_, ⟨rfl, rfl, rfl, rfl⟩, rfl⟩, ⟨by decide, rfl, rfl⟩, by decide⟩⟩
  · have leaves : ¬ add.StaysWhole [Int64.maxValue, 1, -1] := fun stays =>
      absurd (stays [Int64.maxValue, 1] ⟨[-1], rfl⟩) (by decide)
    rcases (three _ ((List.Perm.swap _ _ _).cons _)).mp same with both | neither
    · exact leaves both.1
    · refine neither.2.1 fun part isPrefix => ?_
      rw [← List.mem_inits] at isPrefix
      revert part
      decide

/-- Running results make a sum an integer in one order and a float in another, and a product likewise,
and where both are floats these may be rounded differently. -/
theorem apply_order_matters :
    let largest := Value.int Int64.maxValue
    ([largest, .int 1, .int (-1)].Perm [largest, .int (-1), .int 1] ∧
      add.apply [largest, .int 1, .int (-1)] =
        .ok (.float (Double.ofInt 9223372036854775808)) ∧
      add.apply [largest, .int (-1), .int 1] = .ok largest) ∧
    ([largest, .int 2, .int 0].Perm [.int 0, largest, .int 2] ∧
      multiply.apply [largest, .int 2, .int 0] = .ok (.float (Double.ofInt 0)) ∧
      multiply.apply [.int 0, largest, .int 2] = .ok (.int 0)) ∧
    [largest, .int 1024, .int 1024].Perm [.int 1024, .int 1024, largest] ∧
      add.apply [largest, .int 1024, .int 1024] ≠ add.apply [.int 1024, .int 1024, largest] := by
  intro largest
  have sum := apply_of_large .add [largest, .int 1, .int (-1)] (by decide)
    [Int64.maxValue, 1] ⟨_, rfl⟩ (by decide)
  have product := apply_of_large .multiply [largest, .int 2, .int 0] (by decide)
    [Int64.maxValue, 2] ⟨_, rfl⟩ (by decide)
  have descending := apply_of_large .add [largest, .int 1024, .int 1024] (by decide)
    [Int64.maxValue, 1024] ⟨_, rfl⟩ (by decide)
  have ascending := apply_of_large .add [.int 1024, .int 1024, largest] (by decide)
    [1024, 1024, Int64.maxValue] ⟨_, rfl⟩ (by decide)
  have roundedSum : add.approximate [Int64.maxValue, 1, -1] = Double.ofInt 9223372036854775808 := by
    decide +kernel
  have roundedProduct : multiply.approximate [Int64.maxValue, 2, 0] = Double.ofInt 0 := by
    decide +kernel
  have unlike : add.approximate [Int64.maxValue, 1024, 1024] ≠
      add.approximate [1024, 1024, Int64.maxValue] := by
    decide +kernel
  refine ⟨⟨(List.Perm.swap _ _ _).cons _, roundedSum ▸ sum, rfl⟩,
    ⟨?_, roundedProduct ▸ product, rfl⟩, ?_, fun same => ?_⟩
  · exact ((List.Perm.swap _ _ _).cons _).trans (List.Perm.swap _ _ _)
  · exact (List.Perm.swap _ _ _).trans ((List.Perm.swap _ _ _).cons _)
  · rw [descending, ascending] at same
    exact unlike (Value.float.inj (Except.ok.inj same))

end Aggregate

end Statute
