/-
This file proves that sums, differences and products of integers are exact as long as no running result
leaves 64 bits, and floats from then on.
-/

import Statute.Evaluation.Aggregate

namespace Statute

/-- An integer has 64 bits with a sign. -/
def Fits (value : Int) : Prop :=
  Int64.minValue.toInt ≤ value ∧ value ≤ Int64.maxValue.toInt

instance : DecidablePred Fits := fun value =>
  inferInstanceAs (Decidable (Int64.minValue.toInt ≤ value ∧ value ≤ Int64.maxValue.toInt))

theorem fits_toInt (number : Int64) : Fits number.toInt :=
  ⟨Int64.minValue_le_toInt number, Int64.toInt_le number⟩

theorem toInt_ofInt {value : Int} (fits : Fits value) : (Int64.ofInt value).toInt = value := by
  have most : Int64.maxValue.toInt = 9223372036854775807 := rfl
  have below := fits.2
  exact Int64.toInt_ofInt_of_le fits.1 (by omega)

/-- An integer is kept as it is, or not at all. -/
theorem toInt64?_eq_some_iff {value : Int} {number : Int64} :
    toInt64? value = some number ↔ number.toInt = value := by
  constructor
  · intro kept
    unfold toInt64? at kept
    split at kept
    · rename_i fits
      cases kept
      exact toInt_ofInt fits
    · cases kept
  · rintro rfl
    exact (if_pos (fits_toInt number)).trans (congrArg some (Int64.ofInt_toInt number))

theorem toInt64?_eq_none {value : Int} (large : ¬ Fits value) : toInt64? value = none :=
  if_neg large

namespace Value

/-- Null, flags and integers. -/
def IsWhole : Value → Prop
  | null => True
  | bool _ => True
  | int _ => True
  | _ => False

instance : DecidablePred IsWhole
  | null => isTrue trivial
  | bool _ => isTrue trivial
  | int _ => isTrue trivial
  | float _ => isFalse id
  | string _ => isFalse id
  | list _ => isFalse id
  | record _ => isFalse id

/-- The integers that operands count as, with null left out. -/
def integers (operands : List Value) : List Int64 :=
  operands.filterMap integral?

theorem integers_append (first second : List Value) :
    integers (first ++ second) = integers first ++ integers second :=
  List.filterMap_append

theorem integers_perm {operands reordered : List Value} (perm : operands.Perm reordered) :
    (integers operands).Perm (integers reordered) :=
  perm.filterMap integral?

theorem integers_filter (operands : List Value) :
    integers (operands.filter fun operand => !operand.isNull) = integers operands := by
  refine List.filterMap_filter.trans (congrArg (operands.filterMap ·) (funext fun operand => ?_))
  cases operand <;> rfl

/-- Whole operands that are not null are read as integers, and as the numbers nearest to these. -/
theorem IsWhole.present {operand : Value} (whole : operand.IsWhole) (present : operand.isNull = false) :
    ∃ number, operand.integral? = some number ∧
      operand.toNumber = .ok (Double.ofInt number.toInt) := by
  cases operand with
  | null => cases present
  | bool flag => cases flag <;> exact ⟨_, rfl, rfl⟩
  | int number => exact ⟨number, rfl, rfl⟩
  | float _ => cases whole
  | string _ => cases whole
  | list _ => cases whole
  | record _ => cases whole

end Value

namespace Aggregate

/-- The operators of arithmetic that keep integers. -/
inductive IsArithmetic : Aggregate → Prop
  | add : IsArithmetic .add
  | subtract : IsArithmetic .subtract
  | multiply : IsArithmetic .multiply

variable {aggregate : Aggregate} {operands : List Value} {numbers : List Int64}

/-- The result on integers of unlimited size, taken from left to right. -/
def exactFrom (aggregate : Aggregate) (first : Int) (rest : List Int64) : Int :=
  rest.foldl (fun total number => aggregate.integerStep total number.toInt) first

/-- The exact result of integers, which is zero if there are none. -/
def exact (aggregate : Aggregate) : List Int64 → Int
  | [] => 0
  | first :: rest => aggregate.exactFrom first.toInt rest

/-- No running result leaves 64 bits. -/
def StaysWhole (aggregate : Aggregate) (numbers : List Int64) : Prop :=
  ∀ part, part <+: numbers → Fits (aggregate.exact part)

/-- The result on floats, taken from left to right. -/
def approximateFrom (aggregate : Aggregate) (first : Double) (rest : List Int64) : Double :=
  rest.foldl (fun total number => aggregate.floatStep total (Double.ofInt number.toInt)) first

/-- The result of the numbers nearest to integers. -/
def approximate (aggregate : Aggregate) : List Int64 → Double
  | [] => Double.ofInt 0
  | first :: rest => aggregate.approximateFrom (Double.ofInt first.toInt) rest

/-- The fold of a row of integers is its exact result, if all running results have 64 bits. -/
theorem exactFold?_eq_some_iff {first : Int64} {rest : List Int64} {result : Int64} :
    aggregate.exactFold? first rest = some result ↔
      (∀ part, part <+: rest → Fits (aggregate.exactFrom first.toInt part)) ∧
        result.toInt = aggregate.exactFrom first.toInt rest := by
  induction rest generalizing first with
  | nil =>
      simp only [exactFold?, exactFrom, List.foldlM_nil, List.foldl_nil, List.prefix_nil,
        forall_eq, fits_toInt, true_and, Int64.toInt_inj, Option.pure_def, Option.some.injEq, eq_comm]
  | cons second rest inductionHypothesis =>
      have step : aggregate.exactFold? first (second :: rest) =
          (toInt64? (aggregate.integerStep first.toInt second.toInt)).bind
            fun total => aggregate.exactFold? total rest :=
        List.foldlM_cons
      rw [step]
      by_cases fits : Fits (aggregate.integerStep first.toInt second.toInt)
      · obtain ⟨total, isTotal⟩ : ∃ total : Int64,
            total.toInt = aggregate.integerStep first.toInt second.toInt :=
          ⟨_, toInt_ofInt fits⟩
        rw [toInt64?_eq_some_iff.mpr isTotal, Option.bind_some, inductionHypothesis, isTotal]
        refine and_congr_left fun _ => ⟨fun parts part isPrefix => ?_, fun parts part isPrefix => ?_⟩
        · rcases List.prefix_cons_iff.mp isPrefix with rfl | ⟨shorter, rfl, begins⟩
          · exact fits_toInt first
          · exact parts shorter begins
        · exact parts (second :: part) (List.prefix_cons_inj second |>.mpr isPrefix)
      · rw [toInt64?_eq_none fits, Option.bind_none]
        refine ⟨nofun, fun ⟨parts, _⟩ => ?_⟩
        exact absurd (parts [second] (List.prefix_cons_inj second |>.mpr List.nil_prefix)) fits

theorem staysWhole_nil : aggregate.StaysWhole [] := by
  intro part isPrefix
  rw [List.prefix_nil.mp isPrefix]
  exact fits_toInt 0

/-- A running result is that of a beginning of the row. -/
theorem staysWhole_cons {first : Int64} {rest : List Int64} :
    aggregate.StaysWhole (first :: rest) ↔
      ∀ part, part <+: rest → Fits (aggregate.exactFrom first.toInt part) := by
  refine ⟨fun stays part isPrefix => ?_, fun parts part isPrefix => ?_⟩
  · exact stays (first :: part) (List.prefix_cons_inj first |>.mpr isPrefix)
  · rcases List.prefix_cons_iff.mp isPrefix with rfl | ⟨shorter, rfl, begins⟩
    · exact fits_toInt 0
    · exact parts shorter begins

/-- Whole operands are read as their integers. -/
theorem mapM_integral? (whole : ∀ operand ∈ operands, operand.IsWhole)
    (present : ∀ operand ∈ operands, operand.isNull = false) :
    operands.mapM Value.integral? = some (Value.integers operands) ∧
      operands.mapM aggregate.number =
        .ok ((Value.integers operands).map fun number => Double.ofInt number.toInt) := by
  induction operands with
  | nil => exact ⟨rfl, rfl⟩
  | cons operand rest inductionHypothesis =>
      obtain ⟨first, others⟩ := List.forall_mem_cons.mp whole
      obtain ⟨firstPresent, othersPresent⟩ := List.forall_mem_cons.mp present
      obtain ⟨integrals, numbers⟩ := inductionHypothesis others othersPresent
      obtain ⟨number, isIntegral, isNumber⟩ := first.present firstPresent
      have counted : aggregate.number operand = .ok (Double.ofInt number.toInt) := by
        rw [Aggregate.number, isNumber]
      have collected : Value.integers (operand :: rest) = number :: Value.integers rest :=
        List.filterMap_cons_some isIntegral
      rw [List.mapM_cons, List.mapM_cons, isIntegral, integrals, counted, numbers, collected]
      exact ⟨rfl, rfl⟩

/-- Arithmetic on whole operands is exact if it can be. -/
theorem arithmetic_whole (whole : ∀ operand ∈ operands, operand.IsWhole)
    (present : ∀ operand ∈ operands, operand.isNull = false) {first : Int64} {rest : List Int64}
    (integers : Value.integers operands = first :: rest) :
    aggregate.arithmetic operands =
      match aggregate.exactFold? first rest with
      | some result => .ok (.int result)
      | none => .ok (.float (aggregate.approximate (first :: rest))) := by
  obtain ⟨integrals, numbers⟩ := mapM_integral? whole present
  have result : aggregate.wholeResult? operands = aggregate.exactFold? first rest := by
    rw [wholeResult?, integrals, integers]
    rfl
  rw [arithmetic, result]
  cases aggregate.exactFold? first rest with
  | some result => rfl
  | none =>
      rw [numbers, integers, approximate, approximateFrom]
      exact congrArg (fun total => Except.ok (Value.float total)) List.foldl_map

theorem IsArithmetic.combine (arithmetic : aggregate.IsArithmetic) (operands : List Value) :
    aggregate.combine operands = aggregate.arithmetic operands := by
  cases arithmetic <;> rfl

/-- Exact and approximate results say all about whole operands. -/
theorem apply_whole (arithmetic : aggregate.IsArithmetic)
    (whole : ∀ operand ∈ operands, operand.IsWhole) :
    (aggregate.StaysWhole (Value.integers operands) →
      ∃ result : Int64, aggregate.apply operands = .ok (.int result) ∧
        result.toInt = aggregate.exact (Value.integers operands)) ∧
    (¬ aggregate.StaysWhole (Value.integers operands) →
      aggregate.apply operands = .ok (.float (aggregate.approximate (Value.integers operands)))) := by
  rw [← Value.integers_filter]
  have isPresent : ∀ operand ∈ operands.filter fun operand => !operand.isNull,
      operand.isNull = false := by
    simp
  have isWhole : ∀ operand ∈ operands.filter fun operand => !operand.isNull, operand.IsWhole :=
    fun operand member => whole operand (List.mem_filter.mp member).1
  rw [apply]
  generalize (operands.filter fun operand => !operand.isNull) = present at *
  cases integers : Value.integers present with
  | nil =>
      obtain rfl : present = [] := by
        refine List.eq_nil_iff_forall_not_mem.mpr fun operand member => ?_
        obtain ⟨number, isIntegral, _⟩ := (isWhole operand member).present (isPresent operand member)
        exact Option.some_ne_none _ (isIntegral.symm.trans
          (List.filterMap_eq_nil_iff.mp integers operand member))
      exact ⟨fun _ => ⟨0, rfl, rfl⟩, fun leaves => absurd staysWhole_nil leaves⟩
  | cons first rest =>
      have folded : aggregate.combine present = _ :=
        (arithmetic.combine present).trans (arithmetic_whole isWhole isPresent integers)
      cases present with
      | nil => cases integers
      | cons operand others =>
          dsimp only
          rw [folded, staysWhole_cons]
          cases total : aggregate.exactFold? first rest with
          | some result =>
              obtain ⟨stays, isExact⟩ := exactFold?_eq_some_iff.mp total
              exact ⟨fun _ => ⟨result, rfl, isExact⟩, fun leaves => absurd stays leaves⟩
          | none =>
              refine ⟨fun stays => ?_, fun _ => rfl⟩
              have fits := stays rest List.prefix_rfl
              have found := exactFold?_eq_some_iff.mpr ⟨stays, toInt_ofInt fits⟩
              cases total.symm.trans found

/-- One running result that is too large makes the result a float. -/
theorem apply_of_large (arithmetic : aggregate.IsArithmetic) (operands : List Value)
    (whole : ∀ operand ∈ operands, operand.IsWhole) (part : List Int64)
    (begins : part <+: Value.integers operands) (large : ¬ Fits (aggregate.exact part)) :
    aggregate.apply operands = .ok (.float (aggregate.approximate (Value.integers operands))) :=
  (apply_whole arithmetic whole).2 fun stays => large (stays part begins)

/-- Sums, differences and products of nulls, flags and integers always have a result. Without an
integer it is zero. It is an integer exactly when no running result leaves 64 bits, and then the exact
result, and otherwise the float that the nearest numbers give. -/
theorem apply_integers (arithmetic : aggregate.IsArithmetic) (operands : List Value)
    (whole : ∀ operand ∈ operands, operand.IsWhole) :
    let integers := Value.integers operands
    (∃ result, aggregate.apply operands = .ok result) ∧
    (integers = [] → aggregate.apply operands = .ok (.int 0)) ∧
    ((∃ result, aggregate.apply operands = .ok (.int result)) ↔ aggregate.StaysWhole integers) ∧
    (∀ result, aggregate.apply operands = .ok (.int result) →
      result.toInt = aggregate.exact integers) ∧
    (¬ aggregate.StaysWhole integers →
      aggregate.apply operands = .ok (.float (aggregate.approximate integers))) := by
  intro integers
  obtain ⟨exactly, nearly⟩ := apply_whole arithmetic whole
  by_cases stays : aggregate.StaysWhole integers
  · obtain ⟨result, isResult, isExact⟩ := exactly stays
    refine ⟨⟨_, isResult⟩, fun none => ?_, ⟨fun _ => stays, fun _ => ⟨result, isResult⟩⟩,
      fun other isOther => ?_, nearly⟩
    · have isZero : result = 0 := by
        rw [show Value.integers operands = [] from none] at isExact
        exact Int64.toInt_inj.mp isExact
      rw [isResult, isZero]
    · rw [isResult] at isOther
      cases isOther
      exact isExact
  · have isResult := nearly stays
    refine ⟨⟨_, isResult⟩, fun none => ?_, ⟨fun ⟨result, found⟩ => ?_, fun kept => ?_⟩,
      fun result found => ?_, nearly⟩
    · exact absurd (none ▸ staysWhole_nil) stays
    · cases isResult.symm.trans found
    · exact absurd kept stays
    · cases isResult.symm.trans found

/-- The largest integer stays an integer under a factor of one, and not when one is added to it, although
the exact sum with the third operand has 64 bits again. -/
theorem apply_integers_largest :
    let largest := Value.int Int64.maxValue
    multiply.apply [largest, .null, .bool true] = .ok largest ∧
      add.apply [largest, .bool true, .int (-1)] =
        .ok (.float (Double.ofInt 9223372036854775808)) := by
  intro largest
  obtain ⟨-, -, product, isExact, -⟩ := apply_integers .multiply [largest, .null, .bool true] (by
    simp [largest, Value.IsWhole])
  obtain ⟨-, -, -, -, sum⟩ := apply_integers .add [largest, .bool true, .int (-1)] (by
    simp [largest, Value.IsWhole])
  constructor
  · obtain ⟨result, isResult⟩ := product.mpr (staysWhole_cons.mpr fun part isPrefix => by
      rcases List.prefix_cons_iff.mp isPrefix with rfl | ⟨shorter, rfl, begins⟩
      · decide
      · rw [List.prefix_nil.mp begins]
        decide)
    have isLargest : result = Int64.maxValue := Int64.toInt_inj.mp (isExact result isResult)
    rw [isResult, isLargest]
  · have leaves : ¬ add.StaysWhole [Int64.maxValue, 1, -1] := fun stays =>
      absurd (stays [Int64.maxValue, 1] ⟨[-1], rfl⟩) (by decide)
    have rounded : add.approximate [Int64.maxValue, 1, -1] = Double.ofInt 9223372036854775808 := by
      decide +kernel
    exact rounded ▸ sum leaves

end Aggregate

end Statute
