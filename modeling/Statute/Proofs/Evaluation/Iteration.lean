/-
This file proves how iterations differ from the operations that they combine their results with.
-/

import Statute.Proofs.Evaluation.Tracing
import Statute.Proofs.Evaluation.Visibility

namespace Statute

/-- The expression that an iteration repeats. Of a list it is the first. -/
def Expr.body? : Expr → Option Expr
  | .list items => items.head?
  | single => some single

/-- Values are written out as the items of one literal, or each as a literal of its own, which does not
refer to a path then. -/
inductive Expr.Spells (operands : List Value) : Expr → Prop
  | whole : Spells operands (.literal (.list operands))
  | each : (∀ text, .string text ∈ operands → referencePath? text = none) →
      Spells operands (.list (operands.map .literal))

/-- An operation that evaluates a body for each item of a subject and combines the results. -/
structure Operation.Iterates (node : Operation) (kind : Aggregate) (subject body : Expr) : Prop where
  name : node.name = Operator.forEach.name
  subject : node.subject = some subject
  body : node.value.bind Expr.body? = some body
  combine : node.combine = some (Operator.aggregate kind).name

/-- An operation on values that are written out. -/
structure Operation.Applies (node : Operation) (kind : Aggregate) (operands : List Value) : Prop where
  name : node.name = (Operator.aggregate kind).name
  values : ∃ listing, node.values = some listing ∧ listing.Spells operands

namespace Aggregate

/-- What the operation itself gives for operands. Those of logic do not leave null out. -/
def outright (aggregate : Aggregate) (operands : List Value) : Except EvaluationError Value :=
  match aggregate with
  | and => .ok (.bool (operands.all Value.isTruthy))
  | or => .ok (.bool (operands.any Value.isTruthy))
  | _ => aggregate.apply operands

/-- Only null operands leave zero, and otherwise they do not count. -/
theorem apply_eq (aggregate : Aggregate) (operands : List Value) :
    aggregate.apply operands =
      if operands.all Value.isNull then .ok (.int 0)
      else aggregate.combine (operands.filter fun operand => !operand.isNull) := by
  have nothing : operands.all Value.isNull = true ↔
      (operands.filter fun operand => !operand.isNull) = [] := by
    simp [List.filter_eq_nil_iff]
  rw [apply]
  split
  · rename_i none
    rw [if_pos (nothing.mpr none)]
  · rename_i some
    rw [if_neg (some ∘ nothing.mp)]

/-- A disjunction of operands loses nothing by leaving null out. -/
theorem combine_or (operands : List Value) :
    Aggregate.or.combine (operands.filter fun operand => !operand.isNull) =
      .ok (.bool (operands.any Value.isTruthy)) := by
  have counted (operand : Value) : (!operand.isNull && operand.isTruthy) = operand.isTruthy := by
    cases operand <;> rfl
  simp only [combine, List.any_filter, counted]

/-- A conjunction of operands overlooks null. -/
theorem combine_and (operands : List Value) :
    Aggregate.and.combine (operands.filter fun operand => !operand.isNull) =
      .ok (.bool (operands.all fun operand => operand.isNull || operand.isTruthy)) := by
  simp only [combine, List.all_filter, Bool.not_not]

theorem exists_ne_null_iff (operands : List Value) :
    (∃ operand ∈ operands, operand ≠ .null) ↔ operands.all Value.isNull = false := by
  simp [List.all_eq_false, ← Value.isNull_iff]

/-- To overlook null does not matter where there is none, or where another operand is false. -/
theorem all_isTruthy_iff (operands : List Value) :
    (operands.all fun operand => operand.isNull || operand.isTruthy) =
        operands.all Value.isTruthy ↔
      .null ∉ operands ∨ ∃ operand ∈ operands, operand ≠ .null ∧ operand.isTruthy = false := by
  constructor
  · intro same
    by_contra unlike
    obtain ⟨hasNull, noneFalse⟩ := not_or.mp unlike
    have overlooked :
        (operands.all fun operand => operand.isNull || operand.isTruthy) = true := by
      refine List.all_eq_true.mpr fun operand member => ?_
      by_cases isNull : operand = .null
      · rw [isNull]
        rfl
      · have isTrue : operand.isTruthy = true :=
          Bool.not_eq_false _ ▸ fun isFalse => noneFalse ⟨operand, member, isNull, isFalse⟩
        rw [isTrue, Bool.or_true]
    have nullIsTrue := List.all_eq_true.mp (same.symm.trans overlooked) _ (not_not.mp hasNull)
    cases nullIsTrue
  · have counts (operand : Value) (notNull : operand ≠ .null) : operand.isNull = false :=
      Bool.eq_false_iff.mpr fun isNull => notNull (Value.isNull_iff.mp isNull)
    rintro (noNull | ⟨operand, member, notNull, isFalse⟩)
    · rw [Bool.eq_iff_iff, List.all_eq_true, List.all_eq_true]
      refine forall₂_congr fun operand member => ?_
      rw [counts operand fun isNull => noNull (isNull ▸ member), Bool.false_or]
    · rw [List.all_eq_false.mpr ⟨operand, member, by simp [isFalse, counts operand notNull]⟩,
        List.all_eq_false.mpr ⟨operand, member, by simp [isFalse]⟩]

theorem apply_eq_outright {aggregate : Aggregate} (noAnd : aggregate ≠ .and) (noOr : aggregate ≠ .or)
    (operands : List Value) : aggregate.apply operands = aggregate.outright operands := by
  cases aggregate with
  | and => exact absurd rfl noAnd
  | or => exact absurd rfl noOr
  | _ => rfl

/-- Folding a disjunction is the same as the operation as soon as one operand is not null. -/
theorem or_apply_iff (operands : List Value) :
    Aggregate.or.apply operands = Aggregate.or.outright operands ↔
      ∃ operand ∈ operands, operand ≠ .null := by
  rw [exists_ne_null_iff, apply_eq, combine_or, outright]
  cases operands.all Value.isNull <;> simp

/-- Folding a conjunction is the same as the operation as soon as one operand is not null, and null is
not the only operand that is false. -/
theorem and_apply_iff (operands : List Value) :
    Aggregate.and.apply operands = Aggregate.and.outright operands ↔
      (∃ operand ∈ operands, operand ≠ .null) ∧
        (.null ∉ operands ∨ ∃ operand ∈ operands, operand ≠ .null ∧ operand.isTruthy = false) := by
  rw [exists_ne_null_iff, ← all_isTruthy_iff, apply_eq, combine_and, outright]
  cases operands.all Value.isNull <;> simp

end Aggregate

namespace Value

/-- A value that is no reference stands for itself. -/
theorem resolve_plain {value : Value}
    (plain : ∀ text, value = .string text → referencePath? text = none) (lookUp : LookUp) :
    value.resolve lookUp = pure value := by
  unfold resolve
  split
  · rename_i text
    rw [plain text rfl]
  · rfl

end Value

theorem runAll_pure (values : List Value) : runAll (values.map pure) = pure values := by
  induction values with
  | nil => rfl
  | cons value rest inductionHypothesis =>
      simp only [List.map_cons, runAll, inductionHypothesis, pure_bind]

namespace Expr.Spells

variable {operands : List Value} {listing : Expr}

/-- Operands that are written out are there without an evaluation. -/
theorem operand (spells : listing.Spells operands) (lookUp : LookUp) :
    listing.operand lookUp = .whole (pure (.list operands)) ∨
      listing.operand lookUp = .each (operands.map pure) := by
  cases spells with
  | whole =>
      left
      rw [Expr.operand]
      rfl
  | each plain =>
      right
      rw [Expr.operand]
      refine congrArg Operand.each ?_
      induction operands with
      | nil => rfl
      | cons operand rest inductionHypothesis =>
          have isPlain (text : String) (isText : operand = .string text) :
              referencePath? text = none :=
            plain text (isText ▸ List.mem_cons_self)
          rw [List.map_cons, Expr.evaluateItems, Expr.evaluate, Value.resolve_plain isPlain,
            inductionHypothesis fun text member => plain text (List.mem_cons_of_mem _ member),
            List.map_cons]

/-- So operations that are no logic read them as they are. -/
theorem values (spells : listing.Spells operands) (lookUp : LookUp) :
    (listing.operand lookUp).values = pure operands := by
  rcases spells.operand lookUp with whole | each
  · rw [whole]
    rfl
  · rw [each]
    exact runAll_pure operands

end Expr.Spells

namespace Operator

/-- The results of a body in the scopes of items, one after the other. -/
def visits (surroundings : Surroundings) (body : Evaluation Value) :
    List Value → Progress → List (Except EvaluationError Value)
  | [], _ => []
  | item :: rest, progress =>
      let run := (Evaluation.within (itemScope item) body).runFrom surroundings progress
      run.1 :: visits surroundings body rest run.2

variable {surroundings : Surroundings} {progress other : Progress}

theorem perform_name (operator : Operator) (parts : Parts) :
    perform operator.name parts = Evaluation.inNode operator.node id (operator.apply parts) := by
  rw [perform, parse, ofName?_name]

/-- An iteration collects what its visits give, wherever it sees the same. -/
theorem runFrom_iterate {body : Evaluation Value} (unswayed : body.Unswayed surroundings)
    {items results : List Value} (alike : progress.LooksLike surroundings other)
    (visited : visits surroundings body items progress = results.map .ok) :
    ((iterate body items).runFrom surroundings other).1 = .ok (results.flatMap Value.spread) := by
  induction items generalizing progress other results with
  | nil =>
      obtain rfl : results = [] := List.map_eq_nil_iff.mp visited.symm
      rfl
  | cons item rest inductionHypothesis =>
      cases results with
      | nil => cases visited
      | cons result others =>
          obtain ⟨first, following⟩ := List.cons.inj visited
          obtain ⟨same, between⟩ := unswayed.within (itemScope item) progress other alike
          rw [iterate, Evaluation.runFrom_bind]
          cases ran : (Evaluation.within (itemScope item) body).runFrom surroundings other with
          | mk reached after =>
              rw [ran] at same between
              obtain rfl : reached = .ok result := same.trans first
              have collected := inductionHypothesis between following
              dsimp only
              rw [Evaluation.runFrom_bind]
              cases ranOthers : (iterate body rest).runFrom surroundings after with
              | mk reached last =>
                  rw [ranOthers] at collected
                  obtain rfl : reached = .ok (others.flatMap Value.spread) := collected
                  rfl

theorem decideEach_pure (decisive : Bool) (values : List Value) :
    ∃ seen, decideEach decisive (values.map pure) =
      pure (if values.any fun value => value.isTruthy = decisive then decisive else !decisive,
        seen) := by
  induction values with
  | nil => exact ⟨[], rfl⟩
  | cons value rest inductionHypothesis =>
      obtain ⟨seen, decided⟩ := inductionHypothesis
      by_cases decides : value.isTruthy = decisive
      · exact ⟨[value], by simp [decideEach, decides]⟩
      · exact ⟨value :: seen, by simp [decideEach, decides, decided]⟩

/-- Operands of logic that are written out decide by their truth. -/
theorem decideOperands_spelled {operands : List Value} {listing : Expr}
    (spells : listing.Spells operands) (decisive : Bool) (lookUp : LookUp) :
    ∃ seen, decideOperands decisive (some (listing.operand lookUp)) =
      pure (if operands.any fun operand => operand.isTruthy = decisive then decisive else !decisive,
        seen) := by
  rcases spells.operand lookUp with whole | each
  · rw [whole]
    exact ⟨operands, rfl⟩
  · rw [each]
    exact decideEach_pure decisive operands

theorem runFrom_ofResult (result : Except EvaluationError Value) :
    (Evaluation.ofResult result).runFrom surroundings progress = (result, progress) := by
  cases result <;> rfl

/-- Logic gives the verdict on its operands. -/
theorem runFrom_shortCircuit {parts : Parts} {decisive verdict : Bool} {seen : List Value}
    (decided : decideOperands decisive parts.values = pure (verdict, seen)) :
    ((shortCircuit decisive parts).runFrom surroundings progress).1 = .ok (.bool verdict) := by
  rw [shortCircuit, decided, pure_bind]
  rfl

/-- An operation on operands that are written out reads nothing else. -/
theorem runFrom_aggregate {operands : List Value} {listing : Expr} (spells : listing.Spells operands)
    (kind : Aggregate) {parts : Parts} {lookUp : LookUp}
    (listed : parts.values = some (listing.operand lookUp)) :
    (((aggregate kind).apply parts).runFrom surroundings progress).1 = kind.outright operands := by
  have folded (kind : Aggregate) :
      (do Evaluation.ofResult (kind.apply (← parts.operands)) : Evaluation Value).runFrom surroundings
        progress = (kind.apply operands, progress) := by
    have read : parts.operands = pure operands := by
      rw [Parts.operands, listed]
      exact spells.values lookUp
    rw [read, pure_bind, runFrom_ofResult]
  cases kind with
  | and =>
      obtain ⟨seen, decided⟩ := decideOperands_spelled spells false lookUp
      have verdict : (if operands.any fun operand => operand.isTruthy = false then false else !false) =
          operands.all Value.isTruthy := by
        have counted (operand : Value) :
            decide (operand.isTruthy = false) = !operand.isTruthy := by
          cases operand.isTruthy <;> rfl
        simp only [counted, List.all_eq_not_any_not]
        cases operands.any fun operand => !operand.isTruthy <;> rfl
      rw [verdict, ← listed] at decided
      exact runFrom_shortCircuit decided
  | or =>
      obtain ⟨seen, decided⟩ := decideOperands_spelled spells true lookUp
      have verdict : (if operands.any fun operand => operand.isTruthy = true then true else !true) =
          operands.any Value.isTruthy := by
        simp only [Bool.decide_eq_true]
        cases operands.any Value.isTruthy <;> rfl
      rw [verdict, ← listed] at decided
      exact runFrom_shortCircuit decided
  | _ => exact congrArg Prod.fst (folded _)

/-- A list is iterated over, also one without items. -/
theorem iterateOver_list (body : Evaluation Value) (items : List Value) :
    iterateOver body (.list items) = iterate body items := by
  cases items <;> rfl

theorem combination_name (kind : Aggregate) :
    combination (some (aggregate kind).name) = pure kind := by
  rw [combination, parse, ofName?_name]

theorem fst_inNode {α : Type} (node : TraceNode) (shown : α → Value) (body : Evaluation α) :
    ((Evaluation.inNode node shown body).runFrom surroundings progress).1 =
      (body.runFrom surroundings (progress.inside node)).1 := by
  rw [Evaluation.runFrom_inNode]
  cases body.runFrom surroundings (progress.inside node) with
  | mk result after => cases result <;> rfl

/-- An iteration over a list combines what its visits give. -/
theorem runFrom_repeatFor {parts : Parts} {kind : Aggregate} {subject body : Evaluation Value}
    {items results : List Value} {between : Progress}
    (combines : parts.combine = some (aggregate kind).name) (has : parts.subject = some subject)
    (repeats : parts.value.bind Operand.body? = some body)
    (ran : subject.runFrom surroundings progress = (.ok (.list items), between))
    (visited : (iterate body items).runFrom surroundings between = (.ok results, other)) :
    ((repeatFor parts).runFrom surroundings progress).1 = kind.apply results := by
  rw [repeatFor, combines, combination_name, pure_bind, repeats, has]
  dsimp only [partValue]
  rw [Evaluation.runFrom_bind_of_ok ran, iterateOver_list, Evaluation.runFrom_bind_of_ok visited,
    runFrom_ofResult]

end Operator

theorem Expr.body?_operand (expr : Expr) (lookUp : LookUp) :
    (expr.operand lookUp).body? = expr.body?.map (Expr.evaluate lookUp) := by
  cases expr with
  | operation node => simp only [operand, Operand.body?, body?, Option.map_some, evaluate]
  | literal value => simp only [operand, Operand.body?, body?, Option.map_some, evaluate]
  | list items =>
      rw [Expr.operand, Operand.body?, Expr.body?]
      cases items with
      | nil => rfl
      | cons item rest => rw [Expr.evaluateItems, List.head?_cons, List.head?_cons, Option.map_some]

namespace Operation

variable {surroundings : Surroundings} {progress between : Progress} {node : Operation}
  {kind : Aggregate} {subject body : Expr} {items results operands : List Value}

/-- What an operation on written operands gives does not depend on the context. -/
theorem Applies.result (applies : node.Applies kind operands) :
    ((node.evaluate Evaluation.valueOf).runFrom surroundings progress).1 = kind.outright operands := by
  obtain ⟨name, nodeSubject, value, values, conditions, combine, unit⟩ := node
  obtain ⟨rfl, listing, rfl, spells⟩ := applies
  rw [evaluate, Operator.perform_name, Operator.fst_inNode]
  exact Operator.runFrom_aggregate spells kind (by rw [Expr.operand?])

/-- An iteration folds what its body gives for the items, with lists spread. -/
theorem Iterates.result (iterates : node.Iterates kind subject body)
    (evaluated : (subject.evaluate Evaluation.valueOf).runFrom surroundings progress =
      (.ok (.list items), between))
    (visited : Operator.visits surroundings (body.evaluate Evaluation.valueOf) items between =
      results.map .ok) :
    ((node.evaluate Evaluation.valueOf).runFrom surroundings progress).1 =
      kind.apply (results.flatMap Value.spread) := by
  obtain ⟨name, _, value, values, conditions, _, unit⟩ := node
  obtain ⟨rfl, rfl, repeats, rfl⟩ := iterates
  dsimp only at repeats
  have unswayed (expr : Expr) : (expr.evaluate Evaluation.valueOf).Unswayed surroundings :=
    Evaluation.Unswayed.congruence.evaluateExpr expr
  have inside : progress.LooksLike surroundings (progress.inside Operator.forEach.node) :=
    ⟨rfl, rfl, rfl, .inr ⟨rfl, rfl⟩⟩
  obtain ⟨sameSubject, reached⟩ := unswayed subject _ _ inside
  rw [evaluated] at sameSubject reached
  cases ran : (subject.evaluate Evaluation.valueOf).runFrom surroundings
      (progress.inside Operator.forEach.node) with
  | mk result after =>
      rw [ran] at sameSubject reached
      obtain rfl : result = .ok (.list items) := sameSubject
      have collected := Operator.runFrom_iterate (unswayed body) reached visited
      cases ranItems : (Operator.iterate (body.evaluate Evaluation.valueOf) items).runFrom surroundings
          after with
      | mk gathered last =>
          rw [ranItems] at collected
          obtain rfl : gathered = .ok (results.flatMap Value.spread) := collected
          rw [evaluate, Operator.perform_name, Operator.fst_inNode]
          refine Operator.runFrom_repeatFor rfl (by rw [Expr.part?]) ?_ ran ranItems
          cases value with
          | none => cases repeats
          | some value =>
              rw [Expr.operand?, Option.bind_some, Expr.body?_operand]
              exact congrArg (Option.map (Expr.evaluate Evaluation.valueOf)) repeats

/-- An iteration gives the same as the operation that it combines with, on the results of its body
with lists spread, for all operations but those of logic. A disjunction is the same as soon as one
result is not null, and a conjunction if besides null is not the only false result. An iteration whose
results are all null, or that has none, gives zero for any operation. -/
theorem iterates_agrees {looped applied : Operation} (iterates : looped.Iterates kind subject body)
    (evaluated : (subject.evaluate Evaluation.valueOf).runFrom surroundings progress =
      (.ok (.list items), between))
    (visited : Operator.visits surroundings (body.evaluate Evaluation.valueOf) items between =
      results.map .ok)
    (applies : applied.Applies kind (results.flatMap Value.spread)) :
    let operands := results.flatMap Value.spread
    let combined := ((looped.evaluate Evaluation.valueOf).runFrom surroundings progress).1
    let direct := ((applied.evaluate Evaluation.valueOf).runFrom surroundings progress).1
    combined = kind.apply operands ∧
    direct = kind.outright operands ∧
    (kind ≠ .and → kind ≠ .or → combined = direct) ∧
    (kind = .or → (combined = direct ↔ ∃ operand ∈ operands, operand ≠ .null)) ∧
    (kind = .and → (combined = direct ↔ (∃ operand ∈ operands, operand ≠ .null) ∧
      (.null ∉ operands ∨ ∃ operand ∈ operands, operand ≠ .null ∧ operand.isTruthy = false))) ∧
    ((∀ operand ∈ operands, operand = .null) → combined = .ok (.int 0)) := by
  intro operands combined direct
  have folded : combined = kind.apply operands := iterates.result evaluated visited
  have given : direct = kind.outright operands := applies.result
  rw [folded, given]
  refine ⟨rfl, rfl, fun noAnd noOr => ?_, ?_, ?_, fun allNull => ?_⟩
  · exact Aggregate.apply_eq_outright noAnd noOr operands
  · rintro rfl
    exact Aggregate.or_apply_iff operands
  · rintro rfl
    exact Aggregate.and_apply_iff operands
  · rw [Aggregate.apply_eq, if_pos]
    exact List.all_eq_true.mpr fun operand member => Value.isNull_iff.mpr (allNull operand member)

/-- Nothing is known to an evaluation. -/
def bareSurroundings : Surroundings :=
  { provider := Provider.empty
    service := "TOESLAGEN"
    date := default
    definitions := []
    parameters := []
    claims := []
    properties := []
    sources := []
    overwrite := []
    approved := true
    cancellation := .none }

/-- The iteration that combines the items of a list themselves. -/
def overItems (kind : Aggregate) (items : List Value) : Operation :=
  { Operation.named "FOREACH" with
    subject := some (.literal (.list items))
    value := some (.literal (.string "$value"))
    combine := some (Operator.aggregate kind).name }

/-- The operation on the same items. -/
def onItems (kind : Aggregate) (items : List Value) : Operation :=
  { Operation.named (Operator.aggregate kind).name with
    values := some (.list (items.map .literal)) }

/-- What an operation gives when nothing is known. -/
def bareResult (node : Operation) : Except EvaluationError Value :=
  ((node.evaluate Evaluation.valueOf).runFrom bareSurroundings (Progress.start .initial)).1

theorem overItems_iterates (kind : Aggregate) (items : List Value) :
    (overItems kind items).Iterates kind (.literal (.list items)) (.literal (.string "$value")) :=
  ⟨rfl, rfl, rfl, rfl⟩

theorem onItems_applies (kind : Aggregate) {items : List Value}
    (plain : ∀ text, .string text ∉ items) : (onItems kind items).Applies kind items :=
  ⟨rfl, _, rfl, .each fun text member => absurd member (plain text)⟩

/-- The sum of a list with a list and null in it. -/
theorem iterates_agrees_sum :
    bareResult (overItems .add [.int 1, .list [.int 2, .null]]) = .ok (.int 3) ∧
      bareResult (onItems .add [.int 1, .int 2, .null]) = .ok (.int 3) := by
  have visited : Operator.visits bareSurroundings
      ((Expr.literal (.string "$value")).evaluate Evaluation.valueOf)
      [.int 1, .list [.int 2, .null]] (Progress.start .initial) =
        [Value.int 1, .list [.int 2, .null]].map .ok := by rfl
  have applies : (onItems .add [.int 1, .int 2, .null]).Applies .add
      ([Value.int 1, .list [.int 2, .null]].flatMap Value.spread) :=
    onItems_applies .add fun text member => by simp at member
  obtain ⟨combined, -, same, -⟩ := iterates_agrees (overItems_iterates .add _) rfl visited applies
  have sum : Aggregate.add.apply ([Value.int 1, .list [.int 2, .null]].flatMap Value.spread) =
      .ok (.int 3) := by rfl
  exact ⟨combined.trans sum, (same (by decide) (by decide)).symm.trans (combined.trans sum)⟩

/-- Over no items, an iteration that asks whether all are true gives zero, although the conjunction of
nothing is true, and over null it overlooks what makes the conjunction false. -/
theorem iteration_differs :
    (bareResult (overItems .and []) = .ok (.int 0) ∧
      bareResult (onItems .and []) = .ok (.bool true)) ∧
    (bareResult (overItems .or []) = .ok (.int 0) ∧
      bareResult (onItems .or []) = .ok (.bool false)) ∧
    bareResult (overItems .and [.int 1, .null]) = .ok (.bool true) ∧
      bareResult (onItems .and [.int 1, .null]) = .ok (.bool false) := by
  have combined (kind : Aggregate) (items : List Value)
      (visited : Operator.visits bareSurroundings
        ((Expr.literal (.string "$value")).evaluate Evaluation.valueOf) items
        (Progress.start .initial) = items.map .ok) :
      bareResult (overItems kind items) = kind.apply (items.flatMap Value.spread) :=
    (overItems_iterates kind items).result rfl visited
  have direct (kind : Aggregate) {items : List Value} (plain : ∀ text, .string text ∉ items) :
      bareResult (onItems kind items) = kind.outright items :=
    (onItems_applies kind plain).result
  refine ⟨⟨combined .and [] rfl, direct .and ?_⟩, ⟨combined .or [] rfl, direct .or ?_⟩,
    combined .and [.int 1, .null] (by rfl), direct .and ?_⟩
  · exact fun text member => by cases member
  · exact fun text member => by cases member
  · exact fun text member => by simp at member

end Operation

end Statute
