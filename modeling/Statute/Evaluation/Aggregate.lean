/-
This file folds lists of operands into one value and compares two operands.
-/

import Statute.Evaluation.Error
import Statute.Rule.Operator
import Statute.Value.Order

namespace Statute

/-- An integer of unlimited size, when it has 64 bits. -/
def toInt64? (value : Int) : Option Int64 :=
  if Int64.minValue.toInt ≤ value ∧ value ≤ Int64.maxValue.toInt then some (Int64.ofInt value)
  else none

namespace Value

/-- Integers and flags are integral operands. -/
def integral? : Value → Option Int64
  | int value => some value
  | bool value => some (if value then 1 else 0)
  | _ => none

end Value

namespace Aggregate

/-- The number that an operand counts as. -/
def number (aggregate : Aggregate) (operand : Value) : Except EvaluationError Double :=
  match operand.toNumber with
  | .ok value => .ok value
  | .error reason => .error (.typeMismatch (Operator.aggregate aggregate).name reason.message)

/-- The step of an arithmetic operator on integers of unlimited size. -/
def integerStep : Aggregate → Int → Int → Int
  | subtract, left, right => left - right
  | multiply, left, right => left * right
  | _, left, right => left + right

/-- The step of an arithmetic operator on floats. -/
def floatStep : Aggregate → Double → Double → Double
  | subtract, left, right => left - right
  | multiply, left, right => left * right
  | _, left, right => left + right

/-- An exact fold over integers, as long as each of its steps has 64 bits. -/
def exactFold? (aggregate : Aggregate) (first : Int64) (rest : List Int64) : Option Int64 :=
  rest.foldlM (fun total operand => toInt64? (aggregate.integerStep total.toInt operand.toInt)) first

/-- The exact result of integral operands. -/
def wholeResult? (aggregate : Aggregate) (operands : List Value) : Option Int64 := do
  let integers ← operands.mapM Value.integral?
  match integers with
  | [] => none
  | first :: rest => aggregate.exactFold? first rest

/-- Integral operands give an integer, unless a step leaves 64 bits. All others give a float. -/
def arithmetic (aggregate : Aggregate) (operands : List Value) : Except EvaluationError Value :=
  match aggregate.wholeResult? operands with
  | some result => .ok (.int result)
  | none => do
      let numbers ← operands.mapM aggregate.number
      match numbers with
      | [] => return .int 0
      | first :: rest => return .float (rest.foldl aggregate.floatStep first)

/-- A single operand gives zero. Divisors that are zero are passed over. -/
def quotient (operands : List Value) : Except EvaluationError Value := do
  let numbers ← operands.mapM divide.number
  match numbers with
  | [] => return .int 0
  | [_] => return .int 0
  | first :: divisors =>
      return .float ((divisors.filter fun divisor => !divisor.isZero).foldl (· / ·) first)

/-- An operand replaces the best one so far when their comparison goes the wanted way. -/
def better (aggregate : Aggregate) (wanted : Ordering) (best candidate : Value) :
    Except EvaluationError Value :=
  match candidate.compare best with
  | some ordering => .ok (if ordering = wanted then candidate else best)
  | none =>
      .error (.typeMismatch (Operator.aggregate aggregate).name
        ("cannot order " ++ candidate.typeName ++ " and " ++ best.typeName))

/-- The first of the smallest or largest operands. -/
def extremum (aggregate : Aggregate) (wanted : Ordering) : List Value → Except EvaluationError Value
  | [] => .ok (.int 0)
  | first :: rest => rest.foldlM (aggregate.better wanted) first

/-- The value of operands of which none is null, at least one. -/
def combine (aggregate : Aggregate) (operands : List Value) : Except EvaluationError Value :=
  match aggregate with
  | and => .ok (.bool (operands.all Value.isTruthy))
  | or => .ok (.bool (operands.any Value.isTruthy))
  | concat => .ok (.string (String.join (operands.map Value.text)))
  | min => aggregate.extremum .lt operands
  | max => aggregate.extremum .gt operands
  | divide => quotient operands
  | _ => aggregate.arithmetic operands

/-- Null operands are dropped, and without operands the result is zero. -/
def apply (aggregate : Aggregate) (operands : List Value) : Except EvaluationError Value :=
  match operands.filter fun operand => !operand.isNull with
  | [] => .ok (.int 0)
  | present => aggregate.combine present

end Aggregate

namespace Comparison

/-- Values without an order are neither smaller nor larger than each other. -/
def holds (comparison : Comparison) (left right : Value) : Bool :=
  match comparison with
  | equals => left.looseEq right
  | notEquals => !left.looseEq right
  | greaterThan => left.compare right == some .gt
  | lessThan => left.compare right == some .lt
  | greaterOrEqual => left.compare right == some .gt || left.compare right == some .eq
  | lessOrEqual => left.compare right == some .lt || left.compare right == some .eq

end Comparison

namespace Value

/-- A list has its items, a record has its names, and any other value but null has itself. -/
def hasMember (allowed subject : Value) : Bool :=
  match allowed with
  | null => false
  | list items => items.any fun item => item.looseEq subject
  | record fields =>
      match subject with
      | string name => Entries.contains name fields
      | _ => false
  | single => single.looseEq subject

/-- A list stands for its items, and any other value for itself. -/
def spread : Value → List Value
  | list items => items
  | single => [single]

end Value

end Statute
