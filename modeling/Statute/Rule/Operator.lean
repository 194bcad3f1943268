/-
This file names the operators of rules.
-/

import Statute.Rule.Error

namespace Statute

/-- The operators that fold a list of operands into one value. -/
inductive Aggregate
  | add
  | subtract
  | multiply
  | divide
  | min
  | max
  | concat
  | and
  | or
  deriving DecidableEq, Repr

/-- The operators that compare two operands. -/
inductive Comparison
  | equals
  | notEquals
  | greaterThan
  | lessThan
  | greaterOrEqual
  | lessOrEqual
  deriving DecidableEq, Repr

/-- The operators of rules. -/
inductive Operator
  | aggregate (operator : Aggregate)
  | comparison (operator : Comparison)
  | not
  | isNull
  | notNull
  | isIn
  | notIn
  | forEach
  | choice
  | dateDifference
  deriving DecidableEq, Repr

namespace Operator

/-- The name of an operator in rules. -/
def name : Operator → String
  | aggregate .add => "ADD"
  | aggregate .subtract => "SUBTRACT"
  | aggregate .multiply => "MULTIPLY"
  | aggregate .divide => "DIVIDE"
  | aggregate .min => "MIN"
  | aggregate .max => "MAX"
  | aggregate .concat => "CONCAT"
  | aggregate .and => "AND"
  | aggregate .or => "OR"
  | comparison .equals => "EQUALS"
  | comparison .notEquals => "NOT_EQUALS"
  | comparison .greaterThan => "GREATER_THAN"
  | comparison .lessThan => "LESS_THAN"
  | comparison .greaterOrEqual => "GREATER_OR_EQUAL"
  | comparison .lessOrEqual => "LESS_OR_EQUAL"
  | not => "NOT"
  | isNull => "IS_NULL"
  | notNull => "NOT_NULL"
  | isIn => "IN"
  | notIn => "NOT_IN"
  | forEach => "FOREACH"
  | choice => "IF"
  | dateDifference => "SUBTRACT_DATE"

/-- All operators. -/
def all : List Operator :=
  [aggregate .add, aggregate .subtract, aggregate .multiply, aggregate .divide, aggregate .min,
   aggregate .max, aggregate .concat, aggregate .and, aggregate .or, comparison .equals,
   comparison .notEquals, comparison .greaterThan, comparison .lessThan, comparison .greaterOrEqual,
   comparison .lessOrEqual, not, isNull, notNull, isIn, notIn, forEach, choice, dateDifference]

/-- The operator of a name. Names are written in capitals. -/
def ofName? (name : String) : Option Operator :=
  all.find? fun operator => operator.name == name

/-- The operator of a name, or the reason for which there is none. -/
def parse (name : String) : Except RuleError Operator :=
  match ofName? name with
  | some operator => .ok operator
  | none => .error (.unknownOperation name)

def isAggregate : Operator → Bool
  | aggregate _ => true
  | _ => false

def isComparison : Operator → Bool
  | comparison _ => true
  | _ => false

theorem ofName?_name (operator : Operator) : ofName? operator.name = some operator := by
  cases operator with
  | aggregate kind => cases kind <;> rfl
  | comparison kind => cases kind <;> rfl
  | _ => rfl

end Operator

end Statute
