/-
This file defines the expressions of rules and the paths that they mention.
-/

import Statute.Rule.Operator
import Statute.Rule.Path
import Statute.Value.Basic

namespace Statute

mutual

/-- An expression is an operation, a list of expressions, or a literal value. A literal string that
starts with a dollar sign refers to the value at a path. -/
inductive Expr
  | operation (node : Operation)
  | list (items : List Expr)
  | literal (value : Value)

/-- An operation keeps its operator's name as it is written. -/
structure Operation where
  name : String
  subject : Option Expr
  value : Option Expr
  values : Option Expr
  conditions : Option (List Condition)
  combine : Option String
  unit : Option String

/-- A branch of a choice has a test and a result, or a result that needs no test. -/
structure Condition where
  test : Option Expr
  result : Option Expr
  otherwise : Option Expr

end

instance : Inhabited Expr := ⟨.literal .null⟩

mutual

/-- The paths that a value mentions, at any depth. -/
def Value.references : Value → List String
  | .string text =>
      match referencePath? text with
      | some path => [path]
      | none => []
  | .list items => Value.itemReferences items
  | .record fields => Value.fieldReferences fields
  | _ => []

def Value.itemReferences : List Value → List String
  | [] => []
  | item :: rest => item.references ++ Value.itemReferences rest

def Value.fieldReferences : List (String × Value) → List String
  | [] => []
  | (_, value) :: rest => value.references ++ Value.fieldReferences rest

end

mutual

/-- The paths that an expression mentions. -/
def Expr.references : Expr → List String
  | .operation node => node.references
  | .list items => Expr.itemReferences items
  | .literal value => value.references

def Operation.references : Operation → List String
  | ⟨_, subject, value, values, conditions, _, _⟩ =>
      Expr.optionReferences subject ++ Expr.optionReferences value ++ Expr.optionReferences values ++
        Condition.optionReferences conditions

def Condition.references : Condition → List String
  | ⟨test, result, otherwise⟩ =>
      Expr.optionReferences test ++ Expr.optionReferences result ++ Expr.optionReferences otherwise

def Expr.itemReferences : List Expr → List String
  | [] => []
  | item :: rest => item.references ++ Expr.itemReferences rest

def Expr.optionReferences : Option Expr → List String
  | none => []
  | some expr => expr.references

def Condition.optionReferences : Option (List Condition) → List String
  | none => []
  | some conditions => Condition.itemReferences conditions

def Condition.itemReferences : List Condition → List String
  | [] => []
  | condition :: rest => condition.references ++ Condition.itemReferences rest

end

namespace Operation

/-- An operation without operands. -/
def named (name : String) : Operation :=
  ⟨name, none, none, none, none, none, none⟩

/-- The operator that an operation names. -/
def operator (node : Operation) : Except RuleError Operator :=
  Operator.parse node.name

end Operation

namespace Expr

/-- The expression that refers to a path. -/
def reference (path : String) : Expr :=
  .literal (.string (referenceText path))

end Expr

end Statute
