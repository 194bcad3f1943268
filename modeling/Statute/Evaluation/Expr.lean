/-
This file evaluates expressions, given the values of the paths that they refer to.
-/

import Statute.Evaluation.Operation
import Statute.Rule.Expr.Basic

namespace Statute

/-- The evaluation of a path. -/
abbrev LookUp := String → Evaluation Value

/-- A string that refers to a path has the path's value. All other values stand for themselves. -/
def Value.resolve (lookUp : LookUp) : Value → Evaluation Value
  | .string text =>
      match referencePath? text with
      | some path => lookUp path
      | none => pure (.string text)
  | value => pure value

mutual

/-- The evaluation of an expression. A list has the list of its items' values. -/
def Expr.evaluate (lookUp : LookUp) : Expr → Evaluation Value
  | .operation node => node.evaluate lookUp
  | .list items => (Operand.each (Expr.evaluateItems lookUp items)).value
  | .literal value => value.resolve lookUp

def Operation.evaluate (lookUp : LookUp) : Operation → Evaluation Value
  | ⟨name, subject, value, values, conditions, combine, unit⟩ =>
      Operator.perform name
        ⟨Expr.part? lookUp subject, Expr.operand? lookUp value, Expr.operand? lookUp values,
          Condition.branches? lookUp conditions, combine, unit⟩

def Expr.evaluateItems (lookUp : LookUp) : List Expr → List (Evaluation Value)
  | [] => []
  | item :: rest => item.evaluate lookUp :: Expr.evaluateItems lookUp rest

def Expr.part? (lookUp : LookUp) : Option Expr → Option (Evaluation Value)
  | none => none
  | some expr => some (expr.evaluate lookUp)

/-- An operand that is written as a list keeps its items apart. -/
def Expr.operand (lookUp : LookUp) : Expr → Operand
  | .operation node => .whole (node.evaluate lookUp)
  | .list items => .each (Expr.evaluateItems lookUp items)
  | .literal value => .whole (value.resolve lookUp)

def Expr.operand? (lookUp : LookUp) : Option Expr → Option Operand
  | none => none
  | some expr => some (expr.operand lookUp)

def Condition.branch (lookUp : LookUp) : Condition → Branch
  | ⟨test, result, otherwise⟩ =>
      ⟨Expr.part? lookUp test, Expr.part? lookUp result, Expr.part? lookUp otherwise⟩

def Condition.branchItems (lookUp : LookUp) : List Condition → List Branch
  | [] => []
  | condition :: rest => condition.branch lookUp :: Condition.branchItems lookUp rest

def Condition.branches? (lookUp : LookUp) : Option (List Condition) → Option (List Branch)
  | none => none
  | some conditions => some (Condition.branchItems lookUp conditions)

end

end Statute
