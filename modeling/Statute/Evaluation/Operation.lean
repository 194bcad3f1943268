/-
This file gives operations their meaning in terms of the evaluations of their parts.
-/

import Statute.Evaluation.Aggregate
import Statute.Evaluation.Context

namespace Statute

/-- An operand is a list of parts that are evaluated one by one, or a single part. -/
inductive Operand
  | each (parts : List (Evaluation Value))
  | whole (part : Evaluation Value)

/-- A branch of a choice. -/
structure Branch where
  test : Option (Evaluation Value)
  result : Option (Evaluation Value)
  otherwise : Option (Evaluation Value)

/-- The parts of an operation. -/
structure Parts where
  subject : Option (Evaluation Value)
  value : Option Operand
  values : Option Operand
  branches : Option (List Branch)
  combine : Option String
  unit : Option String

/-- An absent part is null. -/
def partValue : Option (Evaluation Value) → Evaluation Value
  | some part => part
  | none => pure .null

/-- Parts are evaluated from first to last. -/
def runAll : List (Evaluation Value) → Evaluation (List Value)
  | [] => pure []
  | part :: rest => do
      let value ← part
      let values ← runAll rest
      return value :: values

namespace Operand

/-- The value of an operand, which is a list when it has several parts. -/
def value : Operand → Evaluation Value
  | each parts => do return .list (← runAll parts)
  | whole part => part

/-- An absent operand is null. -/
def valueOf : Option Operand → Evaluation Value
  | some operand => operand.value
  | none => pure .null

/-- The values of an operand. A single part that gives a list stands for its items. -/
def values : Operand → Evaluation (List Value)
  | each parts => runAll parts
  | whole part => do return (← part).spread

/-- The part that an iteration repeats. Of a list it is the first. -/
def body? : Operand → Option (Evaluation Value)
  | each parts => parts.head?
  | whole part => some part

end Operand

namespace Parts

/-- The values of the operand list. -/
def operands (parts : Parts) : Evaluation (List Value) :=
  match parts.values with
  | some operand => operand.values
  | none => pure []

/-- The subject, or else the first operand, or else null. -/
def single (parts : Parts) : Evaluation Value :=
  match parts.subject with
  | some subject => subject
  | none => do return Value.ofOption (← parts.operands).head?

end Parts

/-- An operation that lacks a part. -/
def malformed {α : Type} (operator : Operator) (reason : String) : Evaluation α :=
  throw (.rule (.malformedOperation operator.name reason))

namespace Operator

/-- Parts are evaluated up to the first one whose truth decides. The values are those evaluated. -/
def decideEach (decisive : Bool) : List (Evaluation Value) → Evaluation (Bool × List Value)
  | [] => pure (!decisive, [])
  | part :: rest => do
      let value ← part
      if value.isTruthy = decisive then return (decisive, [value])
      else
        let (verdict, values) ← decideEach decisive rest
        return (verdict, value :: values)

/-- Without operands nothing decides. The items of a single part are all evaluated. -/
def decideOperands (decisive : Bool) : Option Operand → Evaluation (Bool × List Value)
  | none => pure (!decisive, [])
  | some (.each items) => decideEach decisive items
  | some (.whole item) => do
      let values := (← item).spread
      let decided := values.any fun value => value.isTruthy = decisive
      return (if decided then decisive else !decisive, values)

/-- A conjunction is decided by a false value and a disjunction by a true one. -/
def shortCircuit (decisive : Bool) (parts : Parts) : Evaluation Value := do
  let (verdict, values) ← decideOperands decisive parts.values
  Evaluation.annotateDetail "evaluated_values" (.list values)
  return .bool verdict

/-- The first two values. -/
def firstTwo (comparison : Comparison) (parts : Parts) : Evaluation (Value × Value) := do
  match ← parts.operands with
  | left :: right :: _ => return (left, right)
  | _ => malformed (.comparison comparison) "expected subject and value, or two values"

/-- The two operands of a comparison are the subject and the value, or the first two values. -/
def comparisonOperands (comparison : Comparison) (parts : Parts) : Evaluation (Value × Value) := do
  match parts.subject, parts.value with
  | some subject, some value =>
      let left ← subject
      let right ← value.value
      return (left, right)
  | _, _ => firstTwo comparison parts

/-- Membership is noted with the subject and the allowed values. -/
def membership (expected : Bool) (parts : Parts) : Evaluation Value := do
  let subject ← parts.single
  let allowed ← Operand.valueOf parts.values
  Evaluation.annotateDetail "subject_value" subject
  Evaluation.annotateDetail "allowed_values" allowed
  return .bool (allowed.hasMember subject == expected)

/-- The first branch that needs no test or whose test is true gives the result. -/
def choose (index : Nat) : List Branch → Evaluation Value
  | [] => pure .null
  | branch :: rest =>
      match branch.test, branch.otherwise with
      | some test, _ => do
          if (← test).isTruthy then
            Evaluation.annotateDetail "branch" (.int (Int64.ofNat index))
            partValue branch.result
          else choose (index + 1) rest
      | none, some otherwise => do
          Evaluation.annotateDetail "branch" (.int (Int64.ofNat index))
          otherwise
      | none, none => choose (index + 1) rest

/-- The scope of an item is its fields, or the item itself under a fixed name. -/
def itemScope : Value → Record
  | .record fields => fields
  | single => [("value", single)]

/-- The body is evaluated in the scope of each item. Lists among the results are spread. -/
def iterate (body : Evaluation Value) : List Value → Evaluation (List Value)
  | [] => pure []
  | item :: rest => do
      let result ← Evaluation.within (itemScope item) body
      let results ← iterate body rest
      return result.spread ++ results

/-- A subject that is false has no items. -/
def iterateOver (body : Evaluation Value) (subject : Value) : Evaluation (List Value) :=
  if subject.isTruthy then iterate body subject.spread else pure []

/-- The operator that combines the results of an iteration. -/
def combination (combine : Option String) : Evaluation Aggregate :=
  match combine with
  | none => malformed .forEach "missing combine"
  | some name =>
      match Operator.parse name with
      | .error error => throw (.rule error)
      | .ok (.aggregate kind) => pure kind
      | .ok _ => malformed .forEach "combine must be an aggregate"

/-- An iteration evaluates its body for each item of the subject and combines the results. -/
def repeatFor (parts : Parts) : Evaluation Value := do
  let kind ← combination parts.combine
  match parts.value.bind Operand.body? with
  | none => malformed .forEach "missing value"
  | some body =>
      let subject ← partValue parts.subject
      let results ← iterateOver body subject
      Evaluation.ofResult (kind.apply results)

/-- The difference of two dates in a unit. Unknown units give zero. -/
def difference (unit : String) (later earlier : Date) : Int :=
  if unit = "days" then later.daysSince earlier
  else if unit = "months" then later.monthsSince earlier
  else if unit = "years" then later.yearsSince earlier
  else 0

/-- Two dates have a difference. Any other number of operands gives zero. A first operand that is
no date stands for the date of calculation. -/
def subtractDates (parts : Parts) : Evaluation Value := do
  let today ← Evaluation.today
  match ← parts.operands with
  | [laterValue, earlierValue] =>
      let later :=
        match Date.ofValue laterValue with
        | .ok date => date
        | .error _ => today
      match Date.ofValue earlierValue with
      | .error error => throw (.value error)
      | .ok earlier =>
          let unit := parts.unit.getD "days"
          Evaluation.annotateDetail "unit" (.string unit)
          return .int (Int64.ofInt (difference unit later earlier))
  | _ => return .int 0

/-- The meaning of an operator on the parts of an operation. -/
def apply (operator : Operator) (parts : Parts) : Evaluation Value :=
  match operator with
  | aggregate .and => shortCircuit false parts
  | aggregate .or => shortCircuit true parts
  | aggregate kind => do Evaluation.ofResult (kind.apply (← parts.operands))
  | comparison kind => do
      let (left, right) ← comparisonOperands kind parts
      return .bool (kind.holds left right)
  | not => do return .bool !(← parts.single).isTruthy
  | notNull => do return .bool !(← parts.single).isNull
  | isNull => do return .bool (← parts.single).isNull
  | isIn => membership true parts
  | notIn => membership false parts
  | forEach => repeatFor parts
  | choice =>
      match parts.branches with
      | some branches => choose 0 branches
      | none => malformed .choice "missing conditions"
  | dateDifference => subtractDates parts

/-- The node of an operation. -/
def node (operator : Operator) : TraceNode :=
  (TraceNode.fresh .operation ("Operation: " ++ operator.name)).withDetail "operation"
    (.string operator.name)

/-- An operation has a node of its own in the trace. An unknown operator fails before. -/
def perform (name : String) (parts : Parts) : Evaluation Value :=
  match Operator.parse name with
  | .error error => throw (.rule error)
  | .ok operator => Evaluation.inNode operator.node id (operator.apply parts)

end Operator

end Statute
