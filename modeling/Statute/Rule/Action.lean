/-
This file defines the actions that produce the outputs of rules.
-/

import Statute.Rule.Expr.Document

namespace Statute

/-- An action names its output and gives a value for it, or is itself an operation. -/
structure Action where
  output : String
  value : Option Expr
  operation : Option Operation

namespace Action

/-- The operation of an action takes the action's value when it has none of its own. -/
def completed (node : Operation) (value : Option Expr) : Operation :=
  match node.value with
  | some _ => node
  | none => { node with value }

/-- The expression that produces the output. An operation goes before a value. -/
def expr (action : Action) : Except RuleError Expr :=
  match action.operation, action.value with
  | some node, value => .ok (.operation (completed node value))
  | none, some value => .ok value
  | none, none => .error (.emptyAction action.output)

/-- The paths that an action mentions. -/
def references (action : Action) : List String :=
  Expr.optionReferences action.value ++
    match action.operation with
    | some node => node.references
    | none => []

/-- The members of an object that may belong to the operation of an action. -/
def operationMembers (members : List (String × Document)) : List (String × Document) :=
  members.filter fun (name, _) => name != "output" && name != "value"

/-- An action must be an object with an output. Other members that do not make an operation are
passed over. -/
def ofDocument? : Document → Option Action
  | .object members => do
      let output ← Document.required? Document.text? (Entries.get? "output" members)
      return ⟨output, Expr.ofMember? "value" members, Operation.ofMembers? (operationMembers members)⟩
  | _ => none

/-- The document that writes an action. -/
def toDocument (action : Action) : Document :=
  Document.ofMembers (("output", .string action.output) ::
    Document.optionalMember "value" Expr.toDocument action.value ++
    match action.operation with
    | some node => node.toMembers
    | none => [])

end Action

end Statute
