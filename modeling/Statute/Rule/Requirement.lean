/-
This file defines the preconditions of rules.
-/

import Statute.Rule.Expr.Document

namespace Statute

/-- A requirement is a group of which all members or one member must hold, or a test that holds when
its value counts as true. -/
inductive Requirement
  | all (members : List Requirement)
  | any (members : List Requirement)
  | test (expr : Expr)

namespace Requirement

/-- The name of a requirement in traces. -/
def label : Requirement → String
  | all _ => "Check ALL conditions"
  | any _ => "Check OR conditions"
  | test _ => "Test condition"

mutual

/-- The paths that a requirement mentions. -/
def references : Requirement → List String
  | all members => memberReferences members
  | any members => memberReferences members
  | test expr => expr.references

def memberReferences : List Requirement → List String
  | [] => []
  | member :: rest => member.references ++ memberReferences rest

end

mutual

/-- An object with a list of all members, or else of alternatives, is a group. Every other document
is a test. -/
def ofDocument : Document → Requirement
  | .object members =>
      match ofMember? "all" members, ofMember? "or" members with
      | some requirements, _ => all requirements
      | none, some requirements => any requirements
      | none, none => test (Expr.ofDocument (.object members))
  | other => test (Expr.ofDocument other)

/-- The requirements that the named member lists. -/
def ofMember? (name : String) : List (String × Document) → Option (List Requirement)
  | [] => none
  | (other, member) :: rest => if name = other then ofArray? member else ofMember? name rest

def ofArray? : Document → Option (List Requirement)
  | .array items => some (ofItems items)
  | _ => none

def ofItems : List Document → List Requirement
  | [] => []
  | item :: rest => ofDocument item :: ofItems rest

end

mutual

/-- The document that writes a requirement. -/
def toDocument : Requirement → Document
  | all members => .object [("all", .array (toItems members))]
  | any members => .object [("or", .array (toItems members))]
  | test expr => expr.toDocument

def toItems : List Requirement → List Document
  | [] => []
  | member :: rest => member.toDocument :: toItems rest

end

end Requirement

end Statute
