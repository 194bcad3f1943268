/-
This file reads expressions from documents and writes them. Every document is an expression, for an
object that is no operation is a literal record.
-/

import Statute.Document.Fields
import Statute.Rule.Expr.Basic
import Statute.Value.Document

namespace Statute

/-- A member that must be a text if it is there. -/
def textMember? (name : String) (members : List (String × Document)) : Option (Option String) :=
  Document.optional? Document.text? (Entries.get? name members)

/-- The parts of an operation make one when its name is there and no part is malformed. -/
def Operation.assemble? (members : List (String × Document)) (subject value values : Option Expr)
    (conditions : Option (Option (List Condition))) : Option Operation := do
  let name ← Document.required? Document.text? (Entries.get? "operation" members)
  let branches ← conditions
  let combine ← textMember? "combine" members
  let unit ← textMember? "unit" members
  return ⟨name, subject, value, values, branches, combine, unit⟩

/-- The parts of a condition in the order in which an array holds them. -/
def Condition.ofParts? (parts : List (Option Expr)) : Option Condition :=
  if parts.length ≤ 3 then some ⟨parts[0]?.join, parts[1]?.join, parts[2]?.join⟩ else none

mutual

/-- The expression that a document writes. -/
def Expr.ofDocument : Document → Expr
  | .array items => .list (Expr.ofItems items)
  | .object members =>
      match Operation.assemble? members (Expr.ofMember? "subject" members)
          (Expr.ofMember? "value" members) (Expr.ofMember? "values" members)
          (Condition.ofMember? "conditions" members) with
      | some node => .operation node
      | none => .literal (Value.ofDocument (.object members))
  | other => .literal (Value.ofDocument other)

def Expr.ofItems : List Document → List Expr
  | [] => []
  | item :: rest => Expr.ofDocument item :: Expr.ofItems rest

/-- A null stands for no expression. -/
def Expr.ofNullables : List Document → List (Option Expr)
  | [] => []
  | item :: rest =>
      (if item.isNull then none else some (Expr.ofDocument item)) :: Expr.ofNullables rest

/-- The expression of the named member, unless it is absent or null. -/
def Expr.ofMember? (name : String) : List (String × Document) → Option Expr
  | [] => none
  | (other, member) :: rest =>
      if name = other then (if member.isNull then none else some (Expr.ofDocument member))
      else Expr.ofMember? name rest

/-- The conditions of the named member, unless it is malformed. -/
def Condition.ofMember? (name : String) : List (String × Document) → Option (Option (List Condition))
  | [] => some none
  | (other, member) :: rest =>
      if name = other then Condition.ofNullable? member else Condition.ofMember? name rest

/-- A null stands for no conditions. -/
def Condition.ofNullable? : Document → Option (Option (List Condition))
  | .null => some none
  | .array items => (Condition.ofItems? items).map some
  | _ => none

def Condition.ofItems? : List Document → Option (List Condition)
  | [] => some []
  | item :: rest =>
      match Condition.ofDocument? item, Condition.ofItems? rest with
      | some condition, some conditions => some (condition :: conditions)
      | _, _ => none

/-- The condition that a document writes. -/
def Condition.ofDocument? : Document → Option Condition
  | .object members =>
      some ⟨Expr.ofMember? "test" members, Expr.ofMember? "then" members,
        Expr.ofMember? "else" members⟩
  | .array items => Condition.ofParts? (Expr.ofNullables items)
  | _ => none

end

/-- The operation that the members of an object write. -/
def Operation.ofMembers? (members : List (String × Document)) : Option Operation :=
  Operation.assemble? members (Expr.ofMember? "subject" members) (Expr.ofMember? "value" members)
    (Expr.ofMember? "values" members) (Condition.ofMember? "conditions" members)

/-- The members of a written operation. -/
def Operation.membersOf (name : String) (subject value values conditions : Option Document)
    (combine unit : Option String) : List (String × Document) :=
  Entries.ofList (("operation", .string name) :: Document.optionalMember "subject" id subject ++
    Document.optionalMember "value" id value ++ Document.optionalMember "values" id values ++
    Document.optionalMember "conditions" id conditions ++
    Document.optionalMember "combine" .string combine ++ Document.optionalMember "unit" .string unit)

mutual

/-- The document that writes an expression. -/
def Expr.toDocument : Expr → Document
  | .operation node => .object node.toMembers
  | .list items => .array (Expr.toItems items)
  | .literal value => value.toDocument

/-- The members of the object that writes an operation. -/
def Operation.toMembers : Operation → List (String × Document)
  | ⟨name, subject, value, values, conditions, combine, unit⟩ =>
      Operation.membersOf name (Expr.toOptional subject) (Expr.toOptional value)
        (Expr.toOptional values) (Condition.toOptional conditions) combine unit

def Condition.toDocument : Condition → Document
  | ⟨test, result, otherwise⟩ =>
      Document.ofMembers (Document.optionalMember "test" id (Expr.toOptional test) ++
        Document.optionalMember "then" id (Expr.toOptional result) ++
        Document.optionalMember "else" id (Expr.toOptional otherwise))

def Expr.toItems : List Expr → List Document
  | [] => []
  | item :: rest => item.toDocument :: Expr.toItems rest

def Expr.toOptional : Option Expr → Option Document
  | none => none
  | some expr => some expr.toDocument

def Condition.toOptional : Option (List Condition) → Option Document
  | none => none
  | some conditions => some (.array (Condition.toItems conditions))

def Condition.toItems : List Condition → List Document
  | [] => []
  | condition :: rest => condition.toDocument :: Condition.toItems rest

end

end Statute
