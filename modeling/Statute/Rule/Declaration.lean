/-
This file defines how rules declare that they react to recorded events.
-/

import Statute.Document.Fields
import Statute.Rule.Error
import Statute.Value.Document
import Statute.Value.Order

namespace Statute

/-- A pattern selects events by their type and by values that their data must hold. -/
structure EventPattern where
  eventType : String
  filter : Record

namespace EventPattern

/-- Types are compared without regard to the case of letters. Every value of the filter must be
present and loosely equal. -/
def isMatch (pattern : EventPattern) (eventType : String) (data : Record) : Bool :=
  pattern.eventType.map Char.toLower == eventType.map Char.toLower &&
    pattern.filter.all fun (name, expected) =>
      match Entries.get? name data with
      | some actual => actual.looseEq expected
      | none => false

def ofDocument? (document : Document) : Option EventPattern := do
  let field ← Document.fields? ["type", "filter"] document
  let eventType ← Document.required? Document.text? (field "type")
  let filter ← Document.defaulted?
    (Document.entries? fun member => some (Value.ofDocument member)) [] (field "filter")
  return ⟨eventType, filter⟩

def toDocument (pattern : EventPattern) : Document :=
  Document.ofMembers [("type", .string pattern.eventType),
    ("filter", (Value.record pattern.filter).toDocument)]

end EventPattern

/-- The ways in which a rule writes its outputs back to a case. -/
inductive UpdateMethod
  | objectionStatus
  | objectionAdmissibility
  | appealStatus
  deriving DecidableEq, Repr

namespace UpdateMethod

def name : UpdateMethod → String
  | objectionStatus => "determine_objection_status"
  | objectionAdmissibility => "determine_objection_admissibility"
  | appealStatus => "determine_appeal_status"

/-- The method of a name, or the reason for which there is none. -/
def parse (name : String) : Except RuleError UpdateMethod :=
  match [objectionStatus, objectionAdmissibility, appealStatus].find? fun method =>
      method.name == name with
  | some method => .ok method
  | none => .error (.unknownUpdateMethod name)

end UpdateMethod

/-- An update writes outputs of the rule into fields of the case. -/
structure Update where
  method : String
  mapping : Entries String

namespace Update

def ofDocument? (document : Document) : Option Update := do
  let field ← Document.fields? ["method", "mapping"] document
  let method ← Document.required? Document.text? (field "method")
  let mapping ← Document.defaulted? (Document.entries? Document.text?) [] (field "mapping")
  return ⟨method, mapping⟩

def toDocument (update : Update) : Document :=
  Document.ofMembers [("method", .string update.method),
    ("mapping", .object (Entries.mapValues .string update.mapping))]

end Update

/-- A rule that declares itself for an aggregate is evaluated with it when one of the patterns
matches an event. The declaration's name is the parameter that receives the aggregate. -/
structure Declaration where
  name : String
  aggregate : String
  events : List EventPattern
  updates : List Update

namespace Declaration

/-- Declarations without an aggregate match nothing. -/
def isMatch (declaration : Declaration) (eventType : String) (data : Record) : Bool :=
  declaration.aggregate != "" &&
    declaration.events.any fun pattern => pattern.isMatch eventType data

def ofDocument? (document : Document) : Option Declaration := do
  let field ← Document.fields? ["name", "aggregate", "events", "update"] document
  let name ← Document.required? Document.text? (field "name")
  let aggregate ← Document.defaulted? Document.text? "" (field "aggregate")
  let events ← Document.defaulted? (Document.list? EventPattern.ofDocument?) [] (field "events")
  let updates ← Document.defaulted? (Document.list? Update.ofDocument?) [] (field "update")
  return ⟨name, aggregate, events, updates⟩

def toDocument (declaration : Declaration) : Document :=
  Document.ofMembers [("name", .string declaration.name),
    ("aggregate", .string declaration.aggregate),
    ("events", .array (declaration.events.map EventPattern.toDocument)),
    ("update", .array (declaration.updates.map Update.toDocument))]

end Declaration

end Statute
