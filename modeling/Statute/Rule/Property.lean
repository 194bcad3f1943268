/-
This file defines the properties that rules declare: what they need and what they produce.
-/

import Statute.Rule.Constraint
import Statute.Rule.Expr.Document

namespace Statute

namespace Constraints

def ofDocument? (document : Document) : Option Constraints := do
  let field ← Document.fields? ["unit", "precision", "min", "max"] document
  let unit ← Document.optional? Document.text? (field "unit")
  let precision ← Document.optional? Document.natural? (field "precision")
  let least ← Document.optional? Document.float? (field "min")
  let most ← Document.optional? Document.float? (field "max")
  return ⟨unit, precision, least, most⟩

/-- Absent bounds are written as null. -/
def toDocument (constraints : Constraints) : Document :=
  Document.ofMembers [("unit", Document.nullable .string constraints.unit),
    ("precision", Document.nullable (fun precision => .integer precision) constraints.precision),
    ("min", Document.nullable .decimal constraints.min),
    ("max", Document.nullable .decimal constraints.max)]

end Constraints

/-- A parameter that callers pass. -/
structure Parameter where
  name : String
  valueType : Option String
  description : Option String
  required : Bool

namespace Parameter

def ofDocument? (document : Document) : Option Parameter := do
  let field ← Document.fields? ["name", "type", "description", "required"] document
  let name ← Document.required? Document.text? (field "name")
  let valueType ← Document.optional? Document.text? (field "type")
  let description ← Document.optional? Document.text? (field "description")
  let required ← Document.defaulted? Document.flag? false (field "required")
  return ⟨name, valueType, description, required⟩

def toDocument (parameter : Parameter) : Document :=
  Document.ofMembers (("name", .string parameter.name) :: ("required", .bool parameter.required) ::
    Document.optionalMember "type" .string parameter.valueType ++
    Document.optionalMember "description" .string parameter.description)

end Parameter

/-- The time that a property belongs to. -/
structure Temporal where
  kind : Option String
  periodType : Option String
  reference : Option String

namespace Temporal

def ofDocument? (document : Document) : Option Temporal := do
  let field ← Document.fields? ["type", "period_type", "reference"] document
  let kind ← Document.optional? Document.text? (field "type")
  let periodType ← Document.optional? Document.text? (field "period_type")
  let reference ← Document.optional? Document.text? (field "reference")
  return ⟨kind, periodType, reference⟩

def toDocument (temporal : Temporal) : Document :=
  Document.ofMembers (Document.optionalMember "type" .string temporal.kind ++
    Document.optionalMember "period_type" .string temporal.periodType ++
    Document.optionalMember "reference" .string temporal.reference)

end Temporal

/-- A parameter of a call to another law, with its value or the path of its value. -/
structure Argument where
  name : String
  reference : Value

namespace Argument

def ofDocument? (document : Document) : Option Argument := do
  let field ← Document.fields? ["name", "reference"] document
  let name ← Document.required? Document.text? (field "name")
  let reference ← field "reference"
  return ⟨name, Value.ofDocument reference⟩

def toDocument (argument : Argument) : Document :=
  Document.ofMembers [("name", .string argument.name), ("reference", argument.reference.toDocument)]

end Argument

/-- The output of another law. -/
structure ServiceReference where
  service : String
  field : String
  law : String
  parameters : List Argument

namespace ServiceReference

def ofDocument? (document : Document) : Option ServiceReference := do
  let member ← Document.fields? ["service", "field", "law", "parameters"] document
  let service ← Document.required? Document.text? (member "service")
  let field ← Document.required? Document.text? (member "field")
  let law ← Document.required? Document.text? (member "law")
  let parameters ← Document.defaulted? (Document.list? Argument.ofDocument?) [] (member "parameters")
  return ⟨service, field, law, parameters⟩

def toDocument (reference : ServiceReference) : Document :=
  Document.ofMembers [("service", .string reference.service), ("field", .string reference.field),
    ("law", .string reference.law),
    ("parameters", .array (reference.parameters.map Argument.toDocument))]

end ServiceReference

/-- A condition on a column of a table. -/
structure Selection where
  name : String
  description : Option String
  value : Expr

namespace Selection

def ofDocument? (document : Document) : Option Selection := do
  let field ← Document.fields? ["name", "description", "value"] document
  let name ← Document.required? Document.text? (field "name")
  let description ← Document.optional? Document.text? (field "description")
  let value ← field "value"
  return ⟨name, description, Expr.ofDocument value⟩

def toDocument (selection : Selection) : Document :=
  Document.ofMembers (("name", .string selection.name) :: ("value", selection.value.toDocument) ::
    Document.optionalMember "description" .string selection.description)

end Selection

/-- The rows or a column of a table. -/
structure SourceReference where
  sourceType : Option String
  table : String
  field : Option String
  fields : Option (List String)
  selectOn : List Selection

namespace SourceReference

def ofDocument? (document : Document) : Option SourceReference := do
  let member ← Document.fields? ["source_type", "table", "field", "fields", "select_on"] document
  let sourceType ← Document.optional? Document.text? (member "source_type")
  let table ← Document.required? Document.text? (member "table")
  let field ← Document.optional? Document.text? (member "field")
  let fields ← Document.optional? (Document.list? Document.text?) (member "fields")
  let selectOn ← Document.defaulted? (Document.list? Selection.ofDocument?) [] (member "select_on")
  return ⟨sourceType, table, field, fields, selectOn⟩

def toDocument (reference : SourceReference) : Document :=
  Document.ofMembers (("table", .string reference.table) ::
    ("select_on", .array (reference.selectOn.map Selection.toDocument)) ::
    Document.optionalMember "source_type" .string reference.sourceType ++
    Document.optionalMember "field" .string reference.field ++
    Document.optionalMember "fields" (fun names => .array (names.map .string)) reference.fields)

end SourceReference

/-- A value that a rule needs, and where it comes from. -/
structure Property where
  name : String
  description : Option String
  valueType : Option String
  constraints : Option Constraints
  temporal : Option Temporal
  serviceReference : Option ServiceReference
  sourceReference : Option SourceReference
  required : Bool

namespace Property

def ofDocument? (document : Document) : Option Property := do
  let field ← Document.fields? ["name", "description", "type", "type_spec", "temporal",
    "service_reference", "source_reference", "required"] document
  let name ← Document.required? Document.text? (field "name")
  let description ← Document.optional? Document.text? (field "description")
  let valueType ← Document.optional? Document.text? (field "type")
  let constraints ← Document.optional? Constraints.ofDocument? (field "type_spec")
  let temporal ← Document.optional? Temporal.ofDocument? (field "temporal")
  let service ← Document.optional? ServiceReference.ofDocument? (field "service_reference")
  let source ← Document.optional? SourceReference.ofDocument? (field "source_reference")
  let required ← Document.defaulted? Document.flag? false (field "required")
  return ⟨name, description, valueType, constraints, temporal, service, source, required⟩

def toDocument (property : Property) : Document :=
  Document.ofMembers (("name", .string property.name) :: ("required", .bool property.required) ::
    Document.optionalMember "description" .string property.description ++
    Document.optionalMember "type" .string property.valueType ++
    Document.optionalMember "type_spec" Constraints.toDocument property.constraints ++
    Document.optionalMember "temporal" Temporal.toDocument property.temporal ++
    Document.optionalMember "service_reference" ServiceReference.toDocument
      property.serviceReference ++
    Document.optionalMember "source_reference" SourceReference.toDocument property.sourceReference)

end Property

/-- A value that a rule produces. -/
structure Output where
  name : String
  description : Option String
  valueType : Option String
  constraints : Option Constraints
  temporal : Option Temporal

namespace Output

/-- The type that the output's values are fitted to. -/
def typeSpec (output : Output) : TypeSpec :=
  ⟨output.valueType, output.constraints.getD Constraints.none⟩

def ofDocument? (document : Document) : Option Output := do
  let field ← Document.fields? ["name", "description", "type", "type_spec", "temporal"] document
  let name ← Document.required? Document.text? (field "name")
  let description ← Document.optional? Document.text? (field "description")
  let valueType ← Document.optional? Document.text? (field "type")
  let constraints ← Document.optional? Constraints.ofDocument? (field "type_spec")
  let temporal ← Document.optional? Temporal.ofDocument? (field "temporal")
  return ⟨name, description, valueType, constraints, temporal⟩

def toDocument (output : Output) : Document :=
  Document.ofMembers (("name", .string output.name) ::
    Document.optionalMember "description" .string output.description ++
    Document.optionalMember "type" .string output.valueType ++
    Document.optionalMember "type_spec" Constraints.toDocument output.constraints ++
    Document.optionalMember "temporal" Temporal.toDocument output.temporal)

end Output

end Statute
