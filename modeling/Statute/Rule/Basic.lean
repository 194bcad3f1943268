/-
This file defines the versions of rules.
-/

import Statute.Date.Instant
import Statute.Rule.Action
import Statute.Rule.Declaration
import Statute.Rule.Property
import Statute.Rule.Requirement

namespace Statute

/-- Everything that a rule declares besides its requirements and actions. -/
structure Properties where
  parameters : List Parameter
  inputs : List Property
  sources : List Property
  outputs : List Output
  definitions : Record
  declarations : List Declaration

/-- One version of the rule of a law. -/
structure Rule where
  uuid : String
  name : String
  law : String
  service : String
  validFrom : Date
  description : Option String
  discoverable : Option String
  properties : Properties
  requirements : List Requirement
  actions : List Action

namespace Properties

/-- No declarations at all. -/
def empty : Properties := ⟨[], [], [], [], [], []⟩

instance : Inhabited Properties := ⟨empty⟩

def ofDocument? (document : Document) : Option Properties := do
  let field ← Document.fields? ["parameters", "input", "sources", "output", "definitions", "applies"]
    document
  let parameters ← Document.defaulted? (Document.list? Parameter.ofDocument?) [] (field "parameters")
  let inputs ← Document.defaulted? (Document.list? Property.ofDocument?) [] (field "input")
  let sources ← Document.defaulted? (Document.list? Property.ofDocument?) [] (field "sources")
  let outputs ← Document.defaulted? (Document.list? Output.ofDocument?) [] (field "output")
  let definitions ← Document.defaulted?
    (Document.entries? fun member => some (Value.ofDocument member)) [] (field "definitions")
  let declarations ← Document.defaulted? (Document.list? Declaration.ofDocument?) [] (field "applies")
  return ⟨parameters, inputs, sources, outputs, definitions, declarations⟩

def toDocument (properties : Properties) : Document :=
  Document.ofMembers [
    ("parameters", .array (properties.parameters.map Parameter.toDocument)),
    ("input", .array (properties.inputs.map Property.toDocument)),
    ("sources", .array (properties.sources.map Property.toDocument)),
    ("output", .array (properties.outputs.map Output.toDocument)),
    ("definitions", (Value.record properties.definitions).toDocument),
    ("applies", .array (properties.declarations.map Declaration.toDocument))]

end Properties

namespace Rule

instance : Inhabited Rule := ⟨"", "", "", "", default, none, none, .empty, [], []⟩

/-- The declaration of an output. The first of a name counts. -/
def output? (rule : Rule) (name : String) : Option Output :=
  rule.properties.outputs.find? fun output => output.name == name

/-- The type of an output. Undeclared outputs are not constrained. -/
def outputType (rule : Rule) (name : String) : TypeSpec :=
  match rule.output? name with
  | some output => output.typeSpec
  | none => ⟨none, Constraints.none⟩

/-- The properties from other laws, followed by those from tables. -/
def declaredProperties (rule : Rule) : List Property :=
  rule.properties.inputs ++ rule.properties.sources

/-- Each property under its name. The last of a name counts. -/
def propertyTable (properties : List Property) : Entries Property :=
  Entries.ofList (properties.map fun property => (property.name, property))

def readDate? : Document → Option Date
  | .string text => Date.read? text
  | _ => none

/-- The rule that a document writes. -/
def ofDocument? (document : Document) : Option Rule := do
  let field ← Document.fields? ["uuid", "name", "law", "service", "valid_from", "description",
    "discoverable", "properties", "requirements", "actions"] document
  let uuid ← Document.required? Document.text? (field "uuid")
  let name ← Document.required? Document.text? (field "name")
  let law ← Document.required? Document.text? (field "law")
  let service ← Document.required? Document.text? (field "service")
  let validFrom ← Document.required? readDate? (field "valid_from")
  let description ← Document.optional? Document.text? (field "description")
  let discoverable ← Document.optional? Document.text? (field "discoverable")
  let properties ← Document.defaulted? Properties.ofDocument? .empty (field "properties")
  let requirements ← Document.defaulted?
    (Document.list? fun item => some (Requirement.ofDocument item)) [] (field "requirements")
  let actions ← Document.defaulted? (Document.list? Action.ofDocument?) [] (field "actions")
  return ⟨uuid, name, law, service, validFrom, description, discoverable, properties, requirements,
    actions⟩

/-- The document that writes a rule. -/
def toDocument (rule : Rule) : Document :=
  Document.ofMembers (("uuid", .string rule.uuid) :: ("name", .string rule.name) ::
    ("law", .string rule.law) :: ("service", .string rule.service) ::
    ("valid_from", .string rule.validFrom.text) :: ("properties", rule.properties.toDocument) ::
    ("requirements", .array (rule.requirements.map Requirement.toDocument)) ::
    ("actions", .array (rule.actions.map Action.toDocument)) ::
    Document.optionalMember "description" .string rule.description ++
    Document.optionalMember "discoverable" .string rule.discoverable)

end Rule

end Statute
