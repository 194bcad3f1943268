/-
This file finds the values of the paths that expressions refer to.
-/

import Statute.Evaluation.Call
import Statute.Evaluation.Selection

namespace Statute

/-- A year as the data of rules. The sign belongs to its four places. -/
def paddedYear (year : Int) : String :=
  if year < 0 then "-" ++ paddedNumber 3 year.natAbs else paddedNumber 4 year.natAbs

namespace Resolution

/-- The paths that the date of the evaluation defines. -/
def dateValue? (date : Date) (path : String) : Option Value :=
  match path with
  | "calculation_date" => some date.toValue
  | "january_first" => some date.januaryFirst.toValue
  | "prev_january_first" => some date.previousJanuaryFirst.toValue
  | "year" => some (.string (paddedYear date.year))
  | _ => none

/-- The scope of an iteration goes before definitions, parameters and outputs. -/
def bound? (surroundings : Surroundings) (progress : Progress) (name : String) :
    Option (Origin × Value) :=
  [(Origin.scope, progress.scope), (.definition, surroundings.definitions),
    (.parameter, surroundings.parameters), (.output, progress.outputs)].findSome?
      fun (origin, record) => (Entries.get? name record).map fun value => (origin, value)

/-- What a lookup finds: the value, and where it is from. The value behind a path with dots shows no
origin of its own. -/
structure Found where
  origin : Option Origin
  value : Value

/-- The innermost open node takes the declaration of its property over. -/
def annotateProperty (property : Property) : Evaluation Unit :=
  Evaluation.annotate fun node =>
    let declared := { node with required := property.required }
    match property.valueType with
    | some valueType => declared.withDetail "type" (.string valueType)
    | none => declared

/-- The override that a caller gives for the value of another law. -/
def override? (overwrite : Entries Record) (property : Property) : Option Value := do
  let reference ← property.serviceReference
  let fields ← Entries.get? reference.service overwrite
  Entries.get? reference.field fields

/-- The value of a property in its table. A property without a table has null there. -/
def tableValue (lookUp : LookUp) (property : Property) : Evaluation Value :=
  match property.sourceReference with
  | some reference => reference.resolve lookUp
  | none => pure .null

/-- The origin of a property is an override, else its table, else another law. -/
def propertyValue (lookUp : LookUp) (path : String) (property : Property) :
    Evaluation (Origin × Value) := do
  match ← Evaluation.given fun surroundings => override? surroundings.overwrite property with
  | some value => return (.overwrite, value)
  | none => do
      let stored ← tableValue lookUp property
      if stored.isNull then
        match property.serviceReference with
        | some reference => return (.service, ← Call.resolve lookUp path property reference)
        | none => return (.nothing, .null)
      else return (.source, stored)

/-- A required value that is null is missing. -/
def noteMissing (property : Property) (value : Value) : Evaluation Unit :=
  modify fun progress =>
    { progress with
      missingRequired := progress.missingRequired || value.isNull && property.required }

/-- A required property that is null is noted. -/
def resolveProperty (lookUp : LookUp) (path : String) (property : Property) : Evaluation Found := do
  annotateProperty property
  let (origin, value) ← propertyValue lookUp path property
  noteMissing property value
  return ⟨some origin, value⟩

/-- A claimed value, which may be the value of a property. -/
def resolveClaim (property : Option Property) (value : Value) : Evaluation Found :=
  match property with
  | some declared => do
      annotateProperty declared
      return ⟨some .claim, value⟩
  | none => return ⟨some .claim, value⟩

/-- A name is a claim, else it is bound, else it is a property. Any other name is null. -/
def resolveName (lookUp : LookUp) (name : String) : Evaluation Found := do
  let surroundings ← read
  let progress ← get
  let property := Entries.get? name surroundings.properties
  match Entries.get? name surroundings.claims with
  | some value => resolveClaim property value
  | none =>
      match bound? surroundings progress name, property with
      | some (origin, value), _ => return ⟨some origin, value⟩
      | none, some declared => resolveProperty lookUp name declared
      | none, none => return ⟨some .nothing, .null⟩

/-- A path with dots leads from the value of its first name through fields. -/
def resolveFields (lookUp : LookUp) (path : String) (names : List String) : Evaluation Found := do
  let base ← lookUp (pathRoot path)
  return ⟨none, Value.ofOption (base.getPath? names)⟩

/-- A path was looked up. -/
def noteAccess (path : String) : Evaluation Unit :=
  modify fun progress => { progress with accessed := Entries.insertName path progress.accessed }

/-- The innermost open node shows the origin of its value. -/
def showOrigin : Option Origin → Evaluation Unit
  | some origin => Evaluation.annotateOrigin origin
  | none => pure ()

/-- A value other than null is kept under its path. -/
def keep (path : String) (value : Value) : Evaluation Unit :=
  modify fun progress =>
    { progress with resolved :=
        if value.isNull then progress.resolved
        else Entries.insert path value progress.resolved }

/-- A path that has been looked up has a node. -/
def recorded (path : String) (body : Evaluation Found) : Evaluation Value := do
  noteAccess path
  Evaluation.inNode (TraceNode.resolving path) id do
    let found ← body
    showOrigin found.origin
    keep path found.value
    return found.value

/-- The value of a path, which the date of the evaluation may define. The fuel bounds the nesting of
paths whose declarations refer to others. -/
def lookUp : Nat → LookUp
  | 0, _ => throw .tooDeep
  | fuel + 1, path => do
      match ← Evaluation.given fun surroundings => dateValue? surroundings.date path with
      | some value => recorded path (pure ⟨some .date, value⟩)
      | none =>
          match pathTail path with
          | [] => recorded path (resolveName (lookUp fuel) path)
          | names => recorded path (resolveFields (lookUp fuel) path names)

/-- Paths may nest as deeply as all declarations, one behind the other, could make them, and further
for declarations that refer back to themselves for a while. -/
def nestingLimit (properties : Entries Property) : Nat :=
  2 * properties.length + 1000

end Resolution

namespace Evaluation

/-- The value of a path in the surroundings of the evaluation. -/
def valueOf (path : String) : Evaluation Value := do
  let limit ← given fun surroundings => Resolution.nestingLimit surroundings.properties
  Resolution.lookUp limit path

end Evaluation

end Statute
