/-
This file obtains the value that a property takes from another law.
-/

import Statute.Evaluation.Expr
import Statute.Rule.Property

namespace Statute

namespace Argument

/-- The parameters of a call, added to those of the caller. A later argument of a name wins. -/
def overlay (lookUp : LookUp) : List Argument → Record → Evaluation Record
  | [], parameters => pure parameters
  | argument :: rest, parameters => do
      let value ← argument.reference.resolve lookUp
      overlay lookUp rest (Entries.insert argument.name value parameters)

end Argument

namespace Temporal

/-- The date that a property belongs to. Without a reference, or with one that is null, it is the
date of the evaluation. -/
def dateOf (lookUp : LookUp) (temporal : Option Temporal) : Evaluation Date := do
  let today ← Evaluation.today
  match temporal.bind Temporal.reference with
  | none => return today
  | some reference =>
      match ← (Value.string reference).resolve lookUp with
      | .null => return today
      | value => Evaluation.ofResult ((Date.ofValue value).mapError .value)

end Temporal

namespace Call

/-- The name under which the value of a call is kept. -/
def memoKey (path : String) (parameters : Record) (date : String) : String :=
  path ++ "(" ++ String.intercalate "," (parameters.map fun pair => pair.1 ++ ":" ++ pair.2.text) ++
    "," ++ date ++ ")"

/-- The node of a call. -/
def node (path : String) (property : Property) (reference : ServiceReference) (parameters : Record)
    (date : Date) : TraceNode :=
  { TraceNode.fresh .serviceEvaluation
      ("Service call: " ++ reference.service ++ "." ++ reference.law) with
    path := some path
    required := property.required
    details := Entries.ofList [("service", .string reference.service),
      ("law", .string reference.law), ("field", .string reference.field),
      ("reference_date", .string date.text), ("parameters", .record parameters)] }

/-- A call hands the caller's overrides, its flags and its own parameters on. -/
def request (surroundings : Surroundings) (reference : ServiceReference) (parameters : Record)
    (date : Date) : Request :=
  ⟨reference.service, reference.law, parameters, some date, surroundings.overwrite,
    some reference.field, surroundings.approved, surroundings.cancellation⟩

/-- The provider's answer. Its error names the law that was called. -/
def ask (reference : ServiceReference) (request : Request) : Evaluation Outcome := do
  let surroundings ← read
  let progress ← get
  let (answer, shared) := surroundings.provider request progress.shared
  set { progress with shared }
  match answer with
  | .ok outcome => return outcome
  | .error cause => throw (.serviceCall reference.service reference.law cause)

/-- The value of an answer is remembered, and its trace goes below the node of the call. -/
def accept (key : String) (value : Value) (outcome : Outcome) : Evaluation Unit := do
  modify fun progress =>
    { progress with
      memo := progress.memo.map (Entries.insert key value)
      missingRequired := progress.missingRequired || outcome.missingRequired }
  match outcome.trace with
  | some trace => Evaluation.annotate fun node => node.withChild trace
  | none => pure ()

/-- A call that was not answered before. -/
def perform (path : String) (property : Property) (reference : ServiceReference)
    (parameters : Record) (date : Date) : Evaluation Value := do
  let surroundings ← read
  Evaluation.inNode (node path property reference parameters date) id do
    let outcome ← ask reference (request surroundings reference parameters date)
    let value := Value.ofOption (Entries.get? reference.field outcome.output)
    accept (memoKey path parameters date.text) value outcome
    return value

/-- A value that is remembered under the name of a call stands for the call. -/
def obtain (path : String) (property : Property) (reference : ServiceReference)
    (parameters : Record) (date : Date) : Evaluation Value := do
  let progress ← get
  match progress.memo.bind (Entries.get? (memoKey path parameters date.text)) with
  | some value =>
      Evaluation.annotateDetail "cached" (.bool true)
      return value
  | none => perform path property reference parameters date

/-- The value of a property in another law, which the parameters and the date of the call choose. -/
def resolve (lookUp : LookUp) (path : String) (property : Property) (reference : ServiceReference) :
    Evaluation Value := do
  Evaluation.checkCancelled
  let own ← Evaluation.given Surroundings.parameters
  let parameters ← Argument.overlay lookUp reference.parameters own
  let date ← Temporal.dateOf lookUp property.temporal
  obtain path property reference parameters date

end Call

end Statute
