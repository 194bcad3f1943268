/-
This file evaluates one version of a rule for a request.
-/

import Statute.Evaluation.Requirement
import Statute.Evaluation.Resolution
import Statute.Rule.ActionOrder

namespace Statute

/-- The parameter that identifies a person. -/
def personParameter : String := "BSN"

namespace Evaluation

/-- A caller may give the value of an output of the service that is being evaluated. -/
def outputOverride? (surroundings : Surroundings) (output : String) : Option Value := do
  let fields ← Entries.get? surroundings.service surroundings.overwrite
  Entries.get? output fields

/-- An output is visible to whatever is evaluated after it. -/
def setOutput (name : String) (value : Value) : Evaluation Unit :=
  modify fun progress => { progress with outputs := Entries.insert name value progress.outputs }

end Evaluation

namespace Rule

/-- The value of an action before it is fitted to the type of its output. -/
def rawValue (action : Action) : Evaluation Value := do
  match ← Evaluation.given (Evaluation.outputOverride? · action.output) with
  | some value => return value
  | none =>
      match action.expr with
      | .ok expr => expr.evaluate Evaluation.valueOf
      | .error cause => throw (.rule cause)

/-- An action sets its output. -/
def runAction (rule : Rule) (action : Action) : Evaluation Value := do
  Evaluation.checkCancelled
  Evaluation.inNode (TraceNode.fresh .action ("Evaluate action for " ++ action.output)) id do
    let raw ← rawValue action
    let value := (rule.outputType action.output).enforce raw
    Evaluation.setOutput action.output value
    return value

/-- Actions run in order until a required value is missing. -/
def runActions (rule : Rule) : List Action → Evaluation Unit
  | [] => pure ()
  | action :: rest => do
      if ← Evaluation.isMissing then pure ()
      else
        let _ ← rule.runAction action
        rule.runActions rest

/-- All requirements must hold, and no required value may be missing. -/
def checkRequirements (rule : Rule) : Evaluation Bool :=
  Evaluation.inNode (TraceNode.fresh .requirements "Check all requirements") .bool do
    let held ← Requirement.checkEach Evaluation.valueOf rule.requirements
    return held && !(← Evaluation.isMissing)

/-- The node of the whole evaluation. -/
def rootNode (rule : Rule) (date : Date) : TraceNode :=
  { TraceNode.fresh .root ("Evaluation of " ++ rule.name) with
    details := Entries.ofList [("service", .string rule.service), ("law", .string rule.law),
      ("reference_date", .string date.text)] }

/-- A missing required value takes all outputs away. -/
def outcome (rule : Rule) (requirementsMet : Bool) (output : Record) (progress : Progress) :
    Outcome :=
  { output
    requirementsMet := requirementsMet && !progress.missingRequired
    missingRequired := progress.missingRequired
    input := progress.resolved
    ruleId := rule.uuid
    trace := progress.trace }

/-- The actions for a requested output run, if the requirements are met. -/
def runRequired (rule : Rule) (requested : Option String) (met : Bool) : Evaluation Unit := do
  if met then
    match ActionOrder.required rule.actions requested with
    | .ok actions => rule.runActions actions
    | .error cause => throw (.rule cause)

/-- The outputs, unless a required value is missing. -/
def finalOutput : Evaluation Record := do
  let finished ← get
  return if finished.missingRequired then [] else finished.outputs

/-- The requirements, and the actions if these are met. The result is the verdict with the outputs. -/
def runParts (rule : Rule) (requested : Option String) : Evaluation (Bool × Record) := do
  let met ← rule.checkRequirements
  rule.runRequired requested met
  return (met, ← finalOutput)

/-- The whole evaluation, in the outermost node. -/
def run (rule : Rule) (requested : Option String) : Evaluation Outcome := do
  let (met, output) ← Evaluation.inNode (rule.rootNode (← Evaluation.today))
    (fun parts => .record parts.2) (rule.runParts requested)
  return rule.outcome met output (← get)

/-- What was claimed about the person that the request names. -/
def claimsFor (rule : Rule) (claims : Option ClaimLookup) (request : Request) : Record :=
  match claims, (Entries.get? personParameter request.parameters).bind Value.string? with
  | some claimed, some person => claimed person rule.service rule.law request.approved
  | _, _ => []

/-- The surroundings of an evaluation of a rule. -/
def surroundings (rule : Rule) (provider : Provider) (claims : Option ClaimLookup)
    (sources : Entries Source) (request : Request) (date : Date) : Surroundings :=
  { provider
    service := rule.service
    date
    definitions := rule.properties.definitions
    parameters := request.parameters
    claims := rule.claimsFor claims request
    properties := propertyTable rule.declaredProperties
    sources
    overwrite := request.overwrite
    approved := request.approved
    cancellation := request.cancellation }

/-- The answer of a rule to a request as of a date. -/
def evaluate (rule : Rule) (provider : Provider) (claims : Option ClaimLookup)
    (sources : Entries Source) (request : Request) (date : Date) (shared : Shared) :
    Except EvaluationError Outcome × Shared :=
  let (result, progress) := (rule.run request.requested).runFrom
    (rule.surroundings provider claims sources request date) (Progress.start shared)
  (result, progress.shared)

end Rule

end Statute
