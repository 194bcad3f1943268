/-
This file defines evaluations as computations that keep what they gathered also when they fail.
-/

import Statute.Evaluation.Request
import Statute.Table.Source

namespace Statute

/-- What an evaluation can look at and never changes. -/
structure Surroundings where
  provider : Provider
  service : String
  date : Date
  definitions : Record
  parameters : Record
  claims : Record
  properties : Entries Property
  sources : Entries Source
  overwrite : Entries Record
  approved : Bool
  cancellation : Cancellation

/-- What an evaluation has gathered. The innermost open node of the trace comes first. Without a
memo no value of another law is kept. -/
structure Progress where
  scope : Record
  outputs : Record
  memo : Option (Entries Value)
  accessed : List String
  resolved : Record
  missingRequired : Bool
  openNodes : List TraceNode
  shared : Shared

namespace Progress

/-- The start of an evaluation. -/
def start (shared : Shared) : Progress :=
  ⟨[], [], some [], [], [], false, [], shared⟩

end Progress

/-- An evaluation reads its surroundings, and fails with an error or gives a value. -/
abbrev Evaluation (α : Type) := ReaderT Surroundings (ExceptT EvaluationError (StateM Progress)) α

namespace Evaluation

variable {α : Type}

/-- The result of an evaluation and what it gathered. -/
def runFrom (evaluation : Evaluation α) (surroundings : Surroundings) (progress : Progress) :
    Except EvaluationError α × Progress :=
  evaluation.run surroundings |>.run |>.run progress

/-- A result that may be an error. -/
def ofResult : Except EvaluationError α → Evaluation α
  | .ok value => pure value
  | .error error => throw error

/-- An evaluation stops when its caller has raised the flag of cancellation. -/
def checkCancelled : Evaluation Unit := do
  let surroundings ← read
  let progress ← get
  if surroundings.cancellation.isRaised progress.shared then throw .cancelled

/-- Something that the surroundings give. -/
def given (view : Surroundings → α) : Evaluation α := do
  return view (← read)

/-- The date of the evaluation. -/
def today : Evaluation Date :=
  given Surroundings.date

/-- A table raises the shared flag of cancellation. -/
def raiseFlag : Evaluation Unit :=
  modify fun progress => { progress with shared := { progress.shared with interrupted := true } }

/-- A node becomes the innermost open one. -/
def enter (node : TraceNode) : Evaluation Unit :=
  modify fun progress => { progress with openNodes := node :: progress.openNodes }

/-- The innermost open node takes its result and goes below the node around it. The outermost node
stays open. -/
def closeNode (result : Value) : List TraceNode → List TraceNode
  | [] => []
  | [node] => [{ node with result }]
  | node :: parent :: rest => parent.withChild { node with result } :: rest

/-- The innermost open node ends with a result. -/
def exit (result : Value) : Evaluation Unit :=
  modify fun progress => { progress with openNodes := closeNode result progress.openNodes }

/-- An evaluation inside a node of its own, which then shows the result. After an error the node
stays open. -/
def inNode (node : TraceNode) (shown : α → Value) (body : Evaluation α) : Evaluation α := do
  enter node
  let result ← body
  exit (shown result)
  return result

/-- The innermost open node changes. -/
def annotate (change : TraceNode → TraceNode) : Evaluation Unit :=
  modify fun progress =>
    { progress with openNodes :=
        match progress.openNodes with
        | [] => []
        | node :: rest => change node :: rest }

/-- The innermost open node names the origin of its value. -/
def annotateOrigin (origin : Origin) : Evaluation Unit :=
  annotate fun node => { node with origin := some origin }

/-- The innermost open node takes a detail. -/
def annotateDetail (name : String) (value : Value) : Evaluation Unit :=
  annotate (TraceNode.withDetail name value)

/-- An evaluation inside a scope. The scope before it returns, also after an error. -/
def within (scope : Record) (body : Evaluation α) : Evaluation α :=
  fun surroundings progress =>
    let (result, after) := body.runFrom surroundings { progress with scope }
    (result, { after with scope := progress.scope })

end Evaluation

namespace Progress

/-- All open nodes are closed with the results that they have. -/
def closeAll : List TraceNode → Option TraceNode
  | [] => none
  | [node] => some node
  | node :: parent :: rest => closeAll (parent.withChild node :: rest)
termination_by nodes => nodes.length

/-- The whole trace. -/
def trace (progress : Progress) : Option TraceNode :=
  closeAll progress.openNodes

end Progress

end Statute
