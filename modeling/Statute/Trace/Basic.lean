/-
This file defines the trees that explain evaluations.
-/

import Statute.Document.Fields
import Statute.Value.Document

namespace Statute

/-- What a node of a trace records. -/
inductive NodeKind
  | root
  | requirements
  | requirement
  | action
  | operation
  | resolve
  | serviceEvaluation
  deriving DecidableEq, Repr

/-- Where a resolved value came from. A path that nothing resolves has no origin. -/
inductive Origin
  | date
  | claim
  | scope
  | definition
  | parameter
  | output
  | overwrite
  | source
  | service
  | nothing
  deriving DecidableEq, Repr

/-- A node has the value that it produced and the nodes below it, in the order of evaluation. -/
structure TraceNode where
  kind : NodeKind
  name : String
  path : Option String
  result : Value
  origin : Option Origin
  required : Bool
  details : Record
  children : List TraceNode

namespace NodeKind

def name : NodeKind → String
  | root => "root"
  | requirements => "requirements"
  | requirement => "requirement"
  | action => "action"
  | operation => "operation"
  | resolve => "resolve"
  | serviceEvaluation => "service_evaluation"

def ofName? (name : String) : Option NodeKind :=
  [root, requirements, requirement, action, operation, resolve, serviceEvaluation].find?
    fun kind => kind.name == name

end NodeKind

namespace Origin

def name : Origin → String
  | date => "DATE"
  | claim => "CLAIM"
  | scope => "LOCAL"
  | definition => "DEFINITION"
  | parameter => "PARAMETER"
  | output => "OUTPUT"
  | overwrite => "OVERWRITE"
  | source => "SOURCE"
  | service => "SERVICE"
  | nothing => "NONE"

def ofName? (name : String) : Option Origin :=
  [date, claim, scope, definition, parameter, output, overwrite, source, service, nothing].find?
    fun origin => origin.name == name

/-- Values from claims, tables and other laws come from outside the rule, and so do absent ones. -/
def isExternal : Origin → Bool
  | service => true
  | source => true
  | claim => true
  | nothing => true
  | _ => false

end Origin

namespace TraceNode

/-- A node that has produced nothing yet. -/
def fresh (kind : NodeKind) (name : String) : TraceNode :=
  ⟨kind, name, none, .null, none, false, [], []⟩

/-- The node of a path that is being resolved. -/
def resolving (path : String) : TraceNode :=
  { fresh .resolve ("Resolving value: " ++ path) with path := some path }

/-- A node with one more detail. -/
def withDetail (name : String) (value : Value) (node : TraceNode) : TraceNode :=
  { node with details := Entries.insert name value node.details }

/-- A node with one more node at the end of those below it. -/
def withChild (node child : TraceNode) : TraceNode :=
  { node with children := node.children ++ [child] }

mutual

/-- The number of nodes of a tree. -/
def size : TraceNode → Nat
  | ⟨_, _, _, _, _, _, _, children⟩ => sizes children + 1

def sizes : List TraceNode → Nat
  | [] => 0
  | child :: rest => child.size + sizes rest

end

mutual

/-- The nodes of a tree, each before those below it. -/
def nodes : TraceNode → List TraceNode
  | ⟨kind, name, path, result, origin, required, details, children⟩ =>
      ⟨kind, name, path, result, origin, required, details, children⟩ :: nodesBelow children

def nodesBelow : List TraceNode → List TraceNode
  | [] => []
  | child :: rest => child.nodes ++ nodesBelow rest

end

/-- The first node that satisfies a test, each node before those below it. -/
def find? (test : TraceNode → Bool) (node : TraceNode) : Option TraceNode :=
  node.nodes.find? test

mutual

/-- One line a node, indented by two blanks a level. -/
def render (depth : Nat) : TraceNode → String
  | ⟨kind, name, _, result, origin, required, _, children⟩ =>
      String.ofList (List.replicate (2 * depth) ' ') ++ kind.name ++ " " ++ name ++ " = " ++
        result.text ++ (match origin with
          | some origin => " [" ++ origin.name ++ "]"
          | none => "") ++
        (if required then " (required)" else "") ++ "\n" ++ renderAll (depth + 1) children

def renderAll (depth : Nat) : List TraceNode → String
  | [] => ""
  | child :: rest => child.render depth ++ renderAll depth rest

end

/-- The text of a whole tree. -/
def text (node : TraceNode) : String :=
  node.render 0

end TraceNode

end Statute
