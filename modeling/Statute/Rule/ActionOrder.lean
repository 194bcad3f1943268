/-
This file selects the actions that an output needs and puts them in an order in which each action
comes after the actions that it depends on.
-/

import Statute.Rule.Action

namespace Statute

namespace ActionOrder

/-- For the place of each action, the places of the actions that it depends on. -/
abbrev Graph := Array (List Nat)

/-- The outputs with the places of their actions, from the last action to the first. -/
def places (actions : List Action) : List (String × Nat) :=
  (actions.map Action.output).zipIdx.reverse

/-- The place of the action that stands for an output, which is the last action of the output. -/
def standing? (outputs : List (String × Nat)) (output : String) : Option Nat :=
  outputs.lookup output

/-- An action depends on the actions that stand for the outputs it mentions, each named once. -/
def mentioned (outputs : List (String × Nat)) (action : Action) : List Nat :=
  (action.references.filterMap fun path => standing? outputs (pathRoot path)).eraseDups

def graph (actions : List Action) : Graph :=
  (actions.map (mentioned (places actions))).toArray

/-- The places that a place depends on. A place without an action depends on none. -/
def dependencies (graph : Graph) (index : Nat) : List Nat :=
  graph[index]?.getD []

def dependsOn (graph : Graph) (index other : Nat) : Bool :=
  (dependencies graph index).contains other

/-- Each round adds the places that the latest ones depend on, until there are no new ones. -/
def spread (graph : Graph) : Nat → List Nat → List Nat → List Nat
  | 0, known, _ => known
  | rounds + 1, known, latest =>
      match (latest.flatMap (dependencies graph)).eraseDups.filter fun place =>
          !known.contains place with
      | [] => known
      | fresh => spread graph rounds (fresh ++ known) fresh

/-- The places that a place depends on through any number of steps, with itself, in increasing
order. Each round adds a place, so as many rounds as there are actions suffice. -/
def reachable (graph : Graph) (start : Nat) : List Nat :=
  (List.range graph.size).filter (spread graph graph.size [start] [start]).contains

/-- A place that is not in the order yet, with the number of its dependencies that are not in it
either. -/
structure Waiting where
  index : Nat
  unmet : Nat
  deriving DecidableEq, Repr

/-- The waiting places after one of them entered the order. -/
def release (graph : Graph) (done : Nat) (waiting : List Waiting) : List Waiting :=
  (waiting.filter fun place => place.index != done).map fun place =>
    if dependsOn graph place.index done then ⟨place.index, place.unmet - 1⟩ else place

/-- The first waiting place without unmet dependencies comes next. If there is none, the first
waiting place is named. -/
def drain (graph : Graph) : Nat → List Waiting → Except Nat (List Nat)
  | 0, _ => .ok []
  | steps + 1, waiting =>
      match waiting with
      | [] => .ok []
      | first :: _ =>
          match waiting.find? fun place => place.unmet == 0 with
          | none => .error first.index
          | some ready =>
              (drain graph steps (release graph ready.index waiting)).map (ready.index :: ·)

/-- The places of a set, each with the number of its dependencies in the set. -/
def waitingFor (graph : Graph) (needed : List Nat) : List Waiting :=
  needed.map fun index => ⟨index, ((dependencies graph index).filter needed.contains).length⟩

/-- The places of the actions for a requested output in the order of their execution. Without a
request these are all places, and an output that no action stands for needs none. -/
def indices (actions : List Action) (requested : Option String) : Except RuleError (List Nat) :=
  match requested with
  | none => .ok (List.range actions.length)
  | some output =>
      match standing? (places actions) output with
      | none => .ok []
      | some start =>
          let graph := graph actions
          let needed := reachable graph start
          match drain graph needed.length (waitingFor graph needed) with
          | .ok order => .ok order
          | .error index =>
              .error (.circularDependency ((actions[index]?.map Action.output).getD ""))

/-- The actions for a requested output in the order of their execution. -/
def required (actions : List Action) (requested : Option String) : Except RuleError (List Action) :=
  (indices actions requested).map fun places => places.filterMap fun index => actions[index]?

end ActionOrder

end Statute
