/-
This file reads off a trace which calls an evaluation made and which names it read.
-/

import Statute.Evaluation.Call
import Statute.Proofs.Evaluation.Congruence

namespace Statute

/-- A call as its node shows it. -/
structure CallRecord where
  path : String
  service : String
  law : String
  field : String
  parameters : Record
  date : String

namespace CallRecord

/-- The name under which the value of a call is kept. -/
def key (call : CallRecord) : String :=
  Call.memoKey call.path call.parameters call.date

/-- Two calls ask for the same value when they differ in their path only. -/
def AsksSame (call other : CallRecord) : Prop :=
  { call with path := other.path } = other

end CallRecord

/-- A name that an output could have given was read, or a call was made. -/
inductive Note
  | read (name : String)
  | call (record : CallRecord)

/-- Claims, scopes, definitions, parameters and dates go before outputs. -/
def Origin.isBehindBindings : Origin → Bool
  | output => true
  | overwrite => true
  | source => true
  | service => true
  | nothing => true
  | _ => false

namespace TraceNode

/-- A text among the details of a node. -/
def textDetail (name : String) (node : TraceNode) : String :=
  ((Entries.get? name node.details).bind Value.string?).getD ""

def recordDetail (name : String) (node : TraceNode) : Record :=
  ((Entries.get? name node.details).bind Value.record?).getD []

/-- The call of a node. -/
def callRecord (node : TraceNode) : CallRecord :=
  { path := node.path.getD ""
    service := node.textDetail "service"
    law := node.textDetail "law"
    field := node.textDetail "field"
    parameters := node.recordDetail "parameters"
    date := node.textDetail "reference_date" }

/-- What a node itself says. -/
def ownNotes (node : TraceNode) : List Note :=
  match node.kind, node.path, node.origin with
  | .serviceEvaluation, _, _ => [.call node.callRecord]
  | .resolve, some path, some origin => if origin.isBehindBindings then [.read path] else []
  | _, _, _ => []

mutual

/-- What a closed node says with the nodes below it. What is below a call belongs to another
evaluation. -/
def notes : TraceNode → List Note
  | ⟨kind, name, path, result, origin, required, details, children⟩ =>
      ownNotes ⟨kind, name, path, result, origin, required, details, children⟩ ++
        if kind = .serviceEvaluation then [] else notesBelow children

def notesBelow : List TraceNode → List Note
  | [] => []
  | child :: rest => child.notes ++ notesBelow rest

end

/-- What an open node says with the nodes below it. -/
def openNotes (node : TraceNode) : List Note :=
  node.ownNotes ++ notesBelow node.children

theorem notes_eq (node : TraceNode) :
    node.notes =
      node.ownNotes ++ if node.kind = .serviceEvaluation then [] else notesBelow node.children := by
  cases node
  rw [notes]

/-- Only the node of a call says less when it is closed. -/
theorem notes_eq_openNotes {node : TraceNode} (noCall : node.kind ≠ .serviceEvaluation) :
    node.notes = node.openNotes := by
  rw [notes_eq, if_neg noCall, openNotes]

/-- A plain node has nothing to say. -/
theorem IsPlain.silent {node : TraceNode} (plain : node.IsPlain) : node.openNotes = [] := by
  have own : node.ownNotes = [] := by
    unfold ownNotes
    split
    · rename_i isCall
      exact absurd isCall plain.noCall
    · rename_i isLookUp _ _
      exact absurd isLookUp plain.noLookUp
    · rfl
  rw [openNotes, own, plain.isLeaf, notesBelow, List.append_nil]

theorem notesBelow_append (first second : List TraceNode) :
    notesBelow (first ++ second) = notesBelow first ++ notesBelow second := by
  induction first with
  | nil => rw [notesBelow, List.nil_append, List.nil_append]
  | cons child rest inductionHypothesis =>
      rw [List.cons_append, notesBelow, notesBelow, inductionHypothesis, List.append_assoc]

theorem openNotes_withChild (node child : TraceNode) :
    (node.withChild child).openNotes = node.openNotes ++ child.notes := by
  have own : (node.withChild child).ownNotes = node.ownNotes := rfl
  have below : notesBelow [child] = child.notes := by rw [notesBelow, notesBelow, List.append_nil]
  rw [openNotes, openNotes, own, withChild, notesBelow_append, below, List.append_assoc]

/-- A node keeps what it says about its path or call, and may get more nodes below it. -/
structure Grows (node grown : TraceNode) : Prop where
  kind : grown.kind = node.kind
  name : grown.name = node.name
  path : grown.path = node.path
  origin : grown.origin = node.origin
  details : ∀ name ∈ callDetails, Entries.get? name grown.details = Entries.get? name node.details
  children : ∃ added, grown.children = node.children ++ added

namespace Grows

variable {node grown later : TraceNode}

theorem refl (node : TraceNode) : node.Grows node :=
  ⟨rfl, rfl, rfl, rfl, fun _ _ => rfl, [], (List.append_nil _).symm⟩

theorem trans (first : node.Grows grown) (second : grown.Grows later) : node.Grows later := by
  refine ⟨second.kind.trans first.kind, second.name.trans first.name,
    second.path.trans first.path, second.origin.trans first.origin, ?_, ?_⟩
  · intro name isCallDetail
    rw [second.details name isCallDetail, first.details name isCallDetail]
  · obtain ⟨added, grown⟩ := first.children
    obtain ⟨more, later⟩ := second.children
    exact ⟨added ++ more, by rw [later, grown, List.append_assoc]⟩

theorem withChild (node child : TraceNode) : node.Grows (node.withChild child) :=
  ⟨rfl, rfl, rfl, rfl, fun _ _ => rfl, [child], rfl⟩

/-- A detail that says nothing about a call does not change what the node says. -/
theorem withDetail {name : String} (noCallDetail : name ∉ callDetails) (value : Value)
    (node : TraceNode) : node.Grows (node.withDetail name value) := by
  refine ⟨rfl, rfl, rfl, rfl, ?_, [], (List.append_nil _).symm⟩
  intro wanted isCallDetail
  have different : wanted ≠ name := fun same => noCallDetail (same ▸ isCallDetail)
  rw [TraceNode.withDetail, Entries.get?_insert, if_neg different]

/-- The declaration of a property says nothing about a call. -/
theorem withProperty (property : Property) (node : TraceNode) :
    node.Grows
      (let declared := { node with required := property.required }
      match property.valueType with
      | some valueType => declared.withDetail "type" (.string valueType)
      | none => declared) := by
  have declared : node.Grows { node with required := property.required } :=
    ⟨rfl, rfl, rfl, rfl, fun _ _ => rfl, [], (List.append_nil _).symm⟩
  dsimp only
  split
  · exact declared.trans (.withDetail (by decide) _ _)
  · exact declared

theorem callRecord (grows : node.Grows grown) : grown.callRecord = node.callRecord := by
  have details : ∀ name ∈ callDetails,
      Entries.get? name grown.details = Entries.get? name node.details := grows.details
  simp [TraceNode.callRecord, textDetail, recordDetail, grows.path,
    details "service" (by decide), details "law" (by decide), details "field" (by decide),
    details "parameters" (by decide), details "reference_date" (by decide)]

theorem ownNotes (grows : node.Grows grown) : grown.ownNotes = node.ownNotes := by
  rw [TraceNode.ownNotes, TraceNode.ownNotes, grows.callRecord, grows.kind, grows.path,
    grows.origin]

theorem openNotes (grows : node.Grows grown) : node.openNotes ⊆ grown.openNotes := by
  obtain ⟨added, children⟩ := grows.children
  rw [TraceNode.openNotes, TraceNode.openNotes, grows.ownNotes, children, notesBelow_append,
    ← List.append_assoc]
  exact List.subset_append_left _ _

end Grows

end TraceNode

namespace Progress

/-- What the trace says so far. -/
def notes (progress : Progress) : List Note :=
  progress.openNodes.flatMap TraceNode.openNotes

end Progress

end Statute
