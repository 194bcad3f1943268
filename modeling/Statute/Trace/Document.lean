/-
This file reads traces from documents and writes them.
-/

import Statute.Trace.Basic

namespace Statute

namespace Document

/-- A name stands alone or is the only member of an object, with null as its value. -/
def choice? : Document → Option String
  | string name => some name
  | object [(name, null)] => some name
  | _ => none

end Document

namespace TraceNode

/-- The members of a node in the order in which an array holds them. -/
def memberNames : List String :=
  ["kind", "name", "path", "result", "resolve_type", "required", "details", "children"]

/-- The parts of a node other than the nodes below it. -/
def ofFields? (field : String → Option Document) (children : List TraceNode) : Option TraceNode := do
  let kind ← Document.required? (fun member => (Document.choice? member).bind NodeKind.ofName?)
    (field "kind")
  let name ← Document.required? Document.text? (field "name")
  let path ← Document.optional? Document.text? (field "path")
  let result ← Document.defaulted? (fun member => some (Value.ofDocument member)) .null
    (field "result")
  let origin ← Document.optional? (fun member => (Document.choice? member).bind Origin.ofName?)
    (field "resolve_type")
  let required ← Document.defaulted? Document.flag? false (field "required")
  let details ← Document.defaulted?
    (Document.entries? fun member => some (Value.ofDocument member)) [] (field "details")
  return ⟨kind, name, path, result, origin, required, details, children⟩

mutual

/-- The node that a document writes. -/
def ofDocument? : Document → Option TraceNode
  | .object members => do
      let children ← ofMember? members
      let field ← Document.fields? memberNames (.object members)
      ofFields? field children
  | .array items => do
      let children ← ofPlace? (memberNames.length - 1) items
      let field ← Document.fields? memberNames (.array items)
      ofFields? field children
  | _ => none

/-- The nodes of the member with the nodes below, of which there are none if it is absent. -/
def ofMember? : List (String × Document) → Option (List TraceNode)
  | [] => some []
  | (name, member) :: rest => if name = "children" then ofArray? member else ofMember? rest

/-- The nodes of the item at a place, of which there are none behind the end. -/
def ofPlace? (place : Nat) : List Document → Option (List TraceNode)
  | [] => some []
  | item :: rest =>
      match place with
      | 0 => ofArray? item
      | before + 1 => ofPlace? before rest

def ofArray? : Document → Option (List TraceNode)
  | .array items => ofItems? items
  | _ => none

def ofItems? : List Document → Option (List TraceNode)
  | [] => some []
  | item :: rest =>
      match ofDocument? item, ofItems? rest with
      | some node, some nodes => some (node :: nodes)
      | _, _ => none

end

/-- A member that is written only when it holds something. -/
def filledMember (name : String) (isEmpty : Bool) (document : Document) : List (String × Document) :=
  if isEmpty then [] else [(name, document)]

mutual

/-- The document that writes a node. -/
def toDocument : TraceNode → Document
  | ⟨kind, name, path, result, origin, required, details, children⟩ =>
      Document.ofMembers (("kind", .string kind.name) :: ("name", .string name) ::
        ("result", result.toDocument) :: ("required", .bool required) ::
        Document.optionalMember "path" .string path ++
        Document.optionalMember "resolve_type" (fun origin => .string origin.name) origin ++
        filledMember "details" details.isEmpty (Value.record details).toDocument ++
        filledMember "children" children.isEmpty (.array (toItems children)))

def toItems : List TraceNode → List Document
  | [] => []
  | child :: rest => child.toDocument :: toItems rest

end

end TraceNode

end Statute
