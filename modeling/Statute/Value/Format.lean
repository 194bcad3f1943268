/-
This file hands values over to formats, part by part.
-/

import Statute.Value.Document

namespace Statute

/-- A format takes data in part by part and may refuse a part with a reason. What it has gathered of a
list is of one type, and what it has gathered of a record of another. -/
structure Format (α ι φ : Type) where
  null : Except String α
  bool : Bool → Except String α
  integer : Int64 → Except String α
  float : Double → Except String α
  string : String → Except String α
  openList : Nat → Except String ι
  addItem : ι → α → Except String ι
  closeList : ι → Except String α
  openRecord : Nat → Except String φ
  addField : φ → String → α → Except String φ
  closeRecord : φ → Except String α

/-- A document gathers items in a list and members in the order of their names. A NaN and the infinities
become null. -/
def Document.format : Format Document (List Document) (Entries Document) where
  null := .ok null
  bool value := .ok (bool value)
  integer value := .ok (integer value.toInt)
  float value := .ok (if value.isFinite then decimal value else null)
  string value := .ok (string value)
  openList _ := .ok []
  addItem items item := .ok (items ++ [item])
  closeList items := .ok (array items)
  openRecord _ := .ok []
  addField members name member := .ok (Entries.insert name member members)
  closeRecord members := .ok (object members)

namespace Value

variable {α ι φ : Type}

mutual

/-- A value is handed over part by part, until a part is refused. -/
def serialize (format : Format α ι φ) : Value → Except String α
  | null => format.null
  | bool value => format.bool value
  | int value => format.integer value
  | float value => format.float value
  | string value => format.string value
  | list items => do
      let opened ← format.openList items.length
      let gathered ← serializeItems format opened items
      format.closeList gathered
  | record fields => do
      let opened ← format.openRecord fields.length
      let gathered ← serializeFields format opened fields
      format.closeRecord gathered

def serializeItems (format : Format α ι φ) (gathered : ι) : List Value → Except String ι
  | [] => .ok gathered
  | item :: rest => do
      let part ← item.serialize format
      let more ← format.addItem gathered part
      serializeItems format more rest

def serializeFields (format : Format α ι φ) (gathered : φ) :
    List (String × Value) → Except String φ
  | [] => .ok gathered
  | (name, value) :: rest => do
      let part ← value.serialize format
      let more ← format.addField gathered name part
      serializeFields format more rest

end

/-- The value of any data that can be handed over to a document. -/
def ofSerializable
    (serialize : Format Document (List Document) (Entries Document) → Except String Document) :
    Except ValueError Value :=
  match serialize Document.format with
  | .ok document => .ok (ofDocument document)
  | .error reason => .error (.notWritten reason)

end Value

end Statute
