/-
This file reads values from documents and writes them.
-/

import Statute.Document.Basic
import Statute.Value.Basic

namespace Statute.Value

/-- An integer outside the range of 64 bits becomes the nearest float. -/
def ofInteger (value : Int) : Value :=
  if Int64.minValue.toInt ≤ value ∧ value ≤ Int64.maxValue.toInt then int (Int64.ofInt value)
  else float (Double.ofInt value)

mutual

/-- The value that a document writes. -/
def ofDocument : Document → Value
  | .null => null
  | .bool value => bool value
  | .integer value => ofInteger value
  | .decimal value => float value
  | .string value => string value
  | .array items => list (ofItems items)
  | .object members => record (ofMembers members)

def ofItems : List Document → List Value
  | [] => []
  | item :: rest => ofDocument item :: ofItems rest

def ofMembers : List (String × Document) → List (String × Value)
  | [] => []
  | (name, member) :: rest => (name, ofDocument member) :: ofMembers rest

end

mutual

/-- The document that writes a value. Documents have neither a NaN nor infinities, so these are
written as null. -/
def toDocument : Value → Document
  | null => .null
  | bool value => .bool value
  | int value => .integer value.toInt
  | float value => if value.isFinite then .decimal value else .null
  | string value => .string value
  | list items => .array (toItems items)
  | record fields => .object (toMembers fields)

def toItems : List Value → List Document
  | [] => []
  | item :: rest => toDocument item :: toItems rest

def toMembers : List (String × Value) → List (String × Document)
  | [] => []
  | (name, value) :: rest => (name, toDocument value) :: toMembers rest

end

/-- A value after it was written and read again. -/
def reread (value : Value) : Value :=
  ofDocument value.toDocument

end Statute.Value
