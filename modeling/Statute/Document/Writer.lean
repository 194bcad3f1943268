/-
This file writes documents in compact form.
-/

import Statute.Document.Text

namespace Statute.Document

/-- A float keeps its point when it is written. -/
def writeDecimal (value : Double) : String :=
  if !value.isFinite then "null"
  else if value.isWhole then value.text ++ ".0"
  else value.text

mutual

/-- The compact text of a document. -/
def write : Document → String
  | null => "null"
  | bool value => if value then "true" else "false"
  | integer value => toString value
  | decimal value => writeDecimal value
  | string value => writeText value
  | array items => "[" ++ String.intercalate "," (writeItems items) ++ "]"
  | object members => "\x7b" ++ String.intercalate "," (writeMembers members) ++ "\x7d"

def writeItems : List Document → List String
  | [] => []
  | item :: rest => item.write :: writeItems rest

def writeMembers : List (String × Document) → List String
  | [] => []
  | (name, member) :: rest => (writeText name ++ ":" ++ member.write) :: writeMembers rest

end

end Statute.Document
