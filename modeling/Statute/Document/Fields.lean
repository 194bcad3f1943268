/-
This file reads structures from documents and writes them. A structure is an object with named
members, or an array with the members in a fixed order.
-/

import Statute.Document.Basic

namespace Statute.Document

/-- The members of a structure by name. An array may leave the last members out, but has no others. -/
def fields? (names : List String) : Document → Option (String → Option Document)
  | object members => some fun name => Entries.get? name members
  | array items =>
      if items.length ≤ names.length then some fun name => Entries.get? name (names.zip items)
      else none
  | _ => none

def text? : Document → Option String
  | string value => some value
  | _ => none

def flag? : Document → Option Bool
  | bool value => some value
  | _ => none

/-- A whole number of 32 bits without sign. -/
def natural? : Document → Option Nat
  | integer value => if 0 ≤ value ∧ value < UInt32.size then some value.toNat else none
  | _ => none

/-- Every number counts as a float. -/
def float? : Document → Option Double
  | integer value => some (Double.ofInt value)
  | decimal value => some value
  | _ => none

variable {α : Type}

/-- Every item of an array must be readable. -/
def list? (read : Document → Option α) : Document → Option (List α)
  | array items => items.mapM read
  | _ => none

/-- Every member of an object must be readable. -/
def entries? (read : Document → Option α) : Document → Option (Entries α)
  | object members => members.mapM fun (name, member) => (read member).map fun value => (name, value)
  | _ => none

/-- A member that must be there. -/
def required? (read : Document → Option α) (member : Option Document) : Option α :=
  member.bind read

/-- An absent member and a null stand for nothing. -/
def optional? (read : Document → Option α) : Option Document → Option (Option α)
  | none => some none
  | some null => some none
  | some member => (read member).map some

/-- An absent member has a default, but a null does not. -/
def defaulted? (read : Document → Option α) (default : α) : Option Document → Option α
  | none => some default
  | some member => read member

/-- A member that is written only when it is there. -/
def optionalMember (name : String) (write : α → Document) : Option α → List (String × Document)
  | none => []
  | some value => [(name, write value)]

/-- A value or null. -/
def nullable (write : α → Document) : Option α → Document
  | none => null
  | some value => write value

end Statute.Document
