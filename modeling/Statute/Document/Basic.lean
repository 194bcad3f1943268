/-
This file defines structured texts.
-/

import Statute.Double.Decimal
import Statute.Entries

namespace Statute

/-- A structured text. An object keeps its members in the order of their names, and a whole number
written without point or exponent stays an integer. -/
inductive Document
  | null
  | bool (value : Bool)
  | integer (value : Int)
  | decimal (value : Double)
  | string (value : String)
  | array (items : List Document)
  | object (members : List (String × Document))
  deriving Repr, Inhabited

namespace Document

/-- The member of an object. Other documents have no members. -/
def get? (name : String) : Document → Option Document
  | object members => Entries.get? name members
  | _ => none

/-- An object of the given members, in the order of their names. -/
def ofMembers (members : List (String × Document)) : Document :=
  object (Entries.ofList members)

def isNull : Document → Bool
  | null => true
  | _ => false

end Document

end Statute
