/-
This file collects the values of a trace that came from outside the rule.
-/

import Statute.Trace.Basic

namespace Statute

/-- A value from outside, and the values that another law took from outside to compute it. -/
structure SourcedValue where
  result : Value
  required : Bool
  service : Option String
  law : Option String
  children : List (String × SourcedValue)

namespace TraceNode

/-- A text among the details of a node. -/
def textDetail? (name : String) (details : Record) : Option String :=
  (Entries.get? name details).bind Value.string?

mutual

/-- A call of another law takes the place of what was found for its path, and what it took from
outside stays below it. Of other values of one path the first counts. -/
def collectValues (found : Entries SourcedValue) : TraceNode → Entries SourcedValue
  | ⟨kind, _, path, result, origin, required, details, children⟩ =>
      match kind, path with
      | .serviceEvaluation, some called =>
          Entries.insert called ⟨result, required, textDetail? "service" details,
            textDetail? "law" details, collectAll [] children⟩ found
      | .resolve, some resolved =>
          if (origin.map Origin.isExternal).getD false then
            collectAll (Entries.insertNew resolved ⟨result, required, none, none, []⟩ found) children
          else collectAll found children
      | _, _ => collectAll found children

def collectAll (found : Entries SourcedValue) : List TraceNode → Entries SourcedValue
  | [] => found
  | child :: rest => collectAll (collectValues found child) rest

end

/-- The values from outside under their paths. -/
def valueTree (node : TraceNode) : Entries SourcedValue :=
  collectValues [] node

end TraceNode

end Statute
