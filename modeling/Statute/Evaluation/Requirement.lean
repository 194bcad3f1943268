/-
This file checks the requirements of rules.
-/

import Statute.Evaluation.Expr
import Statute.Rule.Requirement

namespace Statute

namespace Evaluation

/-- True once a required property was null. -/
def isMissing : Evaluation Bool := do
  return (← get).missingRequired

end Evaluation

namespace Requirement

/-- A check has a node that shows its verdict. -/
def checked (label : String) (body : Evaluation Bool) : Evaluation Bool :=
  Evaluation.inNode (TraceNode.fresh .requirement label) .bool body

mutual

/-- A requirement holds or not. A group of alternatives without members holds. -/
def check (lookUp : LookUp) : Requirement → Evaluation Bool
  | all members => checked (all members).label (checkAll lookUp members)
  | any members =>
      checked (any members).label (if members.isEmpty then pure true else checkAny lookUp members)
  | test expr => checked (test expr).label (do return (← expr.evaluate lookUp).isTruthy)

/-- Members are checked up to the first that fails. A required value that is missing ends the check
as well, in favour of the members so far. -/
def checkAll (lookUp : LookUp) : List Requirement → Evaluation Bool
  | [] => pure true
  | member :: rest => do
      if ← member.check lookUp then
        if ← Evaluation.isMissing then return true
        else checkAll lookUp rest
      else return false

/-- Alternatives are checked up to the first that holds. -/
def checkAny (lookUp : LookUp) : List Requirement → Evaluation Bool
  | [] => pure false
  | member :: rest => do
      if ← member.check lookUp then return true
      else if ← Evaluation.isMissing then return false
      else checkAny lookUp rest

end

/-- A list of requirements holds when all of them do. They are checked up to the first that
fails. -/
def checkEach (lookUp : LookUp) : List Requirement → Evaluation Bool
  | [] => pure true
  | requirement :: rest => do
      Evaluation.checkCancelled
      if ← requirement.check lookUp then checkEach lookUp rest
      else return false

end Requirement

end Statute
