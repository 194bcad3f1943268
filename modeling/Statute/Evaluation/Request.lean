/-
This file defines what an evaluation is asked for and what it answers.
-/

import Statute.Evaluation.Error
import Statute.Rule.Basic
import Statute.Trace.Basic

namespace Statute

/-- A caller may give no flag of cancellation, a flag of its own, or the shared flag that tables
raise. -/
inductive Cancellation
  | none
  | own (raised : Bool)
  | shared
  deriving DecidableEq, Repr

/-- A request to evaluate a law of a service. -/
structure Request where
  service : String
  law : String
  parameters : Record
  date : Option Date
  overwrite : Entries Record
  requested : Option String
  approved : Bool
  cancellation : Cancellation

/-- The answer to a request. The input holds every value other than null that was resolved. -/
structure Outcome where
  output : Record
  requirementsMet : Bool
  missingRequired : Bool
  input : Record
  ruleId : String
  trace : Option TraceNode

/-- A version of a law that a service has prepared for a date. -/
structure PreparedRule where
  service : String
  law : String
  date : Date
  rule : Rule

/-- What all evaluations share: the flag that tables raise, and the prepared versions. -/
structure Shared where
  interrupted : Bool
  prepared : List PreparedRule

namespace Shared

/-- Nothing was prepared yet, and the flag is down. -/
def initial : Shared := ⟨false, []⟩

end Shared

namespace Cancellation

/-- True when the flag that a caller gave is up. -/
def isRaised (cancellation : Cancellation) (shared : Shared) : Bool :=
  match cancellation with
  | none => false
  | own raised => raised
  | .shared => shared.interrupted

end Cancellation

/-- A provider answers requests for the laws of services. -/
abbrev Provider := Request → Shared → Except EvaluationError Outcome × Shared

namespace Provider

/-- The provider without any service. -/
def empty : Provider := fun request shared => (.error (.unknownService request.service), shared)

end Provider

/-- The values that were claimed about a person for a law of a service, either the approved ones
only or all that were not rejected. -/
abbrev ClaimLookup := (person service law : String) → (approvedOnly : Bool) → Record

end Statute
