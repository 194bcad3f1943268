/-
This file lists the reasons for which evaluations stop.
-/

import Statute.Rule.Error
import Statute.Value.Basic

namespace Statute

/-- The reasons for which an evaluation stops. Nesting beyond the limit is one of them. -/
inductive EvaluationError
  | rule (cause : RuleError)
  | source (cause : SourceError)
  | value (cause : ValueError)
  | unknownService (service : String)
  | typeMismatch (operation reason : String)
  | serviceCall (service law : String) (cause : EvaluationError)
  | cancelled
  | tooDeep
  deriving DecidableEq, Repr

namespace EvaluationError

/-- The name of an error's kind. -/
def kind : EvaluationError → String
  | rule cause => "Spec." ++ cause.kind
  | source cause => "Source." ++ cause.kind
  | value cause => "Value." ++ cause.kind
  | unknownService _ => "UnknownService"
  | typeMismatch _ _ => "TypeMismatch"
  | serviceCall _ _ _ => "ServiceCall"
  | cancelled => "Cancelled"
  | tooDeep => "TooDeep"

def message : EvaluationError → String
  | rule cause => "specification error: " ++ cause.message
  | source cause => "data source error: " ++ cause.message
  | value cause => "value error: " ++ cause.message
  | unknownService service => "unknown service: " ++ service
  | typeMismatch operation reason => operation ++ ": " ++ reason
  | serviceCall service law cause =>
      "evaluation of " ++ service ++ "." ++ law ++ " failed: " ++ cause.message
  | cancelled => "evaluation cancelled"
  | tooDeep => "evaluation is nested too deeply"

/-- The error at the bottom of nested calls. -/
def rootCause : EvaluationError → EvaluationError
  | serviceCall _ _ cause => cause.rootCause
  | other => other

end EvaluationError

end Statute
