/-
This file lists the reasons for which work on cases and claims fails.
-/

import Statute.Case.Identifier
import Statute.Case.Status
import Statute.Evaluation.Error
import Statute.Text.Quoted

namespace Statute

/-- The reasons for which work on cases and claims fails. -/
inductive CaseError
  | invalidTransition (id : CaseId) (current : CaseStatus) (transition : Transition)
  | caseNotFound (id : CaseId)
  | claimNotFound (id : ClaimId)
  | claimAlreadyLinked (id : ClaimId) (linked : CaseId)
  | claimNotPending (id : ClaimId) (status : ClaimStatus)
  | unknownCaseStatus (text : String)
  | unknownClaimStatus (text : String)
  | noRuntime
  | evaluation (cause : EvaluationError)
  | rule (cause : RuleError)
  | value (cause : ValueError)
  deriving DecidableEq, Repr

namespace CaseError

/-- The name of an error's kind. -/
def kind : CaseError → String
  | invalidTransition _ _ _ => "InvalidTransition"
  | caseNotFound _ => "CaseNotFound"
  | claimNotFound _ => "ClaimNotFound"
  | claimAlreadyLinked _ _ => "ClaimAlreadyLinked"
  | claimNotPending _ _ => "ClaimNotPending"
  | unknownCaseStatus _ => "UnknownStatus"
  | unknownClaimStatus _ => "UnknownStatus"
  | noRuntime => "NoRuntime"
  | evaluation cause => "Engine." ++ cause.kind
  | rule cause => "Spec." ++ cause.kind
  | value cause => "Value." ++ cause.kind

def message : CaseError → String
  | invalidTransition id current transition =>
      "invalid transition of case " ++ id.text ++ " from " ++ current.name ++ " to " ++
        transition.target.name ++ ": " ++ transition.rule
  | caseNotFound id => "case " ++ id.text ++ " not found"
  | claimNotFound id => "claim " ++ id.text ++ " not found"
  | claimAlreadyLinked id linked =>
      "claim " ++ id.text ++ " is already linked to case " ++ linked.text
  | claimNotPending id status => "claim " ++ id.text ++ " is " ++ status.name ++ ", expected PENDING"
  | unknownCaseStatus text => "unknown case status: " ++ Text.quoted text
  | unknownClaimStatus text => "unknown claim status: " ++ Text.quoted text
  | noRuntime => "no Tokio runtime available to run the rule trigger"
  | evaluation cause => cause.message
  | rule cause => cause.message
  | value cause => cause.message

end CaseError

namespace CaseStatus

/-- The status of a name. -/
def parse (name : String) : Except CaseError CaseStatus :=
  match ofName? name with
  | some status => .ok status
  | none => .error (.unknownCaseStatus name)

end CaseStatus

namespace ClaimStatus

/-- The status of a name. -/
def parse (name : String) : Except CaseError ClaimStatus :=
  match ofName? name with
  | some status => .ok status
  | none => .error (.unknownClaimStatus name)

end ClaimStatus

end Statute
