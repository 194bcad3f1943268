/-
This file defines the statuses of cases and claims, and the changes of status that people and the
system make.
-/

namespace Statute

/-- A case is submitted, waits for a person's decision, is decided, or is objected to. -/
inductive CaseStatus
  | submitted
  | inReview
  | decided
  | objected
  deriving DecidableEq, Repr

/-- A claim waits for its review, or was approved or rejected. -/
inductive ClaimStatus
  | pending
  | approved
  | rejected
  deriving DecidableEq, Repr

/-- The changes of status that depend on the status before. -/
inductive Transition
  | decideAutomatically
  | review
  | decide
  | object
  deriving DecidableEq, Repr

namespace CaseStatus

def name : CaseStatus → String
  | submitted => "SUBMITTED"
  | inReview => "IN_REVIEW"
  | decided => "DECIDED"
  | objected => "OBJECTED"

def all : List CaseStatus := [submitted, inReview, decided, objected]

def ofName? (name : String) : Option CaseStatus :=
  all.find? fun status => status.name == name

end CaseStatus

namespace ClaimStatus

def name : ClaimStatus → String
  | pending => "PENDING"
  | approved => "APPROVED"
  | rejected => "REJECTED"

def all : List ClaimStatus := [pending, approved, rejected]

def ofName? (name : String) : Option ClaimStatus :=
  all.find? fun status => status.name == name

end ClaimStatus

namespace Transition

/-- The statuses that a change starts from. -/
def sources : Transition → List CaseStatus
  | decideAutomatically => [.submitted, .objected]
  | review => [.submitted, .objected]
  | decide => [.inReview, .objected]
  | object => [.decided]

/-- The status that a change leads to. -/
def target : Transition → CaseStatus
  | decideAutomatically => .decided
  | review => .inReview
  | decide => .decided
  | object => .objected

/-- The rule that a refused change would break. -/
def rule : Transition → String
  | decideAutomatically => "can only automatically decide submitted or objected cases"
  | review => "can only route submitted or objected cases to review"
  | decide => "can only manually decide cases in review or objected"
  | object => "can only object to decided cases"

end Transition

end Statute
