/-
This file defines the events that a case goes through.
-/

import Statute.Case.Identifier
import Statute.Value.Basic

namespace Statute

/-- The kinds of events. -/
inductive EventKind
  | submitted
  | automaticallyDecided
  | addedToManualReview
  | decided
  | objected
  | objectionStatusDetermined
  | objectionAdmissibilityDetermined
  | appealStatusDetermined
  | claimCreated
  | claimApproved
  | claimRejected
  deriving DecidableEq, Repr

namespace EventKind

/-- The name that declarations of rules match. -/
def name : EventKind → String
  | submitted => "Submitted"
  | automaticallyDecided => "AutomaticallyDecided"
  | addedToManualReview => "AddedToManualReview"
  | decided => "Decided"
  | objected => "Objected"
  | objectionStatusDetermined => "ObjectionStatusDetermined"
  | objectionAdmissibilityDetermined => "ObjectionAdmissibilityDetermined"
  | appealStatusDetermined => "AppealStatusDetermined"
  | claimCreated => "ClaimCreated"
  | claimApproved => "ClaimApproved"
  | claimRejected => "ClaimRejected"

def all : List EventKind :=
  [submitted, automaticallyDecided, addedToManualReview, decided, objected,
    objectionStatusDetermined, objectionAdmissibilityDetermined, appealStatusDetermined,
    claimCreated, claimApproved, claimRejected]

def ofName? (name : String) : Option EventKind :=
  all.find? fun kind => kind.name == name

end EventKind

/-- Something that happened to a case, with the fields that it changed. -/
structure Event where
  case : CaseId
  kind : EventKind
  data : Record

end Statute
