/-
This file defines what people claim about the values that a law takes into account.
-/

import Statute.Case.Error

namespace Statute

/-- What a person files. -/
structure ClaimFiling where
  matter : Matter
  key : String
  newValue : Value
  oldValue : Option Value
  reason : String
  claimant : String
  linkedCase : Option CaseId
  evidence : Option String
  autoApprove : Bool

/-- A claim that one value of a matter is another one. Approval and rejection each leave what the
other has noted. -/
structure Claim where
  id : ClaimId
  matter : Matter
  key : String
  oldValue : Option Value
  newValue : Value
  reason : String
  evidence : Option String
  claimant : String
  linkedCase : Option CaseId
  status : ClaimStatus
  verifiedBy : Option String
  verifiedValue : Option Value
  rejectedBy : Option String
  rejectionReason : Option String

namespace Claim

/-- A filed claim waits for its review. -/
def ofFiling (id : ClaimId) (filing : ClaimFiling) : Claim :=
  { id
    matter := filing.matter
    key := filing.key
    oldValue := filing.oldValue
    newValue := filing.newValue
    reason := filing.reason
    evidence := filing.evidence
    claimant := filing.claimant
    linkedCase := filing.linkedCase
    status := .pending
    verifiedBy := none
    verifiedValue := none
    rejectedBy := none
    rejectionReason := none }

/-- The verifier may accept another value than the claimed one. -/
def approve (verifier : String) (value : Value) (claim : Claim) : Claim :=
  { claim with status := .approved, verifiedBy := some verifier, verifiedValue := some value }

def reject (verifier reason : String) (claim : Claim) : Claim :=
  { claim with status := .rejected, rejectedBy := some verifier, rejectionReason := some reason }

/-- A claim is linked to one case at most. -/
def link (case : CaseId) (claim : Claim) : Except CaseError Claim :=
  match claim.linkedCase with
  | some linked => .error (.claimAlreadyLinked claim.id linked)
  | none => .ok { claim with linkedCase := some case }

/-- Only pending claims take evidence. -/
def addEvidence (evidence : String) (claim : Claim) : Except CaseError Claim :=
  if claim.status = .pending then .ok { claim with evidence := some evidence }
  else .error (.claimNotPending claim.id claim.status)

/-- The value that evaluations use: the verified one when the claim is approved. -/
def effectiveValue (claim : Claim) : Value :=
  match claim.status, claim.verifiedValue with
  | .approved, some verified => verified
  | _, _ => claim.newValue

/-- The data of events about a claim. -/
def eventData (claim : Claim) : Record :=
  Entries.ofList [("claim_id", .string claim.id.text), ("key", .string claim.key),
    ("status", .string claim.status.name)]

end Claim

/-- A choice of claims by status. Rejected claims are asked for explicitly, and only where pending
ones are wanted too. -/
structure ClaimFilter where
  approvedOnly : Bool
  includeRejected : Bool
  deriving DecidableEq, Repr

namespace ClaimFilter

/-- The approved claims. -/
def approved : ClaimFilter := ⟨true, false⟩

/-- The claims of any status. -/
def all : ClaimFilter := ⟨false, true⟩

def admits (filter : ClaimFilter) : ClaimStatus → Bool
  | .approved => true
  | .pending => !filter.approvedOnly
  | .rejected => !filter.approvedOnly && filter.includeRejected

end ClaimFilter

end Statute
