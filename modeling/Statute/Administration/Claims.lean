/-
This file keeps claims and the cases that they are linked to in step.
-/

import Statute.Administration.Cases

namespace Statute.Administration

/-- A claim is attached to the case that it names, and sends it to review. -/
def attachFiled (claim : Claim) : Procedure Unit :=
  match claim.linkedCase with
  | some id => do
      let _ ← attachClaim id claim
      recordReview id claim
  | none => pure ()

/-- A claim is filed, and attached to the case that it names. -/
def fileClaim (filing : ClaimFiling) : Procedure Claim := do
  if let some id := filing.linkedCase then
    let _ ← caseOf id
  let claim ← onClaims fun claims => .ok (claims.submit filing)
  attachFiled claim
  return claim

/-- A review is recorded with the case of the claim, if it has one. -/
def shareReview (claim : Claim) : Procedure Unit :=
  match claim.linkedCase with
  | some id => recordReview id claim
  | none => pure ()

def approveClaim (id : ClaimId) (verifier : String) (value : Value) : Procedure Claim := do
  let claim ← onClaims (ClaimStore.approve id verifier value)
  shareReview claim
  return claim

def rejectClaim (id : ClaimId) (verifier reason : String) : Procedure Claim := do
  let claim ← onClaims (ClaimStore.reject id verifier reason)
  shareReview claim
  return claim

/-- A claim is linked to an existing case. -/
def linkClaim (id : ClaimId) (case : CaseId) : Procedure Claim := do
  let _ ← caseOf case
  let claim ← onClaims (ClaimStore.link id case)
  let _ ← attachClaim case claim
  return claim

def addEvidence (id : ClaimId) (evidence : String) : Procedure Claim :=
  onClaims (ClaimStore.addEvidence id evidence)

/-- The claim of an identifier. -/
def claimOf (id : ClaimId) : Procedure Claim :=
  onClaims fun claims => (claims.claim id).map fun claim => (claim, claims)

end Statute.Administration
