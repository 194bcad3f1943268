/-
This file decides submissions and lets people work on cases.
-/

import Statute.Administration.Basic
import Statute.Case.Agreement

namespace Statute.Administration

/-- A request that takes only approved claims into account. -/
def approvedRequest (service law : String) (parameters : Record) (date : Option Date) : Request :=
  ⟨service, law, parameters, date, [], none, true, .none⟩

/-- True when a submission is drawn for a person's review. -/
def drawSample : Procedure Bool := do
  let administration ← get
  set { administration with drawn := administration.drawn + 1 }
  return (administration.sampler administration.drawn).isLT administration.configuration.sampleRate

/-- A submission is evaluated with approved claims and then decided or reviewed. -/
def submit (submission : Submission) : Procedure CaseId := do
  let outcome ← evaluate
    (approvedRequest submission.matter.service submission.matter.law submission.parameters none)
  let matched := Record.agrees submission.claimedResult outcome.output
  let sampled ← drawSample
  let id ← onCases (CaseStore.place submission outcome.output outcome.ruleId)
  let _ ← onCases (CaseStore.settle id outcome.output matched sampled)
  return id

/-- A person's decision. -/
def completeReview (id : CaseId) (verifier : String) (approved : Bool) (reason : String)
    (replacement : Option Record) : Procedure Case :=
  onCases (CaseStore.change id .decided (Case.decide verifier approved reason replacement))

/-- An objection to a decision. -/
def object (id : CaseId) (reason : String) : Procedure Case :=
  onCases (CaseStore.change id .objected (Case.object reason))

def determineObjection (id : CaseId) (update : ObjectionStatus) : Procedure Case :=
  onCases (CaseStore.change id .objectionStatusDetermined fun case =>
    .ok (case.determineObjection update))

def determineAdmissibility (id : CaseId) (admissible : Option Bool) : Procedure Case :=
  onCases (CaseStore.change id .objectionAdmissibilityDetermined fun case =>
    .ok (case.determineAdmissibility admissible))

def determineAppeal (id : CaseId) (update : AppealStatus) : Procedure Case :=
  onCases (CaseStore.change id .appealStatusDetermined fun case =>
    .ok (case.determineAppeal update))

/-- The case of an identifier. -/
def caseOf (id : CaseId) : Procedure Case :=
  onCases fun cases => (cases.case id).map fun case => (case, cases)

/-- A claim is attached to a case. -/
def attachClaim (id : CaseId) (claim : Claim) : Procedure Bool :=
  onCases (CaseStore.attach id claim)

/-- The review of a claim is recorded with its case. -/
def recordReview (id : CaseId) (claim : Claim) : Procedure Unit :=
  onCases fun cases => (cases.recordReview id claim).map fun recorded => ((), recorded)

end Statute.Administration
