/-
This file defines cases and the steps that they go through.
-/

import Statute.Case.Error
import Statute.Case.Event
import Statute.Case.Remedy

namespace Statute

/-- The system acts under this name. -/
def systemVerifier : String := "SYSTEM"

/-- What a person submits to be decided. -/
structure Submission where
  matter : Matter
  parameters : Record
  claimedResult : Record
  approvedClaimsOnly : Bool

/-- A case is what a service does about a matter, from its submission to objection and appeal. -/
structure Case where
  id : CaseId
  matter : Matter
  ruleId : String
  approvedClaimsOnly : Bool
  claimedResult : Record
  verifiedResult : Record
  parameters : Record
  disputedParameters : Option Record
  evidence : Option String
  reason : Option String
  verifier : Option String
  objectionStatus : ObjectionStatus
  appealStatus : AppealStatus
  approved : Option Bool
  status : CaseStatus
  claimIds : List ClaimId

namespace Case

/-- A case that was just submitted. -/
def ofSubmission (id : CaseId) (submission : Submission) (verifiedResult : Record) (ruleId : String) :
    Case :=
  { id
    matter := submission.matter
    ruleId
    approvedClaimsOnly := submission.approvedClaimsOnly
    claimedResult := submission.claimedResult
    verifiedResult
    parameters := submission.parameters
    disputedParameters := none
    evidence := none
    reason := none
    verifier := none
    objectionStatus := .empty
    appealStatus := .empty
    approved := none
    status := .submitted
    claimIds := [] }

/-- A case starts again with a new submission. It keeps its matter, its claims and what was
determined about objection and appeal. -/
def reset (submission : Submission) (verifiedResult : Record) (ruleId : String) (case : Case) : Case :=
  { ofSubmission case.id submission verifiedResult ruleId with
    matter := case.matter
    objectionStatus := case.objectionStatus
    appealStatus := case.appealStatus
    claimIds := case.claimIds }

/-- The data of the event of a submission. -/
def submittedData (case : Case) : Record :=
  Entries.ofList [("bsn", .string case.matter.person), ("service", .string case.matter.service),
    ("law", .string case.matter.law), ("parameters", .record case.parameters),
    ("claimed_result", .record case.claimedResult), ("verified_result", .record case.verifiedResult),
    ("rulespec_uuid", .string case.ruleId), ("approved_claims_only", .bool case.approvedClaimsOnly)]

/-- A change of status needs one of the statuses that it starts from. -/
def guard (transition : Transition) (case : Case) : Except CaseError Unit :=
  if case.status ∈ transition.sources then .ok ()
  else .error (.invalidTransition case.id case.status transition)

/-- The system decides a case. -/
def decideAutomatically (verifiedResult : Record) (approved : Bool) (case : Case) :
    Except CaseError (Case × Record) := do
  case.guard .decideAutomatically
  return ({ case with verifiedResult, status := .decided, approved := some approved },
    Entries.ofList [("verified_result", .record verifiedResult), ("approved", .bool approved)])

/-- A case is given to a person. -/
def selectForReview (verifier reason : String) (case : Case) : Except CaseError (Case × Record) := do
  case.guard .review
  return ({ case with status := .inReview, reason := some reason, verifier := some verifier },
    Entries.ofList [("verifier_id", .string verifier), ("reason", .string reason),
      ("claimed_result", .record case.claimedResult),
      ("verified_result", .record case.verifiedResult)])

/-- A person decides a case, and may replace the computed result. -/
def decide (verifier : String) (approved : Bool) (reason : String) (replacement : Option Record)
    (case : Case) : Except CaseError (Case × Record) := do
  case.guard .decide
  let verifiedResult := replacement.getD case.verifiedResult
  return ({ case with
      verifiedResult
      status := .decided
      approved := some approved
      reason := some reason
      verifier := some verifier },
    Entries.ofList [("verified_result", .record verifiedResult), ("reason", .string reason),
      ("verifier_id", .string verifier), ("approved", .bool approved)])

/-- The decision is objected to. -/
def object (reason : String) (case : Case) : Except CaseError (Case × Record) := do
  case.guard .object
  return ({ case with status := .objected, reason := some reason },
    Entries.ofList [("reason", .string reason)])

/-- What a rule determined about the possibility of an objection is noted. -/
def determineObjection (update : ObjectionStatus) (case : Case) : Case × Record :=
  let eligibility := update.withoutAdmissibility
  ({ case with objectionStatus := eligibility.overlay case.objectionStatus }, eligibility.fields)

/-- What a rule determined about the admissibility of an objection is noted. -/
def determineAdmissibility (admissible : Option Bool) (case : Case) : Case × Record :=
  let update := ObjectionStatus.admissibility admissible
  ({ case with objectionStatus := update.overlay case.objectionStatus }, update.fields)

/-- What a rule determined about the possibility of an appeal is noted. -/
def determineAppeal (update : AppealStatus) (case : Case) : Case × Record :=
  ({ case with appealStatus := update.overlay case.appealStatus }, update.fields)

/-- The parameters of a case are disputed, with or without evidence. -/
def dispute (parameters : Record) (evidence : Option String) (case : Case) : Case :=
  { case with disputedParameters := some parameters, evidence }

/-- A claim is attached at most once. -/
def attach (claim : ClaimId) (case : Case) : Case :=
  if case.claimIds.contains claim then case
  else { case with claimIds := case.claimIds ++ [claim] }

/-- A rule determined that an objection is possible. -/
def canObject (case : Case) : Bool :=
  case.objectionStatus.possible == some true

/-- A rule determined that an appeal is possible. -/
def canAppeal (case : Case) : Bool :=
  case.appealStatus.possible == some true

end Case

end Statute
