/-
This file shows cases to rules, and writes cases as documents and reads them back.
-/

import Statute.Case.Basic
import Statute.Date.Instant
import Statute.Value.Order

namespace Statute

/-- The number behind a fixed text. -/
def numberAfter? (start text : String) : Option Nat :=
  let digits := text.toList.drop start.length
  if text.toList.take start.length = start.toList ∧ digits ≠ [] ∧ digits.all Char.isDigit then
    some (Double.digitsValue digits)
  else none

/-- The case that a text names. -/
def CaseId.ofText? (text : String) : Option CaseId :=
  (numberAfter? "case-" text).map CaseId.mk

/-- The claim that a text names. -/
def ClaimId.ofText? (text : String) : Option ClaimId :=
  (numberAfter? "claim-" text).map ClaimId.mk

namespace Case

/-- The fields of a case. What is not set is left out. -/
def fields (case : Case) : Record :=
  Entries.ofList ([("id", .string case.id.text), ("bsn", .string case.matter.person),
    ("service", .string case.matter.service), ("law", .string case.matter.law),
    ("rulespec_uuid", .string case.ruleId), ("approved_claims_only", .bool case.approvedClaimsOnly),
    ("claimed_result", .record case.claimedResult), ("verified_result", .record case.verifiedResult),
    ("parameters", .record case.parameters),
    ("objection_status", .record case.objectionStatus.fields),
    ("appeal_status", .record case.appealStatus.fields), ("status", .string case.status.name),
    ("claim_ids", .list (case.claimIds.map fun id => .string id.text))] ++
    setField "disputed_parameters" .record case.disputedParameters ++
    setField "evidence" .string case.evidence ++ setField "reason" .string case.reason ++
    setField "verifier_id" .string case.verifier ++ setField "approved" .bool case.approved)

/-- The document that writes a case. -/
def toDocument (case : Case) : Document :=
  (Value.record case.fields).toDocument

/-- A case as the data of rules. -/
def toValue (case : Case) : Value :=
  (Value.record case.fields).reread

/-- A case as the data of rules, with the moments of its submission and of its last change. -/
def datedValue (created updated : Instant) (case : Case) : Value :=
  (Value.record (Entries.insert "created_at" (.string created.fullText)
    (Entries.insert "updated_at" (.string updated.fullText) case.fields))).reread

/-- Two cases are the same when their fields are. A NaN differs from itself. -/
def same (first second : Case) : Bool :=
  (Value.record first.fields).same (.record second.fields)

def readRecord? : Document → Option Record :=
  Document.entries? fun member => some (Value.ofDocument member)

def readStatus? (document : Document) : Option CaseStatus :=
  (Document.text? document).bind CaseStatus.ofName?

/-- The case that a document writes. -/
def ofDocument? (document : Document) : Option Case := do
  let field := fun name => document.get? name
  let id ← Document.required? (fun member => (Document.text? member).bind CaseId.ofText?) (field "id")
  let person ← Document.required? Document.text? (field "bsn")
  let service ← Document.required? Document.text? (field "service")
  let law ← Document.required? Document.text? (field "law")
  let ruleId ← Document.required? Document.text? (field "rulespec_uuid")
  let approvedClaimsOnly ← Document.required? Document.flag? (field "approved_claims_only")
  let claimedResult ← Document.required? readRecord? (field "claimed_result")
  let verifiedResult ← Document.required? readRecord? (field "verified_result")
  let parameters ← Document.required? readRecord? (field "parameters")
  let disputedParameters ← Document.optional? readRecord? (field "disputed_parameters")
  let evidence ← Document.optional? Document.text? (field "evidence")
  let reason ← Document.optional? Document.text? (field "reason")
  let verifier ← Document.optional? Document.text? (field "verifier_id")
  let objectionStatus ← Document.defaulted? ObjectionStatus.ofDocument? .empty
    (field "objection_status")
  let appealStatus ← Document.defaulted? AppealStatus.ofDocument? .empty (field "appeal_status")
  let approved ← Document.optional? Document.flag? (field "approved")
  let status ← Document.required? readStatus? (field "status")
  let claimIds ← Document.defaulted?
    (Document.list? fun member => (Document.text? member).bind ClaimId.ofText?) [] (field "claim_ids")
  return ⟨id, ⟨person, service, law⟩, ruleId, approvedClaimsOnly, claimedResult, verifiedResult,
    parameters, disputedParameters, evidence, reason, verifier, objectionStatus, appealStatus,
    approved, status, claimIds⟩

/-- A case after it was written and read again. Numbers that documents do not have become null. -/
def reread (case : Case) : Case :=
  (ofDocument? case.toDocument).getD case

end Case

end Statute
