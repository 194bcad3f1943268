/-
This file stores cases with the log of what happened to them.
-/

import Statute.Association
import Statute.Case.Basic
import Statute.Claim.Basic

namespace Statute

/-- The cases in the order of their creation, the case of each matter, and all events. -/
structure CaseStore where
  cases : Association CaseId Case
  byMatter : Association Matter CaseId
  events : List Event

namespace CaseStore

/-- The store before the first submission. -/
def empty : CaseStore := ⟨[], [], []⟩

instance : Inhabited CaseStore := ⟨empty⟩

/-- The number of cases. -/
def size (store : CaseStore) : Nat :=
  store.cases.length

/-- The case of an identifier. -/
def case (store : CaseStore) (id : CaseId) : Except CaseError Case :=
  match Association.get? id store.cases with
  | some case => .ok case
  | none => .error (.caseNotFound id)

/-- The case of a matter. -/
def ofMatter? (store : CaseStore) (matter : Matter) : Option Case :=
  (Association.get? matter store.byMatter).bind fun id => Association.get? id store.cases

/-- An event is appended to the log. -/
def record (id : CaseId) (kind : EventKind) (data : Record) (store : CaseStore) : CaseStore :=
  { store with events := store.events ++ [⟨id, kind, data⟩] }

/-- A case is stored under its identifier. -/
def put (case : Case) (store : CaseStore) : CaseStore :=
  { store with cases := Association.set case.id case store.cases }

/-- A submission creates the case of its matter, or starts the existing one again. Only a creation
is an event. -/
def place (submission : Submission) (verifiedResult : Record) (ruleId : String) (store : CaseStore) :
    Except CaseError (CaseId × CaseStore) :=
  match Association.get? submission.matter store.byMatter with
  | some id => do
      let case ← store.case id
      return (id, store.put (case.reset submission verifiedResult ruleId))
  | none =>
      let case := Case.ofSubmission ⟨store.size + 1⟩ submission verifiedResult ruleId
      let placed := { store.put case with
        byMatter := Association.set submission.matter case.id store.byMatter }
      .ok (case.id, placed.record case.id .submitted case.submittedData)

/-- A case changes, and the change is recorded. -/
def change (id : CaseId) (kind : EventKind) (update : Case → Except CaseError (Case × Record))
    (store : CaseStore) : Except CaseError (Case × CaseStore) := do
  let case ← store.case id
  let (changed, data) ← update case
  return (changed, (store.put changed).record id kind data)

/-- The reason for a person's review. -/
def reviewReason (matched : Bool) : String :=
  if matched then "Selected for manual review - random sample check"
  else "Selected for manual review - results differ"

/-- A submitted case is decided when the results agree and it is not drawn. Otherwise a person reviews
it. -/
def settle (id : CaseId) (verified : Record) (matched sampled : Bool) (store : CaseStore) :
    Except CaseError (Case × CaseStore) :=
  if matched && !sampled then
    store.change id .automaticallyDecided (Case.decideAutomatically verified true)
  else
    store.change id .addedToManualReview
      (Case.selectForReview systemVerifier (reviewReason matched))

/-- A claim is attached to a case. A claim that is attached already is not recorded again. -/
def attach (id : CaseId) (claim : Claim) (store : CaseStore) :
    Except CaseError (Bool × CaseStore) := do
  let case ← store.case id
  if case.claimIds.contains claim.id then return (false, store)
  else return (true, (store.put (case.attach claim.id)).record id .claimCreated claim.eventData)

/-- The event of a claim's review. A pending claim has none. -/
def reviewEvent? : ClaimStatus → Option EventKind
  | .pending => none
  | .approved => some .claimApproved
  | .rejected => some .claimRejected

/-- The review of a claim is recorded with its case, to which the claim belongs from then on. -/
def recordReview (id : CaseId) (claim : Claim) (store : CaseStore) : Except CaseError CaseStore :=
  match reviewEvent? claim.status with
  | none => .ok store
  | some kind =>
      (store.change id kind fun case => .ok (case.attach claim.id, claim.eventData)).map Prod.snd

/-- The cases that satisfy a test, oldest first. -/
def filter (test : Case → Bool) (store : CaseStore) : List Case :=
  (Association.values store.cases).filter test

def withStatus (store : CaseStore) (service : String) (status : CaseStatus) : List Case :=
  store.filter fun case => case.matter.service = service ∧ case.status = status

def underLaw (store : CaseStore) (law service : String) : List Case :=
  store.filter fun case => case.matter.law = law ∧ case.matter.service = service

/-- The events of a case, in order. -/
def eventsOf (store : CaseStore) (id : CaseId) : List Event :=
  store.events.filter fun event => event.case = id

end CaseStore

end Statute
