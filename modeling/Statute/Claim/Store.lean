/-
This file stores claims and finds them by what they are about.
-/

import Statute.Association
import Statute.Claim.Basic
import Statute.Evaluation.Request

namespace Statute

/-- The claims, and indexes of them. An index keeps what was once filed under a key. -/
structure ClaimStore where
  claims : Association ClaimId Claim
  byService : Index String ClaimId
  byCase : Index CaseId ClaimId
  byClaimant : Index String ClaimId
  byPerson : Index String ClaimId
  byMatter : Association Matter (Entries ClaimId)

namespace ClaimStore

/-- The store before the first claim. -/
def empty : ClaimStore := ⟨[], [], [], [], [], []⟩

instance : Inhabited ClaimStore := ⟨empty⟩

/-- The number of claims. -/
def size (store : ClaimStore) : Nat :=
  store.claims.length

/-- The claims of a matter by key, as identifiers. -/
def keysOf (store : ClaimStore) (matter : Matter) : Entries ClaimId :=
  (Association.get? matter store.byMatter).getD []

/-- The claim of an identifier. -/
def claim (store : ClaimStore) (id : ClaimId) : Except CaseError Claim :=
  match Association.get? id store.claims with
  | some claim => .ok claim
  | none => .error (.claimNotFound id)

/-- A claim is stored and entered in each index. -/
def enter (claim : Claim) (store : ClaimStore) : ClaimStore :=
  { claims := Association.set claim.id claim store.claims
    byService := Index.file claim.matter.service claim.id store.byService
    byCase :=
      match claim.linkedCase with
      | some case => Index.file case claim.id store.byCase
      | none => store.byCase
    byClaimant := Index.file claim.claimant claim.id store.byClaimant
    byPerson := Index.file claim.matter.person claim.id store.byPerson
    byMatter := Association.set claim.matter
      (Entries.insert claim.key claim.id (store.keysOf claim.matter)) store.byMatter }

/-- A filing for a matter and key that were claimed before takes the earlier claim's identifier. -/
def idFor (store : ClaimStore) (filing : ClaimFiling) : ClaimId :=
  match (Entries.get? filing.key (store.keysOf filing.matter)).bind fun id =>
      Association.get? id store.claims with
  | some earlier => earlier.id
  | none => ⟨store.size + 1⟩

/-- A claim is filed. It replaces an earlier one for the same matter and key, and it may be approved
at once by the claimant. -/
def submit (filing : ClaimFiling) (store : ClaimStore) : Claim × ClaimStore :=
  let filed := Claim.ofFiling (store.idFor filing) filing
  let claim := if filing.autoApprove then filed.approve filing.claimant filing.newValue else filed
  (claim, store.enter claim)

/-- A stored claim changes. -/
def change (id : ClaimId) (update : Claim → Except CaseError Claim) (store : ClaimStore) :
    Except CaseError (Claim × ClaimStore) := do
  let claim ← store.claim id
  let changed ← update claim
  return (changed, { store with claims := Association.set id changed store.claims })

def approve (id : ClaimId) (verifier : String) (value : Value) (store : ClaimStore) :
    Except CaseError (Claim × ClaimStore) :=
  store.change id fun claim => .ok (claim.approve verifier value)

def reject (id : ClaimId) (verifier reason : String) (store : ClaimStore) :
    Except CaseError (Claim × ClaimStore) :=
  store.change id fun claim => .ok (claim.reject verifier reason)

def addEvidence (id : ClaimId) (evidence : String) (store : ClaimStore) :
    Except CaseError (Claim × ClaimStore) :=
  store.change id (Claim.addEvidence evidence)

/-- A claim is linked to a case, and filed under it. -/
def link (id : ClaimId) (case : CaseId) (store : ClaimStore) :
    Except CaseError (Claim × ClaimStore) := do
  let (claim, linked) ← store.change id (Claim.link case)
  return (claim, { linked with byCase := Index.file case id linked.byCase })

/-- The claims of some identifiers that a filter admits. -/
def select (store : ClaimStore) (ids : List ClaimId) (filter : ClaimFilter) : List Claim :=
  (ids.filterMap fun id => Association.get? id store.claims).filter fun claim =>
    filter.admits claim.status

def ofService (store : ClaimStore) (service : String) (filter : ClaimFilter) : List Claim :=
  store.select (Index.under service store.byService) filter

def ofCase (store : ClaimStore) (case : CaseId) (filter : ClaimFilter) : List Claim :=
  store.select (Index.under case store.byCase) filter

def ofClaimant (store : ClaimStore) (claimant : String) (filter : ClaimFilter) : List Claim :=
  store.select (Index.under claimant store.byClaimant) filter

def ofPerson (store : ClaimStore) (person : String) (filter : ClaimFilter) : List Claim :=
  store.select (Index.under person store.byPerson) filter

/-- The claims of a matter by key. -/
def ofMatter (store : ClaimStore) (matter : Matter) (filter : ClaimFilter) : Entries Claim :=
  (store.keysOf matter).filterMap fun (key, id) =>
    match Association.get? id store.claims with
    | some claim => if filter.admits claim.status then some (key, claim) else none
    | none => none

/-- What is claimed about a person. A claim for the matter itself goes before claims for others. -/
def values (store : ClaimStore) (matter : Matter) (approvedOnly : Bool) : Record :=
  let filter : ClaimFilter := ⟨approvedOnly, false⟩
  let anywhere : Record := Entries.ofList ((store.ofPerson matter.person filter).map fun claim =>
    (claim.key, claim.effectiveValue))
  Entries.merge anywhere (Entries.mapValues Claim.effectiveValue (store.ofMatter matter filter))

/-- The store as evaluations see it. -/
def lookup (store : ClaimStore) : ClaimLookup :=
  fun person service law approvedOnly => store.values ⟨person, service, law⟩ approvedOnly

end ClaimStore

end Statute
