/-
This file proves that commands which fail change neither claims nor cases.
-/

import Statute.Proofs.Administration.Lifecycle
import Statute.Proofs.Claim.History

namespace Statute

namespace CaseStore

variable {store : CaseStore}

/-- A case that is there stays when another one is stored. -/
theorem Stores.put {id : CaseId} (stored : store.Stores id) (case : Case) :
    (store.put case).Stores id := by
  obtain ⟨old, found⟩ := stored
  unfold Stores CaseStore.put
  rw [Association.get?_set]
  split
  · exact ⟨case, rfl⟩
  · exact ⟨old, found⟩

/-- A claim can be attached to every case that is there. -/
theorem attach_stored {id : CaseId} (stored : store.Stores id) (claim : Claim) :
    ∃ isNew after, store.attach id claim = .ok (isNew, after) ∧ after.Stores id := by
  obtain ⟨case, found⟩ := stored
  unfold attach
  rw [case_eq_ok.mpr found]
  dsimp only [bind, Except.bind]
  split
  · exact ⟨false, store, rfl, case, found⟩
  · exact ⟨true, _, rfl, Stores.put ⟨case, found⟩ (case.attach claim.id)⟩

theorem recordReview_stored {id : CaseId} (stored : store.Stores id) (claim : Claim) :
    ∃ after, store.recordReview id claim = .ok after := by
  obtain ⟨case, found⟩ := stored
  unfold recordReview
  split
  · exact ⟨store, rfl⟩
  · rw [change_of_ok found rfl]
    exact ⟨_, rfl⟩

end CaseStore

namespace Administration

variable {α β : Type}

/-- The error with which a procedure fails. -/
def failureOf (procedure : Procedure α) (administration : Administration) : Option CaseError :=
  match (perform procedure administration).1 with
  | .ok _ => none
  | .error error => some error

/-- The error with which a command fails. The trigger counts its failures and never fails itself. -/
def failure? (administration : Administration) : Command → Option CaseError
  | .evaluate request => failureOf (evaluate request) administration
  | .setTable service table source => failureOf (setTable service table source) administration
  | .submit submission => failureOf (submit submission) administration
  | .completeReview id verifier approved reason replacement =>
      failureOf (completeReview id verifier approved reason replacement) administration
  | .object id reason => failureOf (object id reason) administration
  | .determineObjection id update => failureOf (determineObjection id update) administration
  | .determineAdmissibility id admissible =>
      failureOf (determineAdmissibility id admissible) administration
  | .determineAppeal id update => failureOf (determineAppeal id update) administration
  | .fileClaim filing => failureOf (fileClaim filing) administration
  | .approveClaim id verifier value => failureOf (approveClaim id verifier value) administration
  | .rejectClaim id verifier reason => failureOf (rejectClaim id verifier reason) administration
  | .linkClaim id case => failureOf (linkClaim id case) administration
  | .addEvidence id evidence => failureOf (addEvidence id evidence) administration
  | .handle _ => none

/-- Every claim with a case has one that is there. -/
def Linked (administration : Administration) : Prop :=
  ∀ id claim case, Association.get? id administration.claims.claims = some claim →
    claim.linkedCase = some case → administration.cases.Stores case

/-- A procedure that fails changes nothing but what evaluations share. -/
def Atomic (procedure : Procedure α) (administration : Administration) : Prop :=
  ∀ error, (perform procedure administration).1 = .error error →
    ∃ shared, (perform procedure administration).2 = { administration with shared }

/-- A procedure does not fail. -/
def Succeeds (procedure : Procedure α) (administration : Administration) : Prop :=
  ∃ value, (perform procedure administration).1 = .ok value

theorem Succeeds.atomic {procedure : Procedure α} {administration : Administration}
    (succeeds : Succeeds procedure administration) : Atomic procedure administration := by
  intro error failed
  obtain ⟨value, succeeded⟩ := succeeds
  rw [failed] at succeeded
  cases succeeded

theorem Succeeds.bind {first : Procedure α} {next : α → Procedure β}
    {administration between : Administration} {value : α}
    (performed : perform first administration = (.ok value, between))
    (continues : Succeeds (next value) between) : Succeeds (first >>= next) administration := by
  unfold Succeeds
  rw [perform_bind, performed]
  exact continues

/-- Once an atomic procedure has succeeded nothing may fail. -/
theorem Atomic.bind {first : Procedure α} {next : α → Procedure β} {administration : Administration}
    (atomic : Atomic first administration)
    (continues : ∀ value between, perform first administration = (.ok value, between) →
      Succeeds (next value) between) : Atomic (first >>= next) administration := by
  cases performed : perform first administration with
  | mk result between =>
      cases result with
      | error error =>
          intro _ _
          obtain ⟨shared, same⟩ := atomic error (by rw [performed])
          rw [performed] at same
          rw [perform_bind, performed]
          exact ⟨shared, same⟩
      | ok value => exact (Succeeds.bind performed (continues value between performed)).atomic

theorem atomic_onCases (step : CaseStore → Except CaseError (α × CaseStore))
    (administration : Administration) : Atomic (onCases step) administration := by
  intro error failed
  rw [perform_onCases] at failed ⊢
  cases stepped : step administration.cases with
  | error cause => exact ⟨administration.shared, rfl⟩
  | ok pair =>
      rw [stepped] at failed
      cases failed

theorem atomic_onClaims (step : ClaimStore → Except CaseError (α × ClaimStore))
    (administration : Administration) : Atomic (onClaims step) administration := by
  intro error failed
  rw [perform_onClaims] at failed ⊢
  cases stepped : step administration.claims with
  | error cause => exact ⟨administration.shared, rfl⟩
  | ok pair =>
      rw [stepped] at failed
      cases failed

theorem atomic_evaluate (request : Request) (administration : Administration) :
    Atomic (evaluate request) administration := by
  intro error _
  rw [perform_evaluate]
  exact ⟨_, rfl⟩

theorem atomic_setTable (service table : String) (source : Source)
    (administration : Administration) : Atomic (setTable service table source) administration := by
  intro error failed
  rw [setTable, perform_bind, perform_get] at failed ⊢
  dsimp only at failed ⊢
  cases replaced : administration.registry.setTable service table source with
  | error cause => exact ⟨administration.shared, rfl⟩
  | ok registry =>
      rw [replaced] at failed
      cases failed

/-- A submission fails in its evaluation only. -/
theorem atomic_submit (submission : Submission) {administration : Administration}
    (numbered : administration.cases.Numbered) : Atomic (submit submission) administration := by
  intro error failed
  cases answer : administration.registry.evaluate (some administration.claims.lookup)
      (submissionRequest submission) administration.shared with
  | mk result shared =>
      cases result with
      | error cause =>
          rw [perform_submit_error answer]
          exact ⟨shared, rfl⟩
      | ok outcome =>
          obtain ⟨_, _, _, _, _, _, performed⟩ := perform_submit_ok numbered answer
          rw [performed] at failed
          cases failed

theorem succeeds_attachClaim {administration : Administration} {id : CaseId}
    (stored : administration.cases.Stores id) (claim : Claim) :
    ∃ isNew cases, perform (attachClaim id claim) administration =
      (.ok isNew, { administration with cases }) ∧ cases.Stores id := by
  obtain ⟨isNew, cases, attached, still⟩ := CaseStore.attach_stored stored claim
  rw [attachClaim, perform_onCases, attached]
  exact ⟨isNew, cases, rfl, still⟩

theorem succeeds_recordReview {administration : Administration} {id : CaseId}
    (stored : administration.cases.Stores id) (claim : Claim) :
    Succeeds (recordReview id claim) administration := by
  obtain ⟨cases, recorded⟩ := CaseStore.recordReview_stored stored claim
  unfold Succeeds
  rw [recordReview, perform_onCases, recorded]
  exact ⟨(), rfl⟩

/-- The review of a claim is shared with its case, which is there if the claim has one. -/
theorem succeeds_shareReview {administration : Administration} {claim : Claim}
    (stored : ∀ id, claim.linkedCase = some id → administration.cases.Stores id) :
    Succeeds (shareReview claim) administration := by
  unfold shareReview
  split
  · rename_i id linked
    exact succeeds_recordReview (stored id linked) claim
  · exact ⟨(), rfl⟩

theorem succeeds_attachFiled {administration : Administration} {claim : Claim}
    (stored : ∀ id, claim.linkedCase = some id → administration.cases.Stores id) :
    Succeeds (attachFiled claim) administration := by
  unfold attachFiled
  split
  · rename_i id linked
    obtain ⟨isNew, cases, attached, still⟩ := succeeds_attachClaim (stored id linked) claim
    exact .bind attached (succeeds_recordReview still claim)
  · exact ⟨(), rfl⟩

/-- The look-up of a case changes nothing, and the rest may rely on the case. -/
theorem atomic_caseOf_bind {id : CaseId} {next : Case → Procedure β}
    {administration : Administration}
    (continues : administration.cases.Stores id → ∀ case, Atomic (next case) administration) :
    Atomic (caseOf id >>= next) administration := by
  intro error failed
  rw [perform_bind, perform_caseOf] at failed ⊢
  cases found : administration.cases.case id with
  | error cause => exact ⟨administration.shared, rfl⟩
  | ok case =>
      rw [found] at failed
      exact continues ⟨case, CaseStore.case_eq_ok.mp found⟩ case error failed

theorem submit_linkedCase (store : ClaimStore) (filing : ClaimFiling) :
    (store.submit filing).1.linkedCase = filing.linkedCase := by
  unfold ClaimStore.submit
  dsimp only
  split <;> rfl

theorem Succeeds.returning {procedure : Procedure α} {administration : Administration}
    (succeeds : Succeeds procedure administration) (result : β) :
    Succeeds (procedure >>= fun _ => pure result) administration := by
  obtain ⟨value, succeeded⟩ := succeeds
  cases performed : perform procedure administration with
  | mk answer between =>
      rw [performed] at succeeded
      obtain rfl : answer = .ok value := succeeded
      exact .bind performed ⟨result, rfl⟩

/-- A step on a claim is atomic when what is done with its case afterwards succeeds. -/
theorem atomic_onClaims_bind {step : ClaimStore → Except CaseError (Claim × ClaimStore)}
    {finish : Claim → Procedure α} {administration : Administration}
    (finishes : ∀ claim claims, step administration.claims = .ok (claim, claims) →
      Succeeds (finish claim) { administration with claims }) :
    Atomic (do
      let claim ← onClaims step
      let _ ← finish claim
      return claim) administration := by
  apply (atomic_onClaims step administration).bind
  intro claim between performed
  rw [perform_onClaims] at performed
  cases stepped : step administration.claims with
  | error cause =>
      rw [stepped] at performed
      cases performed
  | ok pair =>
      rw [stepped] at performed
      cases performed
      exact (finishes pair.1 pair.2 stepped).returning pair.1

/-- A filing fails only if its case is not there. -/
theorem atomic_fileClaim (filing : ClaimFiling) (administration : Administration) :
    Atomic (fileClaim filing) administration := by
  have filed (stored : ∀ id, filing.linkedCase = some id → administration.cases.Stores id) :
      Atomic (do
        let claim ← onClaims fun claims => .ok (claims.submit filing)
        attachFiled claim
        return claim) administration := by
    apply atomic_onClaims_bind
    intro claim claims submitted
    have isFiled : claim = (administration.claims.submit filing).1 :=
      (congrArg Prod.fst (Except.ok.inj submitted)).symm
    apply succeeds_attachFiled
    rw [isFiled, submit_linkedCase]
    exact stored
  unfold fileClaim
  cases linked : filing.linkedCase with
  | none => exact filed fun id names => by rw [linked] at names; cases names
  | some id =>
      apply atomic_caseOf_bind
      intro stored _
      apply filed
      intro named names
      rw [linked] at names
      cases names
      exact stored

/-- The review of a claim fails only if the claim is not there. -/
theorem atomic_review {id : ClaimId} {update : Claim → Except CaseError Claim}
    {administration : Administration} (linked : administration.Linked)
    (sameLink : ∀ before after, update before = .ok after → after.linkedCase = before.linkedCase) :
    Atomic (do
      let claim ← onClaims (ClaimStore.change id update)
      shareReview claim
      return claim) administration := by
  apply atomic_onClaims_bind
  intro claim claims changed
  obtain ⟨before, found, updated, rfl⟩ := ClaimStore.Filed.change_ok changed
  apply succeeds_shareReview
  rw [sameLink before claim updated]
  exact fun case => linked id before case found

theorem atomic_linkClaim (id : ClaimId) (case : CaseId) (administration : Administration) :
    Atomic (linkClaim id case) administration := by
  apply atomic_caseOf_bind
  intro stored _
  apply atomic_onClaims_bind
  intro claim claims linked
  have stillStored : ({ administration with claims } : Administration).cases.Stores case := stored
  obtain ⟨isNew, cases, attached, _⟩ := succeeds_attachClaim stillStored claim
  exact ⟨isNew, by rw [attached]⟩

section Linked

variable {before after : Administration}

/-- Claims stay linked to cases that are there while cases stay. -/
theorem Linked.of_sameClaims (linked : before.Linked) (sameClaims : after.claims = before.claims)
    (stay : ∀ id, before.cases.Stores id → after.cases.Stores id) : after.Linked := by
  intro id claim case found names
  rw [sameClaims] at found
  exact stay case (linked id claim case found names)

/-- A claim that is stored anew is linked to a case that is there. -/
theorem Linked.set (linked : before.Linked) {claims : ClaimStore} {id : ClaimId} {claim : Claim}
    (isSet : claims.claims = Association.set id claim before.claims.claims)
    (stored : ∀ case, claim.linkedCase = some case → before.cases.Stores case) :
    ({ before with claims } : Administration).Linked := by
  intro wanted other case found names
  rw [show ({ before with claims } : Administration).claims.claims = _ from isSet,
    Association.get?_set] at found
  split at found
  · cases found
    exact stored case names
  · exact linked wanted other case found names

theorem QuietEffect.linked (effect : QuietEffect before after) (numbered : before.cases.Numbered)
    (linked : before.Linked) : after.Linked := by
  have stay (id : CaseId) : before.cases.Stores id → after.cases.Stores id :=
    (QuietEffects.stores (.single effect) numbered id).mpr
  cases effect with
  | evaluate request => exact linked
  | count processed failed => exact linked
  | determine determination changed => exact linked.of_sameClaims rfl stay
  | attach attached => exact linked.of_sameClaims rfl stay
  | recordReview recorded => exact linked.of_sameClaims rfl stay
  | fileClaim stored =>
      rename_i filing
      let claim := (before.claims.submit filing).1
      have isSet : (before.claims.submit filing).2.claims =
          Association.set claim.id claim before.claims.claims := rfl
      apply linked.set isSet
      rw [submit_linkedCase]
      exact stored
  | changeClaim sameLink changed =>
      rename_i id update claim claims
      obtain ⟨old, found, updated, rfl⟩ := ClaimStore.Filed.change_ok changed
      apply linked.set rfl
      rw [sameLink old claim updated]
      exact fun case => linked id old case found
  | linkClaim stored isLinked =>
      rename_i id case claim claims
      obtain ⟨old, found, _, isNew, rfl⟩ := ClaimStore.Filed.link_ok isLinked
      apply linked.set rfl
      intro named names
      rw [isNew] at names
      cases names
      exact stored

theorem QuietEffects.linked (effects : QuietEffects before after)
    (numbered : before.cases.Numbered) (linked : before.Linked) : after.Linked := by
  induction effects with
  | refl => exact linked
  | tail earlier effect inductionHypothesis =>
      exact effect.linked ((QuietEffects.steps earlier).numbered numbered) inductionHypothesis

theorem Effect.linked {command : Command} (effect : Effect command before after)
    (numbered : before.cases.Numbered) (linked : before.Linked) : after.Linked := by
  have stay (id : CaseId) : before.cases.Stores id → after.cases.Stores id := effect.stores numbered
  cases effect with
  | quiet effects => exact QuietEffects.linked effects numbered linked
  | setTable replaced => exact linked
  | submit answered isPlaced isSettled => exact linked.of_sameClaims rfl stay
  | completeReview decided => exact linked.of_sameClaims rfl stay
  | object objected => exact linked.of_sameClaims rfl stay

theorem Reachable.linked {administration : Administration} (reachable : Reachable administration) :
    administration.Linked :=
  reachable.invariant (fun _ _ _ _ _ _ _ found => nomatch found) Effect.linked

end Linked

/-- A command that fails changes neither claims nor cases, and nothing else of the administration but
what evaluations share. -/
theorem after_of_failure {administration : Administration} (reachable : Reachable administration)
    {command : Command} {error : CaseError} (failed : administration.failure? command = some error) :
    ∃ shared, administration.after command = { administration with shared } := by
  have result {α : Type} {procedure : Procedure α} (atomic : Atomic procedure administration)
      (fails : failureOf procedure administration = some error) :
      ∃ shared, (perform procedure administration).2 = { administration with shared } := by
    unfold failureOf at fails
    split at fails
    · cases fails
    · rename_i cause performed
      exact atomic cause performed
  cases command with
  | evaluate request => exact result (atomic_evaluate request administration) failed
  | setTable service table source =>
      exact result (atomic_setTable service table source administration) failed
  | submit submission => exact result (atomic_submit submission reachable.numbered) failed
  | completeReview id verifier approved reason replacement =>
      exact result (atomic_onCases _ administration) failed
  | object id reason => exact result (atomic_onCases _ administration) failed
  | determineObjection id update => exact result (atomic_onCases _ administration) failed
  | determineAdmissibility id admissible => exact result (atomic_onCases _ administration) failed
  | determineAppeal id update => exact result (atomic_onCases _ administration) failed
  | fileClaim filing => exact result (atomic_fileClaim filing administration) failed
  | approveClaim id verifier value =>
      exact result (atomic_review reachable.linked fun _ _ approved => by cases approved; rfl) failed
  | rejectClaim id verifier reason =>
      exact result (atomic_review reachable.linked fun _ _ rejected => by cases rejected; rfl) failed
  | linkClaim id case => exact result (atomic_linkClaim id case administration) failed
  | addEvidence id evidence => exact result (atomic_onClaims _ administration) failed
  | handle event => cases failed

/-- A claim about the income, filed with the case of the empty submission. -/
def incomeClaim : ClaimFiling :=
  ⟨emptySubmission.matter, "income", .int 100, none, "", "111", some ⟨1⟩, none, false⟩

/-- The administration of the allowance with one case and a claim that is linked to it. -/
def claimedOffice : Administration :=
  allowanceOffice.run [.submit emptySubmission, .fileClaim incomeClaim]

theorem after_of_failure_claimedOffice :
    claimedOffice.Reachable ∧
      claimedOffice.failure? (.linkClaim ⟨1⟩ ⟨1⟩) = some (.claimAlreadyLinked ⟨1⟩ ⟨1⟩) ∧
      ∃ shared, claimedOffice.after (.linkClaim ⟨1⟩ ⟨1⟩) = { claimedOffice with shared } := by
  have reachable : claimedOffice.Reachable := ⟨_, _, _, _, _, rfl⟩
  have failed : claimedOffice.failure? (.linkClaim ⟨1⟩ ⟨1⟩) =
      some (.claimAlreadyLinked ⟨1⟩ ⟨1⟩) := by
    decide +kernel
  exact ⟨reachable, failed, after_of_failure reachable failed⟩

end Administration

end Statute
