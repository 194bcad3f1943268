/-
This file proves that claims and the cases that they are linked to stay in step.
-/

import Statute.Proofs.Administration.Atomicity
import Statute.Proofs.Administration.Backlog
import Statute.Proofs.Case.Attachment
import Statute.Proofs.Claim.Queries

namespace Statute

namespace ClaimCommand

/-- The claim of a command that files, approves or rejects it. -/
def assessed? (claim : Claim) : ClaimCommand → Option Claim
  | submit _ | approve _ _ _ | reject _ _ _ => some claim
  | link _ _ | addEvidence _ _ => none

/-- The reviews that a command records with the case of its claim. -/
def reviews (claim : Claim) (command : ClaimCommand) : List Event :=
  (command.assessed? claim).elim [] Claim.reviewEvents

end ClaimCommand

namespace ClaimStore.Filed

variable {versions : List Claim} {store after : ClaimStore} {claim : Claim}

/-- Only a command that files, approves or rejects a claim gives it another status. -/
theorem answer_status (filed : store.Filed versions) {command : ClaimCommand}
    (answered : store.answer command = .ok (claim, after))
    (unassessed : command.assessed? claim = none) :
    ∃ earlier, Association.get? claim.id store.claims = some earlier ∧
      earlier.status = claim.status := by
  cases command with
  | submit filing => cases unassessed
  | approve id verifier value => cases unassessed
  | reject id verifier reason => cases unassessed
  | link id case =>
      obtain ⟨earlier, found, _, isNew, _⟩ := link_ok answered
      rw [isNew]
      exact ⟨earlier, by rw [filed.named id earlier found, found], rfl⟩
  | addEvidence id evidence =>
      obtain ⟨earlier, found, isNew, _⟩ := filed.addEvidence_ok answered
      exact ⟨earlier, found, by rw [isNew]⟩

end ClaimStore.Filed

/-- What claims and cases keep to between commands. The case of each claim lists the claim, and what
cases list is stored. -/
structure InStep (claims : ClaimStore) (cases : CaseStore) : Prop where
  filed : ∃ versions, claims.Filed versions
  attached : ∀ id claim case, Association.get? id claims.claims = some claim →
    claim.linkedCase = some case → claim.id ∈ cases.claimsOf case
  distinct : ∀ case, (cases.claimsOf case).Nodup
  known : ∀ case, ∀ id ∈ cases.claimsOf case, ∃ claim,
    Association.get? id claims.claims = some claim

namespace InStep

variable {claims answered : ClaimStore} {cases after : CaseStore}

theorem empty : InStep .empty .empty where
  filed := ⟨[], .empty⟩
  attached := fun _ _ _ found => nomatch found
  distinct := fun _ => List.nodup_nil
  known := fun _ _ member => nomatch member

theorem kept (inStep : InStep claims cases) (keeps : cases.KeepsClaims after) :
    InStep claims after where
  filed := inStep.filed
  attached := fun id claim case found linked => by
    rw [keeps.claims]
    exact inStep.attached id claim case found linked
  distinct := fun case => by
    rw [keeps.claims]
    exact inStep.distinct case
  known := fun case => by
    rw [keeps.claims]
    exact inStep.known case

/-- Claims and cases stay in step when the case of a claim hears of what a command did to it. -/
theorem heard (inStep : InStep claims cases) {command : ClaimCommand} {claim : Claim}
    {reviews : List Event} (isAnswered : claims.answer command = .ok (claim, answered))
    (hears : cases.Hears claim reviews after) : InStep answered after := by
  obtain ⟨versions, filed⟩ := inStep.filed
  have stored := filed.get?_answer isAnswered
  refine ⟨⟨_, filed.answer isAnswered⟩, fun id other case found linked => ?_,
    fun case => hears.nodup (inStep.distinct case), fun case id member => ?_⟩
  · rw [stored] at found
    split at found
    · cases found
      exact hears.mem_iff.mpr (.inr ⟨linked, rfl⟩)
    · exact hears.mem_iff.mpr (.inl (inStep.attached id other case found linked))
  · rw [stored]
    split
    · exact ⟨claim, rfl⟩
    · rename_i isOther
      rcases hears.mem_iff.mp member with listed | ⟨_, same⟩
      · exact inStep.known case id listed
      · exact absurd same isOther

/-- The case of a claim that keeps its case lists the claim. -/
theorem listed (inStep : InStep claims cases) {claim earlier : Claim}
    (found : Association.get? claim.id claims.claims = some earlier)
    (sameCase : claim.linkedCase = earlier.linkedCase) (case : CaseId)
    (linked : claim.linkedCase = some case) : claim.id ∈ cases.claimsOf case := by
  obtain ⟨versions, filed⟩ := inStep.filed
  rw [← filed.named _ _ found]
  exact inStep.attached _ _ case found (sameCase ▸ linked)

end InStep

namespace Administration

variable {α : Type} {administration : Administration} {command : ClaimCommand} {claim : Claim}

/-- What a command on claims comes to. It fails and changes nothing, or it changes a claim, of which
the case of the claim hears. -/
inductive Answers (command : ClaimCommand) (before : Administration) :
    Except CaseError Claim × Administration → Prop
  | refused (error : CaseError) : Answers command before (.error error, before)
  | done {claim : Claim} {claims : ClaimStore} {cases : CaseStore}
      (answered : before.claims.answer command = .ok (claim, claims))
      (hears : before.cases.Hears claim (command.reviews claim) cases) :
      Answers command before (.ok claim, { before with claims, cases })

/-- A procedure lets the case of a claim hear of it. -/
def LetsHear (claim : Claim) (reviews : List Event) (procedure : Procedure α)
    (administration : Administration) : Prop :=
  ∃ result cases, perform procedure administration = (.ok result, { administration with cases }) ∧
    administration.cases.Hears claim reviews cases

/-- The case of a claim hears of what was done to the claim. -/
theorem Answers.bind {finish : Claim → Procedure α}
    (finishes : ∀ claim claims, administration.claims.answer command = .ok (claim, claims) →
      LetsHear claim (command.reviews claim) (finish claim) { administration with claims }) :
    Answers command administration (perform (do
      let claim ← onClaims fun claims => claims.answer command
      let _ ← finish claim
      return claim) administration) := by
  rw [perform_bind, perform_onClaims]
  cases answered : administration.claims.answer command with
  | error error => exact .refused error
  | ok pair =>
      obtain ⟨claim, claims⟩ := pair
      obtain ⟨result, cases, finished, hears⟩ := finishes claim claims answered
      dsimp only
      rw [perform_bind, finished]
      exact .done answered hears

/-- A claim that names its case is attached to a case that was looked up. -/
theorem letsHear_attachClaim {id : CaseId} (numbered : administration.cases.Numbered)
    (linked : claim.linkedCase = some id) (stored : administration.cases.Stores id) :
    LetsHear claim [] (attachClaim id claim) administration := by
  obtain ⟨isNew, cases, attached, hears⟩ := CaseStore.attach_hears numbered linked stored
  refine ⟨isNew, cases, ?_, hears⟩
  rw [attachClaim, perform_onCases, attached]

theorem letsHear_recordReview {id : CaseId} (numbered : administration.cases.Numbered)
    (linked : claim.linkedCase = some id) (stored : administration.cases.Stores id)
    (known : claim.status = .pending → claim.id ∈ administration.cases.claimsOf id) :
    LetsHear claim claim.reviewEvents (recordReview id claim) administration := by
  obtain ⟨cases, recorded, hears⟩ := CaseStore.recordReview_hears numbered linked stored known
  refine ⟨(), cases, ?_, hears⟩
  rw [recordReview, perform_onCases, recorded]
  rfl

theorem letsHear_unlinked (unlinked : claim.linkedCase = none) :
    LetsHear claim claim.reviewEvents (pure ()) administration := by
  refine ⟨(), administration.cases, rfl, ?_⟩
  rw [Claim.reviewEvents_of_unlinked unlinked]
  exact .refl fun id linked => by rw [unlinked] at linked; cases linked

/-- A reviewed claim whose case lists it. -/
theorem letsHear_shareReview (numbered : administration.cases.Numbered)
    (known : ∀ id, claim.linkedCase = some id → claim.id ∈ administration.cases.claimsOf id) :
    LetsHear claim claim.reviewEvents (shareReview claim) administration := by
  unfold shareReview
  split
  · rename_i id linked
    have listed := known id linked
    exact letsHear_recordReview numbered linked (CaseStore.stores_of_mem_claimsOf listed)
      fun _ => listed
  · rename_i unlinked
    exact letsHear_unlinked unlinked

theorem letsHear_attachFiled (numbered : administration.cases.Numbered)
    (stored : ∀ id, claim.linkedCase = some id → administration.cases.Stores id) :
    LetsHear claim claim.reviewEvents (attachFiled claim) administration := by
  unfold attachFiled
  split
  · rename_i id linked
    obtain ⟨isNew, cases, attached, first⟩ := CaseStore.attach_hears numbered linked (stored id linked)
    -- the case lists the claim from here on, so nothing is missed if the claim is pending
    have listed : claim.id ∈ cases.claimsOf id := first.mem_iff.mpr (.inr ⟨linked, rfl⟩)
    have still : cases.Numbered := (CaseStore.Step.attach attached).numbered numbered
    obtain ⟨result, after, recorded, second⟩ :=
      @letsHear_recordReview { administration with cases } claim id still linked
        (CaseStore.stores_of_mem_claimsOf listed) fun _ => listed
    refine ⟨result, after, ?_, first.trans second⟩
    rw [perform_bind, attachClaim, perform_onCases, attached]
    exact recorded
  · rename_i unlinked
    exact letsHear_unlinked unlinked

variable (inStep : InStep administration.claims administration.cases)
  (numbered : administration.cases.Numbered)

include numbered

theorem answers_fileClaim (filing : ClaimFiling) :
    Answers (.submit filing) administration (perform (fileClaim filing) administration) := by
  have filed (stored : ∀ id, filing.linkedCase = some id → administration.cases.Stores id) :
      Answers (.submit filing) administration (perform (do
        let claim ← onClaims fun claims => .ok (claims.submit filing)
        attachFiled claim
        return claim) administration) := by
    refine Answers.bind fun claim claims submitted => letsHear_attachFiled numbered ?_
    have isFiled : claim = (administration.claims.submit filing).1 :=
      (congrArg Prod.fst (Except.ok.inj submitted)).symm
    rw [isFiled, submit_linkedCase]
    exact stored
  unfold fileClaim
  cases linked : filing.linkedCase with
  | none => exact filed fun id names => by rw [linked] at names; cases names
  | some id =>
      dsimp only
      rw [perform_bind, perform_caseOf]
      cases found : administration.cases.case id with
      | error error => exact .refused error
      | ok case =>
          apply filed
          intro named names
          rw [linked] at names
          cases names
          exact ⟨case, CaseStore.case_eq_ok.mp found⟩

theorem answers_linkClaim (id : ClaimId) (case : CaseId) :
    Answers (.link id case) administration (perform (linkClaim id case) administration) := by
  rw [linkClaim, perform_bind, perform_caseOf]
  cases found : administration.cases.case case with
  | error error => exact .refused error
  | ok there =>
      refine Answers.bind fun claim claims linked => ?_
      obtain ⟨earlier, _, _, isNew, _⟩ := ClaimStore.Filed.link_ok linked
      exact letsHear_attachClaim numbered (by rw [isNew]) ⟨there, CaseStore.case_eq_ok.mp found⟩

include inStep

theorem answers_approveClaim (id : ClaimId) (verifier : String) (value : Value) :
    Answers (.approve id verifier value) administration
      (perform (approveClaim id verifier value) administration) := by
  refine Answers.bind fun claim claims approved => letsHear_shareReview numbered ?_
  obtain ⟨versions, filed⟩ := inStep.filed
  obtain ⟨earlier, found, isNew, _⟩ := filed.approve_ok approved
  exact inStep.listed found (by rw [isNew]; rfl)

theorem answers_rejectClaim (id : ClaimId) (verifier reason : String) :
    Answers (.reject id verifier reason) administration
      (perform (rejectClaim id verifier reason) administration) := by
  refine Answers.bind fun claim claims rejected => letsHear_shareReview numbered ?_
  obtain ⟨versions, filed⟩ := inStep.filed
  obtain ⟨earlier, found, isNew, _⟩ := filed.reject_ok rejected
  exact inStep.listed found (by rw [isNew]; rfl)

omit numbered in
theorem answers_addEvidence (id : ClaimId) (evidence : String) :
    Answers (.addEvidence id evidence) administration
      (perform (addEvidence id evidence) administration) := by
  rw [addEvidence, perform_onClaims]
  cases added : administration.claims.addEvidence id evidence with
  | error error => exact .refused error
  | ok pair =>
      obtain ⟨claim, claims⟩ := pair
      obtain ⟨versions, filed⟩ := inStep.filed
      obtain ⟨earlier, found, isNew, _⟩ := filed.addEvidence_ok added
      have hears : administration.cases.Hears claim [] administration.cases :=
        .refl (inStep.listed found (by rw [isNew]))
      exact .done added hears

omit inStep

/-- The claim that a command files, approves or rejects, if it succeeds. -/
def assessed? (administration : Administration) : Command → Option Claim
  | .fileClaim filing => (perform (fileClaim filing) administration).1.toOption
  | .approveClaim id verifier value =>
      (perform (approveClaim id verifier value) administration).1.toOption
  | .rejectClaim id verifier reason =>
      (perform (rejectClaim id verifier reason) administration).1.toOption
  | _ => none

/-- What a command does about claims and cases: nothing that concerns both, or it changes a claim, of
which the case of the claim hears. -/
inductive Shares (before : Administration) : Option Claim → Administration → Prop
  | apart {after : Administration} (sameClaims : after.claims = before.claims)
      (keeps : before.cases.KeepsClaims after.cases) : Shares before none after
  | together {command : ClaimCommand} {claim : Claim} {claims : ClaimStore} {cases : CaseStore}
      (answered : before.claims.answer command = .ok (claim, claims))
      (hears : before.cases.Hears claim (command.reviews claim) cases) :
      Shares before (command.assessed? claim) { before with claims, cases }

namespace Shares

omit numbered

variable {result : Except CaseError Claim × Administration}

theorem refl (administration : Administration) : Shares administration none administration :=
  .apart rfl (.refl administration.cases)

/-- A command on claims tells by its result which claim it assessed. -/
theorem ofAnswers (assessed : Except CaseError Claim → Option Claim)
    (ofError : ∀ error, assessed (.error error) = none)
    (ofClaim : ∀ claim, assessed (.ok claim) = command.assessed? claim)
    (answers : Answers command administration result) :
    Shares administration (assessed result.1) result.2 := by
  cases answers with
  | refused error =>
      rw [ofError]
      exact .refl administration
  | done answered hears =>
      rw [ofClaim]
      exact .together answered hears

end Shares

theorem shares_amend (id : CaseId) (amendment : Amendment) :
    Shares administration none
      (perform (onCases (CaseStore.change id amendment.kind amendment.apply)) administration).2 := by
  rw [perform_onCases]
  cases amended : administration.cases.change id amendment.kind amendment.apply with
  | error error => exact .refl administration
  | ok pair => exact .apart rfl (CaseStore.amend_keepsClaims numbered amendment amended)

theorem shares_submit (submission : Submission) :
    Shares administration none (perform (submit submission) administration).2 := by
  cases answer : administration.registry.evaluate (some administration.claims.lookup)
      (submissionRequest submission) administration.shared with
  | mk result shared =>
      cases result with
      | error cause =>
          rw [perform_submit_error answer]
          exact .apart rfl (.refl administration.cases)
      | ok outcome =>
          obtain ⟨id, placed, case, settled, isPlaced, isSettled, performed⟩ :=
            perform_submit_ok numbered answer
          rw [performed]
          exact .apart rfl (CaseStore.submit_keepsClaims numbered isPlaced isSettled)

theorem shares_handle (event : Event) :
    Shares administration none (handle event administration) := by
  obtain ⟨determinations, determines, _⟩ := applyRules_determines numbered event
  obtain ⟨processed, failed, isHandled, _⟩ := handle_eq event administration
  obtain ⟨shared, others⟩ := determines.others
  rw [isHandled]
  exact .apart (by rw [others]) (.ofDetermines determines.cases)

omit numbered in
theorem shares_setTable (service table : String) (source : Source) :
    Shares administration none (perform (setTable service table source) administration).2 := by
  rw [setTable, perform_bind, perform_get]
  dsimp only
  cases administration.registry.setTable service table source with
  | error cause => exact .refl administration
  | ok registry => exact .apart rfl (.refl administration.cases)

include inStep

/-- What any command does about claims and cases. -/
theorem after_shares (command : Command) :
    Shares administration (administration.assessed? command) (administration.after command) := by
  cases command with
  | evaluate request =>
      rw [after, perform_evaluate]
      exact .apart rfl (.refl administration.cases)
  | setTable service table source => exact shares_setTable service table source
  | submit submission => exact shares_submit numbered submission
  | completeReview id verifier approved reason replacement =>
      exact shares_amend numbered id (.decide verifier approved reason replacement)
  | object id reason => exact shares_amend numbered id (.object reason)
  | determineObjection id update => exact shares_amend numbered id (.determineObjection update)
  | determineAdmissibility id admissible =>
      exact shares_amend numbered id (.determineAdmissibility admissible)
  | determineAppeal id update => exact shares_amend numbered id (.determineAppeal update)
  | fileClaim filing =>
      exact .ofAnswers Except.toOption (fun _ => rfl) (fun _ => rfl)
        (answers_fileClaim numbered filing)
  | approveClaim id verifier value =>
      exact .ofAnswers Except.toOption (fun _ => rfl) (fun _ => rfl)
        (answers_approveClaim inStep numbered id verifier value)
  | rejectClaim id verifier reason =>
      exact .ofAnswers Except.toOption (fun _ => rfl) (fun _ => rfl)
        (answers_rejectClaim inStep numbered id verifier reason)
  | linkClaim id case =>
      exact .ofAnswers (fun _ => none) (fun _ => rfl) (fun _ => rfl)
        (answers_linkClaim numbered id case)
  | addEvidence id evidence =>
      exact .ofAnswers (fun _ => none) (fun _ => rfl) (fun _ => rfl)
        (answers_addEvidence inStep id evidence)
  | handle event => exact shares_handle numbered event

omit numbered in
theorem inStep_of_shares {assessed : Option Claim} {after : Administration}
    (shares : Shares administration assessed after) : InStep after.claims after.cases := by
  cases shares with
  | apart sameClaims keeps =>
      rw [sameClaims]
      exact inStep.kept keeps
  | together answered hears => exact inStep.heard answered hears

omit inStep numbered

/-- Claims and cases are in step after any row of commands. -/
theorem inStep_run {start : Administration} (numbered : start.cases.Numbered)
    (inStep : InStep start.claims start.cases) (commands : List Command) :
    InStep (start.run commands).claims (start.run commands).cases := by
  induction commands generalizing start with
  | nil => exact inStep
  | cons command rest inductionHypothesis =>
      exact inductionHypothesis ((after_steps start command numbered).numbered numbered)
        (inStep_of_shares inStep (after_shares inStep numbered command))

/-- The claim that a command assesses is stored, and every claim with a new status is assessed. -/
theorem Shares.stored {assessed : Option Claim} {after : Administration}
    (shares : Shares administration assessed after)
    (inStep : InStep administration.claims administration.cases) :
    (∀ claim, assessed = some claim → claim ∈ after.claims.stored) ∧
    ∀ claim ∈ after.claims.stored,
      (∀ earlier ∈ administration.claims.stored,
        earlier.id = claim.id → earlier.status ≠ claim.status) → assessed = some claim := by
  obtain ⟨versions, filed⟩ := inStep.filed
  cases shares with
  | apart sameClaims keeps =>
      refine ⟨fun claim isAssessed => ?_, fun claim member isNew => ?_⟩
      · cases isAssessed
      · rw [sameClaims] at member
        exact absurd rfl (isNew claim member rfl)
  | together answered hears =>
      rename_i command claim claims cases
      have filedAfter := filed.answer answered
      have stored := filed.get?_answer answered
      refine ⟨fun assessed isAssessed => ?_, fun other member isNew => ?_⟩
      · have same : assessed = claim := by
          cases command <;> cases isAssessed <;> rfl
        rw [same]
        exact filedAfter.mem_stored.mpr ((stored _).trans (if_pos rfl))
      · have there := filedAfter.mem_stored.mp member
        rw [stored] at there
        split at there
        · rename_i same
          obtain rfl := Option.some.inj there
          cases assessed : command.assessed? claim with
          | some named => cases command <;> cases assessed <;> rfl
          | none =>
              -- links and evidence keep the status, so the status is not new
              obtain ⟨earlier, found, sameStatus⟩ := filed.answer_status answered assessed
              have named := filed.named _ _ found
              have isStored : earlier ∈ administration.claims.stored :=
                filed.mem_stored.mpr (named ▸ found)
              exact absurd sameStatus (isNew earlier isStored named)
        · exact absurd rfl (isNew other (filed.mem_stored.mpr there) rfl)

/-- The reviews that a command records are those of the claim that it assesses. -/
theorem Shares.reviews {assessed : Option Claim} {after : Administration}
    (shares : Shares administration assessed after) :
    (addedEvents administration after).filter Event.isReview =
      assessed.elim [] Claim.reviewEvents := by
  have recorded : administration.cases.Reviews (assessed.elim [] Claim.reviewEvents)
      after.cases := by
    cases shares with
    | apart sameClaims keeps => exact keeps.reviews
    | together answered hears => exact hears.reviews
  obtain ⟨added, isAfter, isReviews⟩ := recorded
  rw [addedEvents, isAfter, List.drop_left, isReviews]

/-- However an administration is used, the case that a claim is linked to is there and lists the claim
once, and the claims of the case include it. Every claim that a case lists is stored, and is listed
once. Only a command that files, approves or rejects a claim gives it a new status. If the claim is
linked and no longer pending, the command reports this to the claim's case with one event. No other
reviews are recorded. -/
theorem claims_in_step (catalog : Catalog) (configuration : Configuration) (clock : Nat → Instant)
    (sampler : Nat → Double) (commands : List Command) :
    let administration := (ofCatalog catalog configuration clock sampler).run commands
    (∀ claim ∈ administration.claims.stored, ∀ id, claim.linkedCase = some id →
      claim ∈ administration.claims.ofCase id .all ∧
      ∃ case, Association.get? id administration.cases.cases = some case ∧
        case.claimIds.count claim.id = 1) ∧
    (∀ id case, Association.get? id administration.cases.cases = some case →
      ∀ listed ∈ case.claimIds, case.claimIds.count listed = 1 ∧
        ∃ claim ∈ administration.claims.stored, claim.id = listed) ∧
    ∀ command,
      let after := administration.after command
      let reviews := (addedEvents administration after).filter Event.isReview
      (∀ claim ∈ after.claims.stored,
        (∀ earlier ∈ administration.claims.stored,
          earlier.id = claim.id → earlier.status ≠ claim.status) →
        administration.assessed? command = some claim) ∧
      (∀ claim, administration.assessed? command = some claim →
        claim ∈ after.claims.stored ∧
        ∀ id, claim.linkedCase = some id → claim.status ≠ .pending →
          ∃ event, reviews = [event] ∧ event.case = id ∧ event.Reports claim) ∧
      ∀ event ∈ reviews, ∃ claim, administration.assessed? command = some claim ∧
        event.Reports claim := by
  intro administration
  have numbered : administration.cases.Numbered :=
    (run_steps _ commands CaseStore.empty_numbered).numbered CaseStore.empty_numbered
  have inStep : InStep administration.claims administration.cases :=
    inStep_run CaseStore.empty_numbered .empty commands
  clear_value administration
  obtain ⟨versions, filed⟩ := inStep.filed
  refine ⟨fun claim member id linked => ⟨?_, ?_⟩, fun id case found listed member => ?_,
    fun command => ?_⟩
  · rw [(filed.ofCase id .all).mem_iff, List.mem_filter, ClaimStore.admits_all, Bool.and_true]
    exact ⟨member, filed.everHad_of_has claim member (decide_eq_true linked)⟩
  · have isListed := inStep.attached _ _ id (filed.mem_stored.mp member) linked
    obtain ⟨case, found⟩ := CaseStore.stores_of_mem_claimsOf isListed
    have distinct := inStep.distinct id
    rw [CaseStore.claimsOf_of_found found] at isListed distinct
    exact ⟨case, found, List.count_eq_one_of_mem distinct isListed⟩
  · have distinct := inStep.distinct id
    have known := inStep.known id listed
    rw [CaseStore.claimsOf_of_found found] at distinct known
    obtain ⟨claim, stored⟩ := known member
    have named := filed.named _ _ stored
    exact ⟨List.count_eq_one_of_mem distinct member, claim,
      filed.mem_stored.mpr (named ▸ stored), named⟩
  · have shares := after_shares inStep numbered command
    obtain ⟨isStored, isNew⟩ := shares.stored inStep
    refine ⟨isNew, fun claim assessed => ⟨isStored claim assessed, fun id linked reviewed => ?_⟩,
      fun event member => ?_⟩
    · obtain ⟨event, isEvent, isCase⟩ := Claim.reviewEvents_of_reviewed linked reviewed
      refine ⟨event, ?_, isCase, Claim.reports_of_mem (isEvent ▸ List.mem_singleton_self event)⟩
      rw [shares.reviews, assessed]
      exact isEvent
    · rw [shares.reviews] at member
      cases assessed : administration.assessed? command with
      | none => rw [assessed] at member; cases member
      | some claim =>
          rw [assessed] at member
          exact ⟨claim, rfl, Claim.reports_of_mem member⟩

/-- An approval of a linked claim is reported to its case. -/
example :
    (addedEvents claimedOffice (claimedOffice.after (.approveClaim ⟨1⟩ "V" (.int 100)))).map
      (fun event => (event.case, event.kind)) = [(⟨1⟩, .claimApproved)] := by
  decide +kernel

end Administration

end Statute
