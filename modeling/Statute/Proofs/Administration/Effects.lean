/-
This file lists what the work of an administration can change.
-/

import Statute.Administration.Claims
import Statute.Administration.Trigger
import Statute.Proofs.Case.Log

namespace Statute

/-- Rules determine what is noted about objection and appeal, while people decide and object. -/
def Amendment.IsDetermination : Amendment → Prop
  | .decide _ _ _ _ => False
  | .object _ => False
  | _ => True

namespace Administration

variable {α β : Type}

theorem perform_bind (first : Procedure α) (next : α → Procedure β)
    (administration : Administration) :
    perform (first >>= next) administration =
      match perform first administration with
      | (.ok value, between) => perform (next value) between
      | (.error error, between) => (.error error, between) := by
  simp only [perform, ExceptT.run_bind, StateT.run_bind]
  cases (StateT.run (ExceptT.run first) administration) with
  | mk result between => cases result <;> rfl

theorem perform_get (administration : Administration) :
    perform (get : Procedure Administration) administration = (.ok administration, administration) :=
  rfl

theorem perform_set (next administration : Administration) :
    perform (set next : Procedure Unit) administration = (.ok (), next) :=
  rfl

/-- An evaluation only changes what all evaluations share. -/
theorem perform_evaluate (request : Request) (administration : Administration) :
    perform (evaluate request) administration =
      let answer := administration.registry.evaluate (some administration.claims.lookup) request
        administration.shared
      (answer.1.mapError .evaluation, { administration with shared := answer.2 }) := by
  simp only [evaluate, perform_bind, perform_get, perform_set]
  cases (administration.registry.evaluate (some administration.claims.lookup) request
    administration.shared).1 <;> rfl

theorem perform_evaluate_ok {request : Request} {administration : Administration}
    {outcome : Outcome} {shared : Shared}
    (answered : administration.registry.evaluate (some administration.claims.lookup) request
      administration.shared = (.ok outcome, shared)) :
    perform (evaluate request) administration = (.ok outcome, { administration with shared }) := by
  rw [perform_evaluate, answered]
  rfl

theorem perform_onCases (step : CaseStore → Except CaseError (α × CaseStore))
    (administration : Administration) :
    perform (onCases step) administration =
      match step administration.cases with
      | .ok (result, cases) => (.ok result, { administration with cases })
      | .error error => (.error error, administration) := by
  simp only [onCases, perform_bind, perform_get]
  cases step administration.cases <;> rfl

theorem perform_onClaims (step : ClaimStore → Except CaseError (α × ClaimStore))
    (administration : Administration) :
    perform (onClaims step) administration =
      match step administration.claims with
      | .ok (result, claims) => (.ok result, { administration with claims })
      | .error error => (.error error, administration) := by
  simp only [onClaims, perform_bind, perform_get]
  cases step administration.claims <;> rfl

theorem perform_drawSample (administration : Administration) :
    perform drawSample administration =
      (.ok ((administration.sampler administration.drawn).isLT
        administration.configuration.sampleRate),
        { administration with drawn := administration.drawn + 1 }) :=
  rfl

/-- To look a case up changes nothing. -/
theorem perform_caseOf (id : CaseId) (administration : Administration) :
    perform (caseOf id) administration = (administration.cases.case id, administration) := by
  rw [caseOf, perform_onCases]
  cases administration.cases.case id <;> rfl

/-- A change that settles no submission, takes no decision and makes no objection. -/
inductive QuietEffect : Administration → Administration → Prop
  | evaluate (administration : Administration) (request : Request) :
      QuietEffect administration { administration with
        shared := (administration.registry.evaluate (some administration.claims.lookup) request
          administration.shared).2 }
  | count (administration : Administration) (processed failed : Nat) :
      QuietEffect administration { administration with processed, failed }
  | determine {administration : Administration} {id : CaseId} {amendment : Amendment} {case : Case}
      {cases : CaseStore} (determination : amendment.IsDetermination)
      (changed : administration.cases.change id amendment.kind amendment.apply =
        .ok (case, cases)) :
      QuietEffect administration { administration with cases }
  | attach {administration : Administration} {id : CaseId} {claim : Claim} {isNew : Bool}
      {cases : CaseStore} (attached : administration.cases.attach id claim = .ok (isNew, cases)) :
      QuietEffect administration { administration with cases }
  | recordReview {administration : Administration} {id : CaseId} {claim : Claim}
      {cases : CaseStore} (recorded : administration.cases.recordReview id claim = .ok cases) :
      QuietEffect administration { administration with cases }
  | fileClaim {administration : Administration} {filing : ClaimFiling}
      (stored : ∀ id, filing.linkedCase = some id → administration.cases.Stores id) :
      QuietEffect administration { administration with
        claims := (administration.claims.submit filing).2 }
  | changeClaim {administration : Administration} {id : ClaimId}
      {update : Claim → Except CaseError Claim} {claim : Claim} {claims : ClaimStore}
      (sameLink : ∀ before after, update before = .ok after → after.linkedCase = before.linkedCase)
      (changed : administration.claims.change id update = .ok (claim, claims)) :
      QuietEffect administration { administration with claims }
  | linkClaim {administration : Administration} {id : ClaimId} {case : CaseId} {claim : Claim}
      {claims : ClaimStore} (stored : administration.cases.Stores case)
      (linked : administration.claims.link id case = .ok (claim, claims)) :
      QuietEffect administration { administration with claims }

/-- Any number of quiet changes. -/
abbrev QuietEffects : Administration → Administration → Prop :=
  Relation.ReflTransGen QuietEffect

/-- A procedure has only quiet effects, whether it succeeds or fails. -/
def Quiet (procedure : Procedure α) : Prop :=
  ∀ administration, QuietEffects administration (perform procedure administration).2

namespace Quiet

theorem pure (value : α) : Quiet (pure value) :=
  fun _ => .refl

theorem throw (error : CaseError) : Quiet (throw error : Procedure α) :=
  fun _ => .refl

theorem get : Quiet (get : Procedure Administration) :=
  fun _ => .refl

theorem bind {first : Procedure α} {next : α → Procedure β} (quiet : Quiet first)
    (continues : ∀ value, Quiet (next value)) : Quiet (first >>= next) := by
  intro administration
  have begun := quiet administration
  rw [perform_bind]
  cases performed : perform first administration with
  | mk result between =>
      rw [performed] at begun
      cases result with
      | error error => exact begun
      | ok value => exact begun.trans (continues value between)

theorem evaluate (request : Request) : Quiet (evaluate request) := by
  intro administration
  rw [perform_evaluate]
  exact .single (.evaluate administration request)

/-- A step on the cases is quiet when the change that it makes is. -/
theorem onCases {step : CaseStore → Except CaseError (α × CaseStore)}
    (quiet : ∀ (administration : Administration) result cases,
      step administration.cases = .ok (result, cases) →
        QuietEffect administration { administration with cases }) :
    Quiet (onCases step) := by
  intro administration
  rw [perform_onCases]
  cases stepped : step administration.cases with
  | error error => exact .refl
  | ok pair => exact .single (quiet administration pair.1 pair.2 stepped)

theorem onClaims {step : ClaimStore → Except CaseError (α × ClaimStore)}
    (quiet : ∀ (administration : Administration) result claims,
      step administration.claims = .ok (result, claims) →
        QuietEffect administration { administration with claims }) :
    Quiet (onClaims step) := by
  intro administration
  rw [perform_onClaims]
  cases stepped : step administration.claims with
  | error error => exact .refl
  | ok pair => exact .single (quiet administration pair.1 pair.2 stepped)

theorem determination (id : CaseId) (amendment : Amendment)
    (isDetermination : amendment.IsDetermination) :
    Quiet (Administration.onCases (CaseStore.change id amendment.kind amendment.apply)) :=
  onCases fun _ _ _ changed => .determine isDetermination changed

theorem determineObjection (id : CaseId) (update : ObjectionStatus) :
    Quiet (determineObjection id update) :=
  determination id (.determineObjection update) trivial

theorem determineAdmissibility (id : CaseId) (admissible : Option Bool) :
    Quiet (determineAdmissibility id admissible) :=
  determination id (.determineAdmissibility admissible) trivial

theorem determineAppeal (id : CaseId) (update : AppealStatus) :
    Quiet (determineAppeal id update) :=
  determination id (.determineAppeal update) trivial

theorem caseOf (id : CaseId) : Quiet (caseOf id) := by
  intro administration
  rw [perform_caseOf]

theorem attachClaim (id : CaseId) (claim : Claim) : Quiet (attachClaim id claim) :=
  onCases fun _ _ _ attached => .attach attached

theorem recordReview (id : CaseId) (claim : Claim) : Quiet (recordReview id claim) := by
  apply onCases
  intro administration result cases mapped
  cases recorded : administration.cases.recordReview id claim with
  | error error => rw [recorded] at mapped; cases mapped
  | ok after =>
      rw [recorded] at mapped
      cases mapped
      exact .recordReview recorded

theorem shareReview (claim : Claim) : Quiet (shareReview claim) := by
  unfold Administration.shareReview
  split
  · exact recordReview _ claim
  · exact pure ()

theorem attachFiled (claim : Claim) : Quiet (attachFiled claim) := by
  unfold Administration.attachFiled
  split
  · exact (attachClaim _ claim).bind fun _ => recordReview _ claim
  · exact pure ()

/-- A claim is filed in a case that was looked up, and attached to it. -/
theorem fileClaim (filing : ClaimFiling) : Quiet (fileClaim filing) := by
  intro administration
  have filed (stored : ∀ id, filing.linkedCase = some id → administration.cases.Stores id) :
      QuietEffects administration (perform (do
        let claim ← Administration.onClaims fun claims => .ok (claims.submit filing)
        Administration.attachFiled claim
        return claim) administration).2 := by
    rw [perform_bind, perform_onClaims]
    exact .head (.fileClaim stored) ((attachFiled _).bind (fun _ => pure _) _)
  unfold Administration.fileClaim
  cases linked : filing.linkedCase with
  | none => exact filed fun id names => by rw [linked] at names; cases names
  | some id =>
      dsimp only
      rw [perform_bind, perform_caseOf]
      cases found : administration.cases.case id with
      | error error => exact .refl
      | ok case =>
          apply filed
          intro named names
          rw [linked] at names
          cases names
          exact ⟨case, CaseStore.case_eq_ok.mp found⟩

theorem approveClaim (id : ClaimId) (verifier : String) (value : Value) :
    Quiet (approveClaim id verifier value) := by
  have approved : Quiet (Administration.onClaims (ClaimStore.approve id verifier value)) :=
    onClaims fun _ _ _ changed => .changeClaim (fun _ _ isApproved => by cases isApproved; rfl) changed
  exact approved.bind fun claim => (shareReview claim).bind fun _ => pure claim

theorem rejectClaim (id : ClaimId) (verifier reason : String) :
    Quiet (rejectClaim id verifier reason) := by
  have rejected : Quiet (Administration.onClaims (ClaimStore.reject id verifier reason)) :=
    onClaims fun _ _ _ changed => .changeClaim (fun _ _ isRejected => by cases isRejected; rfl) changed
  exact rejected.bind fun claim => (shareReview claim).bind fun _ => pure claim

theorem addEvidence (id : ClaimId) (evidence : String) : Quiet (addEvidence id evidence) := by
  apply onClaims
  intro administration claim claims changed
  apply QuietEffect.changeClaim _ changed
  intro before after added
  unfold Claim.addEvidence at added
  split at added
  · cases added
    rfl
  · cases added

/-- A claim is linked to a case that was looked up, and attached to it. -/
theorem linkClaim (id : ClaimId) (case : CaseId) : Quiet (linkClaim id case) := by
  intro administration
  rw [Administration.linkClaim, perform_bind, perform_caseOf]
  cases found : administration.cases.case case with
  | error error => exact .refl
  | ok there =>
      dsimp only
      rw [perform_bind, perform_onClaims]
      cases linked : administration.claims.link id case with
      | error error => exact .refl
      | ok pair =>
          exact .head (.linkClaim ⟨there, CaseStore.case_eq_ok.mp found⟩ linked)
            ((attachClaim case pair.1).bind (fun _ => pure _) _)

theorem applyUpdate (id : CaseId) (output : Record) (update : Update) :
    Quiet (applyUpdate id output update) := by
  unfold Administration.applyUpdate
  dsimp only
  split
  · exact throw _
  · exact (determineObjection id _).bind fun _ => pure _
  · exact (determineAdmissibility id _).bind fun _ => pure _
  · exact (determineAppeal id _).bind fun _ => pure _

theorem applyUpdates (id : CaseId) (output : Record) (updates : List Update) :
    Quiet (applyUpdates id output updates) := by
  induction updates with
  | nil => exact pure 0
  | cons update rest inductionHypothesis =>
      exact (applyUpdate id output update).bind fun _ => inductionHypothesis.bind fun _ => pure _

theorem applyDeclaration (event : Event) (rule : Rule) (declaration : Declaration) :
    Quiet (applyDeclaration event rule declaration) :=
  (caseOf event.case).bind fun case => get.bind fun _ =>
    (evaluate _).bind fun outcome => applyUpdates case.id outcome.output declaration.updates

theorem applyDeclarations (event : Event) (declarations : List (Rule × Declaration)) :
    Quiet (applyDeclarations event declarations) := by
  induction declarations with
  | nil => exact pure 0
  | cons declared rest inductionHypothesis =>
      obtain ⟨rule, declaration⟩ := declared
      exact (applyDeclaration event rule declaration).bind fun _ =>
        inductionHypothesis.bind fun _ => pure _

theorem applyRules (event : Event) : Quiet (applyRules event) :=
  get.bind fun _ => applyDeclarations event _

end Quiet

/-- The trigger has quiet effects only. -/
theorem quietEffects_handle (event : Event) (administration : Administration) :
    QuietEffects administration (handle event administration) := by
  have applied := Quiet.applyRules event administration
  unfold handle
  cases performed : perform (applyRules event) administration with
  | mk result between =>
      rw [performed] at applied
      cases result with
      | ok _ => exact applied.tail (.count between (between.processed + 1) between.failed)
      | error _ => exact applied.tail (.count between between.processed (between.failed + 1))

end Administration

end Statute
