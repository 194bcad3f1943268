/-
This file runs administrations and proves that only operations on cases change their cases.
-/

import Statute.Proofs.Administration.Effects

namespace Statute

/-- What people, services and the trigger ask of an administration. -/
inductive Command
  | evaluate (request : Request)
  | setTable (service table : String) (source : Source)
  | submit (submission : Submission)
  | completeReview (id : CaseId) (verifier : String) (approved : Bool) (reason : String)
      (replacement : Option Record)
  | object (id : CaseId) (reason : String)
  | determineObjection (id : CaseId) (update : ObjectionStatus)
  | determineAdmissibility (id : CaseId) (admissible : Option Bool)
  | determineAppeal (id : CaseId) (update : AppealStatus)
  | fileClaim (filing : ClaimFiling)
  | approveClaim (id : ClaimId) (verifier : String) (value : Value)
  | rejectClaim (id : ClaimId) (verifier reason : String)
  | linkClaim (id : ClaimId) (case : CaseId)
  | addEvidence (id : ClaimId) (evidence : String)
  | handle (event : Event)

namespace Administration

/-- The administration after a command, whether the command succeeds or fails. -/
def after (administration : Administration) : Command → Administration
  | .evaluate request => (perform (evaluate request) administration).2
  | .setTable service table source => (perform (setTable service table source) administration).2
  | .submit submission => (perform (submit submission) administration).2
  | .completeReview id verifier approved reason replacement =>
      (perform (completeReview id verifier approved reason replacement) administration).2
  | .object id reason => (perform (object id reason) administration).2
  | .determineObjection id update => (perform (determineObjection id update) administration).2
  | .determineAdmissibility id admissible =>
      (perform (determineAdmissibility id admissible) administration).2
  | .determineAppeal id update => (perform (determineAppeal id update) administration).2
  | .fileClaim filing => (perform (fileClaim filing) administration).2
  | .approveClaim id verifier value => (perform (approveClaim id verifier value) administration).2
  | .rejectClaim id verifier reason => (perform (rejectClaim id verifier reason) administration).2
  | .linkClaim id case => (perform (linkClaim id case) administration).2
  | .addEvidence id evidence => (perform (addEvidence id evidence) administration).2
  | .handle event => handle event administration

/-- The administration after a row of commands. -/
def run (administration : Administration) (commands : List Command) : Administration :=
  commands.foldl after administration

/-- The request with which a submission is evaluated. -/
def submissionRequest (submission : Submission) : Request :=
  approvedRequest submission.matter.service submission.matter.law submission.parameters none

/-- True when the next submission is drawn for a person's review. -/
def isSampled (administration : Administration) : Bool :=
  (administration.sampler administration.drawn).isLT administration.configuration.sampleRate

/-- A submission whose evaluation fails leaves the cases as they are. -/
theorem perform_submit_error {submission : Submission} {administration : Administration}
    {cause : EvaluationError} {shared : Shared}
    (failed : administration.registry.evaluate (some administration.claims.lookup)
      (submissionRequest submission) administration.shared = (.error cause, shared)) :
    perform (submit submission) administration =
      (.error (.evaluation cause), { administration with shared }) := by
  rw [submissionRequest] at failed
  rw [submit, perform_bind, perform_evaluate, failed]
  rfl

/-- A submission whose evaluation succeeds is placed and settled. -/
theorem perform_submit_ok {submission : Submission} {administration : Administration}
    {outcome : Outcome} {shared : Shared} (numbered : administration.cases.Numbered)
    (answered : administration.registry.evaluate (some administration.claims.lookup)
      (submissionRequest submission) administration.shared = (.ok outcome, shared)) :
    ∃ id placed case settled,
      administration.cases.place submission outcome.output outcome.ruleId = .ok (id, placed) ∧
      placed.settle id outcome.output (Record.agrees submission.claimedResult outcome.output)
        administration.isSampled = .ok (case, settled) ∧
      perform (submit submission) administration =
        (.ok id, { administration with
          shared
          drawn := administration.drawn + 1
          cases := settled }) := by
  obtain ⟨id, placed, case, settled, isPlaced, isSettled, _⟩ :=
    CaseStore.submit_rewrites numbered submission outcome.output outcome.ruleId
      (Record.agrees submission.claimedResult outcome.output) administration.isSampled
  refine ⟨id, placed, case, settled, isPlaced, isSettled, ?_⟩
  rw [submissionRequest] at answered
  rw [submit, perform_bind, perform_evaluate_ok answered]
  simp only [perform_bind, perform_drawSample, perform_onCases, isPlaced]
  rw [isSampled] at isSettled
  rw [isSettled]
  rfl

/-- What a command may change. Submissions are settled, and people decide and object. -/
inductive Effect : Command → Administration → Administration → Prop
  | quiet {command : Command} {administration after : Administration}
      (effects : QuietEffects administration after) : Effect command administration after
  | setTable {service table : String} {source : Source} {administration : Administration}
      {registry : Registry}
      (replaced : administration.registry.setTable service table source = .ok registry) :
      Effect (.setTable service table source) administration { administration with registry }
  | submit {submission : Submission} {administration : Administration} {outcome : Outcome}
      {shared : Shared} {id : CaseId} {placed settled : CaseStore} {case : Case}
      (answered : administration.registry.evaluate (some administration.claims.lookup)
        (submissionRequest submission) administration.shared = (.ok outcome, shared))
      (isPlaced : administration.cases.place submission outcome.output outcome.ruleId =
        .ok (id, placed))
      (isSettled : placed.settle id outcome.output
        (Record.agrees submission.claimedResult outcome.output) administration.isSampled =
          .ok (case, settled)) :
      Effect (.submit submission) administration { administration with
        shared
        drawn := administration.drawn + 1
        cases := settled }
  | completeReview {id : CaseId} {verifier : String} {approved : Bool} {reason : String}
      {replacement : Option Record} {administration : Administration} {case : Case}
      {cases : CaseStore}
      (decided : administration.cases.change id .decided
        (Case.decide verifier approved reason replacement) = .ok (case, cases)) :
      Effect (.completeReview id verifier approved reason replacement) administration
        { administration with cases }
  | object {id : CaseId} {reason : String} {administration : Administration} {case : Case}
      {cases : CaseStore}
      (objected : administration.cases.change id .objected (Case.object reason) =
        .ok (case, cases)) :
      Effect (.object id reason) administration { administration with cases }

/-- What a command changes, whether it succeeds or fails. -/
theorem after_effect (administration : Administration) (command : Command)
    (numbered : administration.cases.Numbered) :
    Effect command administration (administration.after command) := by
  cases command with
  | evaluate request => exact .quiet (Quiet.evaluate request administration)
  | setTable service table source =>
      rw [after, setTable, perform_bind, perform_get]
      dsimp only
      cases replaced : administration.registry.setTable service table source with
      | error cause => exact .quiet .refl
      | ok registry => exact .setTable replaced
  | submit submission =>
      rw [after]
      cases answer : administration.registry.evaluate (some administration.claims.lookup)
          (submissionRequest submission) administration.shared with
      | mk result shared =>
          cases result with
          | error cause =>
              rw [perform_submit_error answer, show shared = _ from congrArg Prod.snd answer.symm]
              exact .quiet (.single (.evaluate administration _))
          | ok outcome =>
              obtain ⟨id, placed, case, settled, isPlaced, isSettled, performed⟩ :=
                perform_submit_ok numbered answer
              rw [performed]
              exact .submit answer isPlaced isSettled
  | completeReview id verifier approved reason replacement =>
      rw [after, completeReview, perform_onCases]
      cases decided : administration.cases.change id .decided
          (Case.decide verifier approved reason replacement) with
      | error error => exact .quiet .refl
      | ok pair => exact .completeReview decided
  | object id reason =>
      rw [after, object, perform_onCases]
      cases objected : administration.cases.change id .objected (Case.object reason) with
      | error error => exact .quiet .refl
      | ok pair => exact .object objected
  | determineObjection id update => exact .quiet (Quiet.determineObjection id update administration)
  | determineAdmissibility id admissible =>
      exact .quiet (Quiet.determineAdmissibility id admissible administration)
  | determineAppeal id update => exact .quiet (Quiet.determineAppeal id update administration)
  | fileClaim filing => exact .quiet (Quiet.fileClaim filing administration)
  | approveClaim id verifier value => exact .quiet (Quiet.approveClaim id verifier value administration)
  | rejectClaim id verifier reason =>
      exact .quiet (Quiet.rejectClaim id verifier reason administration)
  | linkClaim id case => exact .quiet (Quiet.linkClaim id case administration)
  | addEvidence id evidence => exact .quiet (Quiet.addEvidence id evidence administration)
  | handle event => exact .quiet (quietEffects_handle event administration)

/-- A quiet change is at most one operation on cases. -/
theorem QuietEffect.steps {before after : Administration} (effect : QuietEffect before after) :
    CaseStore.Steps before.cases after.cases := by
  cases effect with
  | evaluate request => exact .refl
  | count processed failed => exact .refl
  | determine determination changed => exact .single (.amend changed)
  | attach attached => exact .single (.attach attached)
  | recordReview recorded => exact .single (.recordReview recorded)
  | fileClaim stored => exact .refl
  | changeClaim sameLink changed => exact .refl
  | linkClaim stored linked => exact .refl

theorem QuietEffects.steps {before after : Administration} (effects : QuietEffects before after) :
    CaseStore.Steps before.cases after.cases := by
  induction effects with
  | refl => exact .refl
  | tail _ effect inductionHypothesis => exact inductionHypothesis.trans effect.steps

theorem Effect.steps {command : Command} {before after : Administration}
    (effect : Effect command before after) : CaseStore.Steps before.cases after.cases := by
  cases effect with
  | quiet effects => exact QuietEffects.steps effects
  | setTable replaced => exact .refl
  | submit answered isPlaced isSettled => exact .single (.submit isPlaced isSettled)
  | completeReview decided =>
      rename_i id verifier approved reason replacement case cases
      have amended : before.cases.change id (Amendment.decide verifier approved reason replacement).kind
          (Amendment.decide verifier approved reason replacement).apply = .ok (case, cases) := decided
      exact .single (.amend amended)
  | object objected =>
      rename_i id reason case cases
      have amended : before.cases.change id (Amendment.object reason).kind
          (Amendment.object reason).apply = .ok (case, cases) := objected
      exact .single (.amend amended)

/-- A command changes the cases by operations on cases only. -/
theorem after_steps (administration : Administration) (command : Command)
    (numbered : administration.cases.Numbered) :
    CaseStore.Steps administration.cases (administration.after command).cases :=
  (after_effect administration command numbered).steps

/-- A row of commands changes the cases by operations on cases only. -/
theorem run_steps (administration : Administration) (commands : List Command)
    (numbered : administration.cases.Numbered) :
    CaseStore.Steps administration.cases (administration.run commands).cases := by
  induction commands generalizing administration with
  | nil => exact .refl
  | cons command rest inductionHypothesis =>
      have first := after_steps administration command numbered
      exact first.trans (inductionHypothesis _ (first.numbered numbered))

/-- The administrations that commands lead to from one without claims and cases. -/
def Reachable (administration : Administration) : Prop :=
  ∃ catalog configuration clock sampler commands,
    administration = (ofCatalog catalog configuration clock sampler).run commands

theorem Reachable.numbered {administration : Administration} (reachable : Reachable administration) :
    administration.cases.Numbered := by
  obtain ⟨catalog, configuration, clock, sampler, commands, rfl⟩ := reachable
  exact (run_steps _ commands CaseStore.empty_numbered).numbered CaseStore.empty_numbered

/-- What holds at first and is kept by each command holds of every reachable administration. -/
theorem Reachable.invariant {holds : Administration → Prop}
    (initial : ∀ catalog configuration clock sampler,
      holds (ofCatalog catalog configuration clock sampler))
    (kept : ∀ {command : Command} {before after : Administration}, Effect command before after →
      before.cases.Numbered → holds before → holds after)
    {administration : Administration} (reachable : Reachable administration) :
    holds administration := by
  have running (commands : List Command) (start : Administration)
      (numbered : start.cases.Numbered) (begun : holds start) : holds (start.run commands) := by
    induction commands generalizing start with
    | nil => exact begun
    | cons command rest inductionHypothesis =>
        have effect := after_effect start command numbered
        exact inductionHypothesis _ (effect.steps.numbered numbered) (kept effect numbered begun)
  obtain ⟨catalog, configuration, clock, sampler, commands, rfl⟩ := reachable
  exact running commands _ CaseStore.empty_numbered (initial catalog configuration clock sampler)

/-- However an administration is used, the events of each case tell what it keeps of the case: its
status, its decision with reason and verifier, its result, what was determined about objection and
appeal, and its claims. -/
theorem replay_eventsOf_run (catalog : Catalog) (configuration : Configuration)
    (clock : Nat → Instant) (sampler : Nat → Double) (commands : List Command) (id : CaseId) :
    let cases := ((ofCatalog catalog configuration clock sampler).run commands).cases
    Snapshot.replay (cases.eventsOf id) = (Association.get? id cases.cases).map Case.snapshot :=
  (run_steps _ commands CaseStore.empty_numbered).logged CaseStore.empty_numbered
    CaseStore.empty_logged id

end Administration

end Statute
