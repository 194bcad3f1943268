/-
This file proves how submissions with missing required values are settled.
-/

import Statute.Proofs.Administration.Run
import Statute.Proofs.Evaluation.Outcome

namespace Statute

/-- Only an empty claim agrees with a result without outputs. -/
theorem Record.agrees_nil (claimed : Record) :
    Record.agrees claimed [] = true ↔ claimed = [] := by
  simp [Record.agrees]

namespace CaseStore

variable {store placed settled : CaseStore}

/-- A submission leaves a case that nobody has looked at, and only a creation is an event. -/
theorem place_ok {submission : Submission} {verified : Record} {ruleId : String} {id : CaseId}
    (numbered : store.Numbered)
    (isPlaced : store.place submission verified ruleId = .ok (id, placed)) :
    ∃ case, Association.get? id placed.cases = some case ∧ case.id = id ∧ case.Untouched ∧
      ∃ opened, placed.events = store.events ++ opened ∧
        ∀ event ∈ opened, event.kind = .submitted := by
  rcases place_cases numbered submission verified ruleId with
    ⟨there, case, found, named, _, isThere⟩ | ⟨case, created, isNew, creates, found, isThere⟩
  · rw [isPlaced] at isThere
    cases isThere
    refine ⟨case.reset submission verified ruleId, ?_, named,
      Case.reset_untouched submission verified ruleId case, [], by simp [put], by simp⟩
    rw [put, show (case.reset submission verified ruleId).id = id from named,
      Association.get?_set, if_pos rfl]
  · rw [isPlaced] at isThere
    cases isThere
    refine ⟨case, found, rfl, ?_, ?_⟩
    · rw [isNew]
      exact Case.ofSubmission_untouched _ submission verified ruleId
    · cases creates with
      | told _ => exact ⟨_, rfl, by simp⟩

/-- The status that a settlement leaves. -/
def settledStatus (matched sampled : Bool) : CaseStatus :=
  if matched && !sampled then .decided else .inReview

theorem settledStatus_eq_decided (matched sampled : Bool) :
    settledStatus matched sampled = .decided ↔ (matched && !sampled) = true := by
  cases matched <;> cases sampled <;> decide

theorem settlementKind_eq_decided (matched sampled : Bool) :
    settlementKind matched sampled = .automaticallyDecided ↔ (matched && !sampled) = true := by
  cases matched <;> cases sampled <;> decide

/-- A settlement leaves the case decided and approved, or in review, and records which. -/
theorem settle_ok {id : CaseId} {case changed : Case} {verified : Record} {matched sampled : Bool}
    (found : Association.get? id store.cases = some case) (named : case.id = id)
    (isSettled : store.settle id verified matched sampled = .ok (changed, settled)) :
    Association.get? id settled.cases = some changed ∧
      changed.status = settledStatus matched sampled ∧
      ((matched && !sampled) = true → changed.approved = some true) ∧
      ∃ data, settled.events = store.events ++ [⟨id, settlementKind matched sampled, data⟩] := by
  unfold settle at isSettled
  unfold settledStatus settlementKind
  by_cases decided : (matched && !sampled) = true
  · simp only [decided, if_true] at isSettled ⊢
    obtain ⟨there, data, foundThere, updated, rfl⟩ := change_ok isSettled
    rw [found] at foundThere
    cases foundThere
    obtain ⟨rfl, rfl⟩ := Prod.mk.inj (Case.guard_ok updated)
    refine ⟨?_, rfl, fun _ => rfl, _, rfl⟩
    simp [record, put, Association.get?_set, named]
  · simp only [decided, Bool.false_eq_true, if_false] at isSettled ⊢
    obtain ⟨there, data, foundThere, updated, rfl⟩ := change_ok isSettled
    rw [found] at foundThere
    cases foundThere
    obtain ⟨rfl, rfl⟩ := Prod.mk.inj (Case.guard_ok updated)
    refine ⟨?_, rfl, fun isDecided => isDecided.elim, _, rfl⟩
    simp [record, put, Association.get?_set, named]

end CaseStore

namespace Administration

/-- The events that a procedure adds to the log. -/
def addedEvents (before after : Administration) : List Event :=
  after.cases.events.drop before.cases.events.length

/-- What a submission does to its case depends on the agreement of the results and on the sample. -/
theorem submit_settles {administration : Administration} (reachable : Reachable administration)
    {submission : Submission} {outcome : Outcome} {shared : Shared}
    (answered : administration.registry.evaluate (some administration.claims.lookup)
      (submissionRequest submission) administration.shared = (.ok outcome, shared)) :
    let matched := Record.agrees submission.claimedResult outcome.output
    let result := perform (submit submission) administration
    ∃ id case, result.1 = .ok id ∧ Association.get? id result.2.cases.cases = some case ∧
      case.status = CaseStore.settledStatus matched administration.isSampled ∧
      ((matched && !administration.isSampled) = true → case.approved = some true) ∧
      ∃ opened data, addedEvents administration result.2 =
        opened ++ [⟨id, CaseStore.settlementKind matched administration.isSampled, data⟩] ∧
        ∀ event ∈ opened, event.kind = .submitted := by
  intro matched result
  obtain ⟨id, placed, case, settled, isPlaced, isSettled, performed⟩ :=
    perform_submit_ok reachable.numbered answered
  obtain ⟨fresh, found, named, _, opened, placedEvents, creations⟩ :=
    CaseStore.place_ok reachable.numbered isPlaced
  obtain ⟨stored, status, approved, data, settledEvents⟩ :=
    CaseStore.settle_ok found named isSettled
  have performed : result = (.ok id, { administration with
      shared
      drawn := administration.drawn + 1
      cases := settled }) := performed
  rw [performed]
  refine ⟨id, case, rfl, stored, status, approved, opened, data, ?_, creations⟩
  simp only [addedEvents, settledEvents, placedEvents, List.append_assoc, List.drop_left]
  rfl

/-- A submission whose evaluation lacks a required value is decided in favour of the person exactly
when the person claims nothing and the case is not drawn for review. -/
theorem submit_missing_decided_iff {administration : Administration}
    (reachable : Reachable administration) {submission : Submission} {outcome : Outcome}
    {shared : Shared}
    (answered : administration.registry.evaluate (some administration.claims.lookup)
      (submissionRequest submission) administration.shared = (.ok outcome, shared))
    (missing : outcome.missingRequired = true) :
    let result := perform (submit submission) administration
    ∃ id case, result.1 = .ok id ∧ Association.get? id result.2.cases.cases = some case ∧
      (case.status = .decided ∧ case.approved = some true ↔
        submission.claimedResult = [] ∧ administration.isSampled = false) ∧
      ((∃ event ∈ addedEvents administration result.2, event.kind = .automaticallyDecided) ↔
        submission.claimedResult = [] ∧ administration.isSampled = false) := by
  intro result
  obtain ⟨id, case, succeeded, stored, status, approved, opened, data, added, creations⟩ :=
    submit_settles reachable answered
  have empty : outcome.output = [] := Registry.provider_missing answered missing
  rw [empty] at status approved added
  have decides : (Record.agrees submission.claimedResult [] && !administration.isSampled) = true ↔
      submission.claimedResult = [] ∧ administration.isSampled = false := by
    rw [Bool.and_eq_true, Record.agrees_nil, Bool.not_eq_true']
  refine ⟨id, case, succeeded, stored, ?_, ?_⟩
  · rw [← decides, status, CaseStore.settledStatus_eq_decided]
    exact ⟨fun isDecided => isDecided.1, fun decided => ⟨decided, approved decided⟩⟩
  · rw [← decides, ← CaseStore.settlementKind_eq_decided, added]
    constructor
    · rintro ⟨event, member, kind⟩
      rcases List.mem_append.mp member with earlier | last
      · rw [creations event earlier] at kind
        cases kind
      · rw [List.mem_singleton.mp last] at kind
        exact kind
    · intro decided
      exact ⟨_, List.mem_append_right _ (List.mem_singleton.mpr rfl), decided⟩

/-- An answer that lacks a required value. -/
theorem answered_of_missing {answer : Except EvaluationError Outcome × Shared}
    (lacks : answer.1.toOption.map Outcome.missingRequired = some true) :
    ∃ outcome shared, answer = (.ok outcome, shared) ∧ outcome.missingRequired = true :=
  Outcome.of_shown lacks

/-- An allowance of a fixed amount and the income, which must be given. -/
def allowanceRule : Rule :=
  { uuid := "zt-income"
    name := "Zorgtoeslag"
    law := "zorgtoeslagwet"
    service := "TOESLAGEN"
    validFrom := default
    description := none
    discoverable := none
    properties := { Properties.empty with
      inputs := [⟨"income", none, some "amount", none, none, none, none, true⟩] }
    requirements := []
    actions := [⟨"amount", none, some { Operation.named "ADD" with
      values := some (.list [.literal (.int 1200), .literal (.string "$income")]) }⟩] }

/-- An administration of the allowance that draws no submission for review. -/
def allowanceOffice : Administration :=
  ofCatalog (Catalog.ofRules [allowanceRule])
    { Configuration.default with rootDate := some default }
    (fun _ => ⟨default, 0, 0⟩) (fun _ => Double.ofInt 1)

/-- A submission that claims nothing and gives no income. -/
def emptySubmission : Submission :=
  ⟨⟨"111", "TOESLAGEN", "zorgtoeslagwet"⟩, [("BSN", .string "111")], [], false⟩

/-- The allowance cannot be computed without an income. -/
theorem emptySubmission_lacks :
    (allowanceOffice.registry.evaluate (some allowanceOffice.claims.lookup)
      (submissionRequest emptySubmission) allowanceOffice.shared).1.toOption.map
        Outcome.missingRequired = some true := by
  decide +kernel

theorem submit_missing_decided_iff_allowance :
    ∃ outcome shared, allowanceOffice.Reachable ∧
      allowanceOffice.registry.evaluate (some allowanceOffice.claims.lookup)
        (submissionRequest emptySubmission) allowanceOffice.shared = (.ok outcome, shared) ∧
      outcome.missingRequired = true ∧
      let result := perform (submit emptySubmission) allowanceOffice
      ∃ id case, result.1 = .ok id ∧ Association.get? id result.2.cases.cases = some case ∧
        (case.status = .decided ∧ case.approved = some true ↔
          emptySubmission.claimedResult = [] ∧ allowanceOffice.isSampled = false) ∧
        ((∃ event ∈ addedEvents allowanceOffice result.2, event.kind = .automaticallyDecided) ↔
          emptySubmission.claimedResult = [] ∧ allowanceOffice.isSampled = false) := by
  obtain ⟨outcome, shared, answered, missing⟩ := answered_of_missing emptySubmission_lacks
  have reachable : allowanceOffice.Reachable := ⟨_, _, _, _, [], rfl⟩
  exact ⟨outcome, shared, reachable, answered, missing,
    submit_missing_decided_iff reachable answered missing⟩

/-- The empty submission is approved although its evaluation lacks the income. -/
theorem submit_missing_approves_allowance :
    let result := perform (submit emptySubmission) allowanceOffice
    (allowanceOffice.registry.evaluate (some allowanceOffice.claims.lookup)
      (submissionRequest emptySubmission) allowanceOffice.shared).1.toOption.map
        Outcome.missingRequired = some true ∧
    (Association.get? ⟨1⟩ result.2.cases.cases).map (fun case => (case.status, case.approved)) =
      some (.decided, some true) ∧
    (addedEvents allowanceOffice result.2).map Event.kind = [.submitted, .automaticallyDecided] := by
  refine ⟨emptySubmission_lacks, ?_, ?_⟩
  · decide +kernel
  · decide +kernel

end Administration

end Statute
