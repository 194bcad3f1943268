/-
This file proves when a person who claims exactly the computed result is sent to a review because the
results differ.
-/

import Statute.Proofs.Administration.Submission
import Statute.Proofs.Case.Agreement

namespace Statute

/-- A person reviews the case since the claimed result differs from the computed one. -/
def Case.IsInReviewForDifference (case : Case) : Prop :=
  case.status = .inReview ∧ case.reason = some (CaseStore.reviewReason false)

namespace CaseStore

theorem reviewReason_eq_iff (matched : Bool) :
    reviewReason matched = reviewReason false ↔ matched = false := by
  cases matched <;> decide

/-- A settlement gives the difference as the reason exactly when the results do not agree. -/
theorem settle_differs_iff {store settled : CaseStore} {id : CaseId} {changed : Case} {verified : Record}
    {matched sampled : Bool} (isSettled : store.settle id verified matched sampled = .ok (changed, settled)) :
    changed.IsInReviewForDifference ↔ matched = false := by
  unfold settle at isSettled
  by_cases decided : (matched && !sampled) = true
  · rw [if_pos decided] at isSettled
    obtain ⟨case, data, _, updated, _⟩ := change_ok isSettled
    obtain ⟨rfl, _⟩ := Prod.mk.inj (Case.guard_ok updated)
    simp [Case.IsInReviewForDifference, (Bool.and_eq_true_iff.mp decided).1]
  · rw [if_neg decided] at isSettled
    obtain ⟨case, data, _, updated, _⟩ := change_ok isSettled
    obtain ⟨rfl, _⟩ := Prod.mk.inj (Case.guard_ok updated)
    simp [Case.IsInReviewForDifference, reviewReason_eq_iff]

end CaseStore

namespace Administration

/-- A submission is sent to a review because of a difference exactly when the claimed result does not agree
with the computed one. -/
theorem submit_differs_iff {administration : Administration} (reachable : Reachable administration)
    {submission : Submission} {outcome : Outcome} {shared : Shared}
    (answered : administration.registry.evaluate (some administration.claims.lookup)
      (submissionRequest submission) administration.shared = (.ok outcome, shared)) :
    let result := perform (submit submission) administration
    ∃ id case, result.1 = .ok id ∧ Association.get? id result.2.cases.cases = some case ∧
      (case.IsInReviewForDifference ↔
        Record.agrees submission.claimedResult outcome.output = false) := by
  intro result
  obtain ⟨id, placed, case, settled, isPlaced, isSettled, performed⟩ :=
    perform_submit_ok reachable.numbered answered
  obtain ⟨_, found, named, _⟩ := CaseStore.place_ok reachable.numbered isPlaced
  obtain ⟨stored, _⟩ := CaseStore.settle_ok found named isSettled
  have performed : result = (.ok id, { administration with
      shared
      drawn := administration.drawn + 1
      cases := settled }) := performed
  rw [performed]
  exact ⟨id, case, rfl, stored, CaseStore.settle_differs_iff isSettled⟩

/-- A result agrees with itself exactly when no NaN occurs in it and none of its own fields is infinite;
infinities within lists and records do no harm. So of the people who claim exactly the computed result,
those are sent to a review for a difference whose result has a NaN or an infinite field, and no others. -/
theorem submit_own_result (result : Record) (sorted : Entries.Sorted result) :
    (Record.agrees result result = true ↔ Record.IsClaimable result) ∧
    ∀ administration, Reachable administration → ∀ (submission : Submission) (outcome : Outcome) shared,
      administration.registry.evaluate (some administration.claims.lookup)
        (submissionRequest submission) administration.shared = (.ok outcome, shared) →
      submission.claimedResult = result → outcome.output = result →
      ∃ id case, (perform (submit submission) administration).1 = .ok id ∧
        Association.get? id (perform (submit submission) administration).2.cases.cases = some case ∧
        (case.IsInReviewForDifference ↔ ¬ Record.IsClaimable result) := by
  have agrees := Record.agrees_self_iff_isClaimable sorted
  refine ⟨agrees, fun administration reachable submission outcome shared answered claimed computed => ?_⟩
  obtain ⟨id, case, succeeded, stored, differs⟩ := submit_differs_iff reachable answered
  refine ⟨id, case, succeeded, stored, ?_⟩
  rw [differs, claimed, computed, ← agrees, Bool.not_eq_true]

/-- The allowance of a person with an income of a hundred, as the person claims it. -/
def claimedAllowance : Submission :=
  ⟨⟨"111", "TOESLAGEN", "zorgtoeslagwet"⟩, [("BSN", .string "111"), ("income", .int 100)],
    [("amount", .int 1300)], false⟩

theorem output_of_shown {output : Record}
    (shown : output.map (fun field => (field.1, field.2.int?)) = [("amount", some 1300)]) :
    output = [("amount", .int 1300)] := by
  obtain ⟨⟨name, value⟩, rest, rfl, isFirst, noRest⟩ := List.map_eq_cons_iff.mp shown
  obtain rfl := List.map_eq_nil_iff.mp noRest
  obtain ⟨rfl, isInteger⟩ := Prod.mk.inj isFirst
  cases value <;> cases isInteger
  rfl

theorem submit_own_result_allowance :
    ∃ id case, Entries.Sorted claimedAllowance.claimedResult ∧ allowanceOffice.Reachable ∧
      (perform (submit claimedAllowance) allowanceOffice).1 = .ok id ∧
      Association.get? id (perform (submit claimedAllowance) allowanceOffice).2.cases.cases = some case ∧
      ¬ case.IsInReviewForDifference := by
  have sorted : Entries.Sorted claimedAllowance.claimedResult := List.pairwise_singleton _ _
  have reachable : allowanceOffice.Reachable := ⟨_, _, _, _, [], rfl⟩
  have claimable : Record.IsClaimable claimedAllowance.claimedResult :=
    ⟨rfl, List.forall_mem_singleton.mpr rfl⟩
  have shown : (allowanceOffice.registry.evaluate (some allowanceOffice.claims.lookup)
      (submissionRequest claimedAllowance) allowanceOffice.shared).1.toOption.map (fun outcome =>
        outcome.output.map fun field => (field.1, field.2.int?)) = some [("amount", some 1300)] := by
    decide +kernel
  obtain ⟨outcome, shared, answered, isShown⟩ := Outcome.of_shown shown
  obtain ⟨id, case, succeeded, stored, differs⟩ := (submit_own_result _ sorted).2 allowanceOffice reachable
    claimedAllowance outcome shared answered rfl (output_of_shown isShown)
  exact ⟨id, case, sorted, reachable, succeeded, stored, fun isDifferent => differs.mp isDifferent claimable⟩

/-- An infinite amount does not agree with itself, but the same amount in a list does. -/
theorem infinite_result_differs :
    Value.fieldsHaveNaN [("amount", .float Double.infinity)] = false ∧
    Record.agrees [("amount", .float Double.infinity)] [("amount", .float Double.infinity)] = false ∧
    Record.agrees [("amounts", .list [.float Double.infinity])]
      [("amounts", .list [.float Double.infinity])] = true := by
  decide +kernel

end Administration

end Statute
