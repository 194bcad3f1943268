/-
This file proves that claims which do not count decide nothing.
-/

import Statute.Proofs.Administration.Submission
import Statute.Proofs.Claim.Assertions
import Statute.Proofs.Evaluation.Delegation

namespace Statute

namespace Administration

variable {α β : Type} {first second : ClaimStore}

/-- The administration with other claims. -/
def withClaims (claims : ClaimStore) (administration : Administration) : Administration :=
  { administration with claims }

/-- A procedure does the same with each of two stores of claims, and leaves them as they are. -/
def ProceedsAlike (first second : ClaimStore) (procedure : Procedure α) : Prop :=
  ∀ administration : Administration, ∃ (result : Except CaseError α) (after : Administration),
    perform procedure (administration.withClaims first) = (result, after.withClaims first) ∧
    perform procedure (administration.withClaims second) = (result, after.withClaims second)

namespace ProceedsAlike

theorem pure (value : α) : ProceedsAlike first second (Pure.pure value) :=
  fun administration => ⟨_, administration, rfl, rfl⟩

theorem bind {procedure : Procedure α} {next : α → Procedure β}
    (alike : ProceedsAlike first second procedure)
    (continues : ∀ value, ProceedsAlike first second (next value)) :
    ProceedsAlike first second (procedure >>= next) := by
  intro administration
  obtain ⟨result, between, one, other⟩ := alike administration
  rw [perform_bind, perform_bind, one, other]
  cases result with
  | error error => exact ⟨_, between, rfl, rfl⟩
  | ok value => exact continues value between

theorem drawSample : ProceedsAlike first second drawSample :=
  fun administration => ⟨_, { administration with drawn := administration.drawn + 1 }, rfl, rfl⟩

theorem onCases (step : CaseStore → Except CaseError (α × CaseStore)) :
    ProceedsAlike first second (onCases step) := by
  intro administration
  have cases (claims : ClaimStore) :
      (administration.withClaims claims).cases = administration.cases := rfl
  rw [perform_onCases, perform_onCases, cases, cases]
  cases step administration.cases with
  | error error => exact ⟨_, administration, rfl, rfl⟩
  | ok pair => exact ⟨_, { administration with cases := pair.2 }, rfl, rfl⟩

theorem evaluate {request : Request}
    (same : ∀ registry : Registry, registry.evaluate (some first.lookup) request =
      registry.evaluate (some second.lookup) request) :
    ProceedsAlike first second (evaluate request) := by
  intro administration
  cases answer : administration.registry.evaluate (some second.lookup) request
      administration.shared with
  | mk result shared =>
      refine ⟨result.mapError .evaluation, { administration with shared }, ?_, ?_⟩
      · simp only [perform_evaluate, withClaims, same, answer]
      · simp only [perform_evaluate, withClaims, answer]

/-- A submission is settled alike when its evaluation is answered alike. -/
theorem submit {submission : Submission}
    (same : ∀ registry : Registry,
      registry.evaluate (some first.lookup) (submissionRequest submission) =
        registry.evaluate (some second.lookup) (submissionRequest submission)) :
    ProceedsAlike first second (submit submission) :=
  (evaluate same).bind fun outcome => drawSample.bind fun sampled =>
    (onCases (CaseStore.place submission outcome.output outcome.ruleId)).bind fun id =>
      (onCases (CaseStore.settle id outcome.output _ sampled)).bind fun _ => pure id

end ProceedsAlike

/-- Stores whose counting claims assert the same are alike to evaluations, however deep their calls
are nested, and stores whose approved claims assert the same are alike to submissions. -/
theorem evaluate_submit_of_assertsAlike (isFirst : first.Reachable) (isSecond : second.Reachable) :
    (∀ (registry : Registry) (request : Request) (shared : Shared),
      first.AssertsAlike request.approved second →
      registry.evaluate (some first.lookup) request shared =
        registry.evaluate (some second.lookup) request shared) ∧
    (first.AssertsAlike true second →
      ∀ (administration : Administration) (submission : Submission),
        ∃ (result : Except CaseError CaseId) (after : Administration),
        perform (submit submission) (administration.withClaims first) =
          (result, after.withClaims first) ∧
        perform (submit submission) (administration.withClaims second) =
          (result, after.withClaims second)) := by
  have answered (registry : Registry) (request : Request) (shared : Shared)
      (alike : first.AssertsAlike request.approved second) :=
    registry.evaluate_agreesOn (ClaimStore.lookup_congr isFirst isSecond alike) request shared rfl
  refine ⟨answered, fun alike administration submission => ?_⟩
  exact ProceedsAlike.submit (fun registry => funext fun shared =>
    answered registry (submissionRequest submission) shared alike) administration

/-- A declared income that is approved at once. -/
def approvedIncome : ClaimCommand :=
  .submit ⟨⟨"111", "BELASTINGDIENST", "awir"⟩, "declared", .int 100, none, "", "111", none, none,
    true⟩

/-- The approved income among an income that waits for its review and one that was rejected. -/
def reviewedIncomes : List ClaimCommand :=
  [.submit ⟨⟨"111", "TOESLAGEN", "zorgtoeslagwet"⟩, "income", .int 5, none, "", "111", none, none,
      false⟩,
    approvedIncome,
    .submit ⟨⟨"111", "BELASTINGDIENST", "awir"⟩, "income", .int 7, none, "", "111", none, none, false⟩,
    .reject ⟨3⟩ "V" "no"]

/-- The text of the amount that an answer gives. -/
def amountOf (answer : Except EvaluationError Outcome × Shared) : Option String :=
  answer.1.toOption.bind fun outcome => (Entries.get? "amount" outcome.output).map Value.text

/-- Only the approved income counts in either store, and all claims are about one person. -/
theorem assertsAlike_reviewedIncomes :
    (ClaimStore.empty.run [approvedIncome]).AssertsAlike true
      (ClaimStore.empty.run reviewedIncomes) := by
  intro person
  by_cases same : "111" = person
  · rw [← same]
    rfl
  · have nothing {store : ClaimStore}
        (about : ∀ claim ∈ store.stored, claim.matter.person = "111") :
        store.assertions true person = [] := by
      rw [ClaimStore.assertions, List.map_eq_nil_iff, List.filter_eq_nil_iff]
      intro claim member
      simp [about claim member, same]
    rw [nothing (by decide), nothing (by decide)]

theorem evaluate_submit_of_assertsAlike_supplement :
    let first := ClaimStore.empty.run [approvedIncome]
    let second := ClaimStore.empty.run reviewedIncomes
    let answer := fun (claims : ClaimStore) approved =>
      supplementRegistry.evaluate (some claims.lookup) (supplementRequest approved) .initial
    let office := { allowanceOffice with registry := supplementRegistry }
    first.Reachable ∧ second.Reachable ∧ first.AssertsAlike true second ∧
      amountOf (answer first false) = some "1300" ∧ amountOf (answer second false) = some "1205" ∧
      answer first true = answer second true ∧
      ∃ (result : Except CaseError CaseId) (after : Administration),
        perform (submit emptySubmission) (office.withClaims first) =
          (result, after.withClaims first) ∧
        perform (submit emptySubmission) (office.withClaims second) =
          (result, after.withClaims second) := by
  intro first second answer office
  have isFirst : first.Reachable := ⟨_, rfl⟩
  have isSecond : second.Reachable := ⟨_, rfl⟩
  have alike : first.AssertsAlike true second := assertsAlike_reviewedIncomes
  have independent := evaluate_submit_of_assertsAlike isFirst isSecond
  exact ⟨isFirst, isSecond, alike, by decide +kernel, by decide +kernel,
    independent.1 supplementRegistry (supplementRequest true) .initial alike,
    independent.2 alike office emptySubmission⟩

end Administration

end Statute
