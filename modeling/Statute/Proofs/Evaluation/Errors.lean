/-
This file tells the errors of nesting from those of operators.
-/

import Statute.Evaluation.Aggregate

namespace Statute

/-- The error is not that paths or calls are nested too deeply, here or in a called law. -/
def EvaluationError.IsShallow (error : EvaluationError) : Prop :=
  error.rootCause ≠ .tooDeep

namespace EvaluationError

@[simp]
theorem isShallow_rule (cause : RuleError) : (rule cause).IsShallow :=
  nofun

@[simp]
theorem isShallow_source (cause : SourceError) : (source cause).IsShallow :=
  nofun

@[simp]
theorem isShallow_value (cause : ValueError) : (value cause).IsShallow :=
  nofun

@[simp]
theorem isShallow_unknownService (service : String) : (unknownService service).IsShallow :=
  nofun

@[simp]
theorem isShallow_typeMismatch (operation reason : String) :
    (typeMismatch operation reason).IsShallow :=
  nofun

@[simp]
theorem isShallow_cancelled : cancelled.IsShallow :=
  nofun

end EvaluationError

namespace Except

variable {ε α β : Type} {holds : ε → Prop} {items : List α} {error : ε}

/-- What is done to the items of a list fails in the way in which it fails for some item. -/
theorem mapM_error {f : α → Except ε β} (steps : ∀ item error, f item = .error error → holds error)
    (failed : items.mapM f = .error error) : holds error := by
  induction items with
  | nil => cases failed
  | cons item rest inductionHypothesis =>
      rw [List.mapM_cons] at failed
      cases first : f item with
      | error cause =>
          rw [first] at failed
          cases failed
          exact steps item _ first
      | ok value =>
          cases others : rest.mapM f with
          | error cause =>
              rw [first, others] at failed
              cases failed
              exact inductionHypothesis others
          | ok values =>
              rw [first, others] at failed
              cases failed

theorem foldlM_error {f : β → α → Except ε β} {start : β}
    (steps : ∀ total item error, f total item = .error error → holds error)
    (failed : items.foldlM f start = .error error) : holds error := by
  induction items generalizing start with
  | nil => cases failed
  | cons item rest inductionHypothesis =>
      rw [List.foldlM_cons] at failed
      cases first : f start item with
      | error cause =>
          rw [first] at failed
          cases failed
          exact steps start item _ first
      | ok value =>
          rw [first] at failed
          exact inductionHypothesis failed

end Except

namespace Aggregate

variable {aggregate : Aggregate} {operands : List Value} {error : EvaluationError}

theorem number_error (operand : Value) (failed : aggregate.number operand = .error error) :
    error.IsShallow := by
  unfold number at failed
  split at failed <;> cases failed
  simp

theorem numbers_error (failed : operands.mapM aggregate.number = .error error) : error.IsShallow :=
  Except.mapM_error (fun operand _ => number_error operand) failed

theorem arithmetic_error (failed : aggregate.arithmetic operands = .error error) :
    error.IsShallow := by
  unfold arithmetic at failed
  split at failed
  · cases failed
  · cases numbers : operands.mapM aggregate.number with
    | error cause =>
        rw [numbers] at failed
        cases failed
        exact numbers_error numbers
    | ok values =>
        rw [numbers] at failed
        cases values <;> cases failed

theorem quotient_error (failed : quotient operands = .error error) : error.IsShallow := by
  unfold quotient at failed
  cases numbers : operands.mapM divide.number with
  | error cause =>
      rw [numbers] at failed
      cases failed
      exact numbers_error numbers
  | ok values =>
      rw [numbers] at failed
      rcases values with _ | ⟨first, _ | ⟨second, rest⟩⟩ <;> cases failed

theorem extremum_error {wanted : Ordering} (failed : aggregate.extremum wanted operands = .error error) :
    error.IsShallow := by
  unfold extremum at failed
  split at failed
  · cases failed
  · refine Except.foldlM_error (fun best candidate cause worse => ?_) failed
    unfold better at worse
    split at worse <;> cases worse
    simp

/-- Aggregates fail for the types of their operands only. -/
theorem apply_error (failed : aggregate.apply operands = .error error) : error.IsShallow := by
  unfold apply at failed
  split at failed
  · cases failed
  · cases aggregate with
    | and => cases failed
    | or => cases failed
    | concat => cases failed
    | min => exact extremum_error failed
    | max => exact extremum_error failed
    | divide => exact quotient_error failed
    | add => exact arithmetic_error failed
    | subtract => exact arithmetic_error failed
    | multiply => exact arithmetic_error failed

end Aggregate

end Statute
