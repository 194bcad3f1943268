/-
This file proves that an answer with a missing required value has no output.
-/

import Statute.Proofs.Evaluation.Run
import Statute.Service.Registry

namespace Statute

/-- An answer that shows something is no failure. -/
theorem Outcome.of_shown {α : Type} {answer : Except EvaluationError Outcome × Shared}
    {view : Outcome → α} {shown : α} (shows : answer.1.toOption.map view = some shown) :
    ∃ outcome shared, answer = (.ok outcome, shared) ∧ view outcome = shown := by
  obtain ⟨result, shared⟩ := answer
  cases result with
  | error cause => cases shows
  | ok outcome => exact ⟨outcome, shared, rfl, Option.some.inj shows⟩

namespace Rule

/-- The outputs that an evaluation shows in the end. -/
def shownOutput (progress : Progress) : Record :=
  if progress.missingRequired then [] else progress.outputs

variable {rule : Rule} {requested : Option String} {surroundings : Surroundings}

theorem runRequired_met {order : List Action}
    (ordered : ActionOrder.required rule.actions requested = .ok order) :
    rule.runRequired requested true = rule.runActions order := by
  simp [runRequired, ordered]

/-- The requirements come first, then the actions, and the outputs are shown in the end. -/
theorem runFrom_runParts (rule : Rule) (requested : Option String) (surroundings : Surroundings)
    (progress : Progress) :
    (rule.runParts requested).runFrom surroundings progress =
      match rule.checkRequirements.runFrom surroundings progress with
      | (.error cause, between) => (.error cause, between)
      | (.ok met, between) =>
          match (rule.runRequired requested met).runFrom surroundings between with
          | (.error cause, after) => (.error cause, after)
          | (.ok _, after) => (.ok (met, shownOutput after), after) := by
  rw [runParts, Evaluation.runFrom_bind]
  cases rule.checkRequirements.runFrom surroundings progress with
  | mk checked between =>
      cases checked with
      | error cause => rfl
      | ok met =>
          dsimp only
          rw [Evaluation.runFrom_bind]
          cases (rule.runRequired requested met).runFrom surroundings between with
          | mk done after => cases done <;> rfl

/-- The answer is read off the progress in which the outermost node ends. -/
theorem runFrom_run (rule : Rule) (requested : Option String) (surroundings : Surroundings)
    (progress : Progress) :
    (rule.run requested).runFrom surroundings progress =
      match (rule.runParts requested).runFrom surroundings
          (progress.inside (rule.rootNode surroundings.date)) with
      | (.error cause, between) => (.error cause, between)
      | (.ok parts, between) =>
          let after := between.outside (.record parts.2)
          (.ok (rule.outcome parts.1 parts.2 after), after) := by
  rw [run, Evaluation.runFrom_bind, Evaluation.runFrom_today]
  dsimp only
  rw [Evaluation.runFrom_bind, Evaluation.runFrom_inNode]
  cases (rule.runParts requested).runFrom surroundings
      (progress.inside (rule.rootNode surroundings.date)) with
  | mk result between => cases result <;> rfl

/-- The second part of the result of all parts is what is shown in the end. -/
theorem runParts_ok {progress after : Progress} {parts : Bool × Record}
    (ran : (rule.runParts requested).runFrom surroundings progress = (.ok parts, after)) :
    parts.2 = shownOutput after := by
  rw [runFrom_runParts] at ran
  split at ran
  · cases ran
  · split at ran
    · cases ran
    · cases ran
      rfl

/-- The requirements of an answer are met exactly when they hold and the actions end without a
missing value. -/
theorem evaluate_met_iff {provider : Provider} {claims : Option ClaimLookup}
    {sources : Entries Source} {request : Request} {date : Date} {shared : Shared}
    {output : Record} :
    (∃ outcome, (rule.evaluate provider claims sources request date shared).1 = .ok outcome ∧
        outcome.requirementsMet = true ∧ outcome.output = output) ↔
      ∃ between order after,
        rule.checkRequirements.runFrom (rule.surroundings provider claims sources request date)
          ((Progress.start shared).inside (rule.rootNode date)) = (.ok true, between) ∧
        ActionOrder.required rule.actions request.requested = .ok order ∧
        (rule.runActions order).runFrom (rule.surroundings provider claims sources request date)
          between = (.ok (), after) ∧
        after.missingRequired = false ∧ after.outputs = output := by
  have evaluated : (rule.evaluate provider claims sources request date shared).1 =
      ((rule.run request.requested).runFrom
        (rule.surroundings provider claims sources request date) (Progress.start shared)).1 := rfl
  have today : (rule.surroundings provider claims sources request date).date = date := rfl
  rw [evaluated, runFrom_run, runFrom_runParts, today]
  cases rule.checkRequirements.runFrom (rule.surroundings provider claims sources request date)
      ((Progress.start shared).inside (rule.rootNode date)) with
  | mk checked between =>
      cases checked with
      | error cause => simp
      | ok met =>
          cases met with
          | false => simp [runRequired, outcome]
          | true =>
              cases ordered : ActionOrder.required rule.actions request.requested with
              | error cause => simp [runRequired, ordered]
              | ok order =>
                  dsimp only
                  rw [runRequired_met ordered]
                  cases acted : (rule.runActions order).runFrom
                      (rule.surroundings provider claims sources request date) between with
                  | mk done after =>
                      have flag (result : Value) :
                          (after.outside result).missingRequired = after.missingRequired := rfl
                      cases done with
                      | error cause => simp [acted]
                      | ok done =>
                          cases missing : after.missingRequired <;>
                            simp [outcome, flag, missing, shownOutput, acted]

/-- An answer shows the verdict on the requirements and the outputs in which all parts end. -/
theorem evaluate_ok {provider : Provider} {claims : Option ClaimLookup}
    {sources : Entries Source} {request : Request} {date : Date} {shared after : Shared}
    {outcome : Outcome}
    (answered : rule.evaluate provider claims sources request date shared = (.ok outcome, after)) :
    ∃ met last,
      (rule.runParts request.requested).runFrom
        (rule.surroundings provider claims sources request date)
        ((Progress.start shared).inside (rule.rootNode date)) = (.ok (met, shownOutput last), last) ∧
      outcome = rule.outcome met (shownOutput last) (last.outside (.record (shownOutput last))) := by
  have today : (rule.surroundings provider claims sources request date).date = date := rfl
  rw [evaluate, runFrom_run, today] at answered
  split at answered
  rename_i result progress ran
  obtain ⟨rfl, _⟩ := Prod.mk.inj answered
  split at ran
  · cases ran
  · rename_i parts last parted
    obtain ⟨met, output⟩ := parts
    obtain rfl : output = shownOutput last := runParts_ok parted
    cases ran
    exact ⟨met, last, parted, rfl⟩

theorem evaluate_missing {provider : Provider} {claims : Option ClaimLookup}
    {sources : Entries Source} {request : Request} {date : Date} {shared after : Shared}
    {outcome : Outcome}
    (answered : rule.evaluate provider claims sources request date shared = (.ok outcome, after))
    (missing : outcome.missingRequired = true) : outcome.output = [] := by
  obtain ⟨met, last, _, rfl⟩ := evaluate_ok answered
  have flagged : last.missingRequired = true := missing
  simp [outcome, shownOutput, flagged]

end Rule

namespace Registry

/-- An answer is the answer of a rule whose calls may nest a little less deep. -/
theorem provider_ok {registry : Registry} {claims : Option ClaimLookup} {fuel : Nat}
    {request : Request} {shared after : Shared} {outcome : Outcome}
    (answered : registry.provider claims (fuel + 1) request shared = (.ok outcome, after)) :
    ∃ (rule : Rule) (between : Shared),
      rule.evaluate (registry.provider claims fuel) claims (registry.tablesOf request.service) request
        (request.date.getD registry.rootDate) between = (.ok outcome, after) := by
  rw [provider] at answered
  split at answered
  · cases answered
  · split at answered
    · unfold evaluateLaw at answered
      split at answered
      · cases answered
      · rename_i rule between _
        exact ⟨rule, between, answered⟩
    · cases answered

/-- However deep a call is nested, an answer with a missing required value has no output. -/
theorem provider_missing {registry : Registry} {claims : Option ClaimLookup} {fuel : Nat}
    {request : Request} {shared after : Shared} {outcome : Outcome}
    (answered : registry.provider claims fuel request shared = (.ok outcome, after))
    (missing : outcome.missingRequired = true) : outcome.output = [] := by
  cases fuel with
  | zero => cases answered
  | succ fuel =>
      obtain ⟨rule, between, answered⟩ := provider_ok answered
      exact Rule.evaluate_missing answered missing

end Registry

end Statute
