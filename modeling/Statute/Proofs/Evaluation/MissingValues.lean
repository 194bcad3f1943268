/-
This file proves that traces explain exactly which answers lack a required value.
-/

import Statute.Proofs.Evaluation.RuleTrace

namespace Statute

/-- A rule explains its answer when all answers to its calls are explained. -/
theorem Rule.evaluate_explained {rule : Rule} {provider : Provider} {claims : Option ClaimLookup}
    {sources : Entries Source} {request : Request} {date : Date} {shared after : Shared}
    {outcome : Outcome} (explains : provider.Explains)
    (answered : rule.evaluate provider claims sources request date shared = (.ok outcome, after)) :
    outcome.IsExplained := by
  obtain ⟨trace, last, traced, recorded, accounts, _, missing⟩ := evaluate_recorded answered
  refine ⟨trace, traced, ?_⟩
  have shows : ¬trace.ShowsMissing := fun shows => by
    rw [TraceNode.ShowsMissing, recorded.kind] at shows
    cases shows.1
  have nodes : trace.nodes = TraceNode.nodesBelow [trace] := by
    rw [TraceNode.nodesBelow, TraceNode.nodesBelow, List.append_nil]
  have clear : ¬(Progress.start shared).missingRequired = true := Bool.false_ne_true
  rw [missing, accounts.missing explains, or_iff_right clear, nodes,
    TraceNode.exists_showsMissing_singleton, or_iff_right shows]

/-- An answer that lacks a required value has neither outputs nor requirements that are met. -/
theorem Rule.evaluate_voided {rule : Rule} {provider : Provider} {claims : Option ClaimLookup}
    {sources : Entries Source} {request : Request} {date : Date} {shared after : Shared}
    {outcome : Outcome}
    (answered : rule.evaluate provider claims sources request date shared = (.ok outcome, after))
    (missing : outcome.missingRequired = true) :
    outcome.output = [] ∧ outcome.requirementsMet = false := by
  refine ⟨evaluate_missing answered missing, ?_⟩
  obtain ⟨met, last, _, rfl⟩ := evaluate_ok answered
  have flagged : (last.outside (.record (shownOutput last))).missingRequired = true := missing
  rw [outcome, flagged, Bool.not_true, Bool.and_false]

namespace Registry

/-- However deep calls are nested, every answer is explained. -/
theorem provider_explains (registry : Registry) (claims : Option ClaimLookup) (fuel : Nat) :
    (registry.provider claims fuel).Explains := by
  induction fuel with
  | zero => exact fun _ _ _ _ answered => by cases answered
  | succ fuel inductionHypothesis =>
      intro request shared outcome after answered
      obtain ⟨rule, between, answered⟩ := provider_ok answered
      exact Rule.evaluate_explained inductionHypothesis answered

variable {registry : Registry} {claims : Option ClaimLookup} {request : Request}
  {shared after : Shared} {outcome : Outcome}

/-- A required value is missing exactly when the trace, with the traces of all nested calls, has the
node of a required path whose value is null and was not claimed. The answer then has no outputs, and
its requirements are not met. -/
theorem evaluate_missing_iff
    (answered : registry.evaluate claims request shared = (.ok outcome, after)) :
    (∃ trace, outcome.trace = some trace ∧
      (outcome.missingRequired = true ↔ ∃ node ∈ trace.nodes, node.ShowsMissing)) ∧
    (outcome.missingRequired = true → outcome.output = [] ∧ outcome.requirementsMet = false) := by
  refine ⟨registry.provider_explains claims _ _ _ _ _ answered, ?_⟩
  obtain ⟨rule, between, answered⟩ := provider_ok answered
  exact Rule.evaluate_voided answered

/-- The tax office lacks the income, which must be declared, so the supplement lacks it too. -/
theorem evaluate_missing_iff_supplement :
    ∃ outcome after trace,
      supplementRegistry.evaluate none (supplementRequest true) .initial = (.ok outcome, after) ∧
      outcome.missingRequired = true ∧ outcome.trace = some trace ∧
      (∃ node ∈ trace.nodes, node.ShowsMissing) ∧ outcome.output = [] ∧
      outcome.requirementsMet = false := by
  have lacks : (supplementRegistry.evaluate none (supplementRequest true)
      .initial).1.toOption.map Outcome.missingRequired = some true := by
    decide +kernel
  obtain ⟨outcome, after, answered, missing⟩ := Outcome.of_shown lacks
  obtain ⟨⟨trace, traced, explained⟩, voided⟩ := evaluate_missing_iff answered
  obtain ⟨noOutput, unmet⟩ := voided missing
  exact ⟨outcome, after, trace, answered, missing, traced, explained.mp missing, noOutput, unmet⟩

end Registry

end Statute
