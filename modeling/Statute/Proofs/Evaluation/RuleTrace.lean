/-
This file proves that the trace of a rule is a faithful record of its evaluation.
-/

import Statute.Proofs.Evaluation.Delegation
import Statute.Proofs.Evaluation.Tracing

namespace Statute

/-- The node of an action that gave a value. -/
def Action.HasNode (action : Action) (node : TraceNode) : Prop :=
  node.kind = .action ∧ node.name = "Evaluate action for " ++ action.output

theorem Action.kind_of_hasNode {actions : List Action} {nodes : List TraceNode}
    (haveNodes : List.Forall₂ Action.HasNode actions nodes) : ∀ node ∈ nodes, node.kind = .action := by
  induction haveNodes with
  | nil => exact nofun
  | cons hasNode _ inductionHypothesis => exact List.forall_mem_cons.mpr ⟨hasNode.1, inductionHypothesis⟩

/-- The outputs that the nodes of actions show. -/
def Action.shownOutputs (actions : List Action) (nodes : List TraceNode) : List (String × Value) :=
  List.zipWith (fun action node => (action.output, node.result)) actions nodes

namespace Rule

variable {rule : Rule} {action : Action} {surroundings : Surroundings} {progress after : Progress}

/-- An action adds its node, which shows its output. -/
theorem runAction_records {value : Value}
    (ran : (rule.runAction action).runFrom surroundings progress = (.ok value, after))
    (opened : progress.openNodes ≠ []) :
    ∃ node, action.HasNode node ∧ node.result = value ∧
      Records surroundings.provider progress after [node] := by
  obtain ⟨raw, between, valued, rfl, rfl⟩ := runAction_ok ran
  obtain ⟨added, records⟩ := Traced.congruence.rawValue action _ _ _ _ valued (List.cons_ne_nil _ _)
  have withOutput : Records surroundings.provider (progress.inside (actionNode action))
      (between.withOutput action.output (rule.fitted action raw)) added :=
    ⟨⟨records.resolved, records.missing⟩, records.nodes⟩
  obtain ⟨details, ended⟩ :=
    withOutput.ended (actionNode_isPlain action) opened (rule.fitted action raw)
  exact ⟨_, ⟨rfl, rfl⟩, rfl, ended⟩

/-- Actions add their nodes in their order, up to the first that lacks a required value. -/
theorem runActions_records {actions : List Action}
    (ran : (rule.runActions actions).runFrom surroundings progress = (.ok (), after))
    (opened : progress.openNodes ≠ []) :
    ∃ done rest nodes, actions = done ++ rest ∧ List.Forall₂ Action.HasNode done nodes ∧
      after.outputs = Entries.merge progress.outputs (Action.shownOutputs done nodes) ∧
      (after.missingRequired = false → rest = []) ∧
      Records surroundings.provider progress after nodes := by
  -- An action that is left out is one before which a value was already missing.
  induction actions generalizing progress with
  | nil =>
      cases ran
      exact ⟨[], [], [], rfl, .nil, rfl, fun _ => rfl, .ofSame opened rfl rfl rfl⟩
  | cons action rest inductionHypothesis =>
      rw [runFrom_runActions_cons] at ran
      split at ran
      · rename_i missing
        cases ran
        refine ⟨[], action :: rest, [], rfl, .nil, rfl, fun clear => ?_, .ofSame opened rfl rfl rfl⟩
        rw [missing] at clear
        cases clear
      · split at ran
        · rename_i value between acted
          obtain ⟨node, hasNode, shows, records⟩ := runAction_records acted opened
          obtain ⟨done, left, nodes, rfl, haveNodes, outputs, finished, recordsRest⟩ :=
            inductionHypothesis ran records.opened
          refine ⟨action :: done, left, node :: nodes, rfl, .cons hasNode haveNodes, ?_, finished,
            records.trans recordsRest⟩
          rw [outputs, runAction_outputs acted, ← shows]
          rfl
        · cases ran

/-- The requirements add their node, which shows the verdict. -/
theorem checkRequirements_records {met : Bool}
    (ran : rule.checkRequirements.runFrom surroundings progress = (.ok met, after))
    (opened : progress.openNodes ≠ []) :
    ∃ node, node.kind = .requirements ∧ node.result = .bool met ∧
      Records surroundings.provider progress after [node] := by
  rw [checkRequirements_eq, Evaluation.runFrom_inNode] at ran
  split at ran
  · rename_i between checked
    cases ran
    obtain ⟨added, records⟩ :=
      Traced.congruence.requirementsHold rule _ _ _ _ checked (List.cons_ne_nil _ _)
    obtain ⟨details, ended⟩ := records.ended requirementsNode_isPlain opened (.bool met)
    exact ⟨_, rfl, rfl, ended⟩
  · cases ran

/-- All parts add the node of the requirements and nodes of actions. These are the nodes of all
actions that are required, and show all outputs, if nothing is missing. -/
theorem runParts_records {requested : Option String} {parts : Bool × Record}
    (ran : (rule.runParts requested).runFrom surroundings progress = (.ok parts, after))
    (opened : progress.openNodes ≠ []) :
    ∃ requirements actions, requirements.kind = .requirements ∧
      requirements.result = .bool parts.1 ∧ (∀ node ∈ actions, node.kind = .action) ∧
      Records surroundings.provider progress after (requirements :: actions) ∧
      (parts.1 = true → after.missingRequired = false →
        ∃ order, ActionOrder.required rule.actions requested = .ok order ∧
          List.Forall₂ Action.HasNode order actions ∧
          after.outputs = Entries.merge progress.outputs (Action.shownOutputs order actions)) := by
  rw [runFrom_runParts] at ran
  split at ran
  · cases ran
  · rename_i met between checked
    have outputs := (Bounded.congruence.checkRequirements rule).grows surroundings progress
    rw [checked] at outputs
    have outputs := outputs.outputs
    obtain ⟨requirements, isRequirements, verdict, records⟩ :=
      checkRequirements_records checked opened
    split at ran
    · cases ran
    · rename_i done last acted
      cases ran
      cases met with
      | false =>
          cases acted
          exact ⟨requirements, [], isRequirements, verdict, nofun, records, nofun⟩
      | true =>
          cases ordered : ActionOrder.required rule.actions requested with
          | error cause =>
              simp only [runRequired, ordered, if_true] at acted
              cases acted
          | ok order =>
              rw [runRequired_met ordered] at acted
              obtain ⟨done, rest, nodes, rfl, haveNodes, shown, finished, recordsActions⟩ :=
                runActions_records acted records.opened
              refine ⟨requirements, nodes, isRequirements, verdict,
                Action.kind_of_hasNode haveNodes, records.trans recordsActions, fun _ clear => ?_⟩
              obtain rfl := finished clear
              rw [List.append_nil]
              exact ⟨done, rfl, haveNodes, by rw [shown, outputs]⟩

/-- The outermost node ends as the whole trace. -/
theorem trace_outside {provider : Provider} {shared : Shared} {node : TraceNode}
    {last : Progress} {added : List TraceNode} (isLeaf : node.children = [])
    (records : Records provider ((Progress.start shared).inside node) last added) (result : Value) :
    ∃ details, (last.outside result).trace = some { node with details, children := added, result } := by
  obtain ⟨details, nodes⟩ := records.inside isLeaf
  have closed : (last.outside result).openNodes =
      [{ node with details, children := added, result }] := by
    rw [Progress.outside, nodes]
    rfl
  exact ⟨details, by rw [Progress.trace, closed, Progress.closeAll]⟩

variable {provider : Provider} {claims : Option ClaimLookup} {sources : Entries Source}
  {request : Request} {date : Date} {shared sharedAfter : Shared} {outcome : Outcome}

/-- A trace records an answer: below its root are the node of the requirements and then nodes of
actions only. These are the nodes of the required actions, and they show all outputs, where the
requirements hold and nothing is missing. -/
structure IsRecordedBy (rule : Rule) (request : Request) (outcome : Outcome) (trace : TraceNode) :
    Prop where
  kind : trace.kind = .root
  result : trace.result = .record outcome.output
  children : ∃ requirements actions, trace.children = requirements :: actions ∧
    requirements.kind = .requirements ∧ (∀ node ∈ actions, node.kind = .action) ∧
    (∃ met, requirements.result = .bool met ∧
      outcome.requirementsMet = (met && !outcome.missingRequired)) ∧
    (requirements.result = .bool true → outcome.missingRequired = false →
      ∃ order, ActionOrder.required rule.actions request.requested = .ok order ∧
        List.Forall₂ Action.HasNode order actions ∧
        outcome.output = Entries.ofList (Action.shownOutputs order actions))

/-- The trace of an answer records it, and accounts for what was resolved and for what is missing. -/
theorem evaluate_recorded
    (answered : rule.evaluate provider claims sources request date shared =
      (.ok outcome, sharedAfter)) :
    ∃ trace last, outcome.trace = some trace ∧ rule.IsRecordedBy request outcome trace ∧
      Accounts provider (Progress.start shared) last trace.children ∧
      outcome.input = last.resolved ∧ outcome.missingRequired = last.missingRequired := by
  obtain ⟨met, last, parted, rfl⟩ := evaluate_ok answered
  obtain ⟨requirements, actions, isRequirements, verdict, areActions, records, finished⟩ :=
    runParts_records parted (List.cons_ne_nil _ _)
  obtain ⟨details, traced⟩ := trace_outside rfl records (.record (shownOutput last))
  refine ⟨_, last, traced, ⟨rfl, rfl, requirements, actions, rfl, isRequirements, areActions,
    ⟨met, verdict, rfl⟩, fun held clear => ?_⟩, ⟨records.resolved, records.missing⟩, rfl, rfl⟩
  rw [verdict, Value.bool.injEq] at held
  have clear : last.missingRequired = false := clear
  obtain ⟨order, ordered, haveNodes, outputs⟩ := finished held clear
  have shown : shownOutput last = last.outputs := by simp [shownOutput, clear]
  exact ⟨order, ordered, haveNodes, shown.trans outputs⟩

/-- The trace of an answer records it, and the input is what its nodes resolved, in the order in
which they ended: on this side of calls and, where all traces of the provider have roots, on this side
of these roots. -/
theorem evaluate_trace
    (answered : rule.evaluate provider claims sources request date shared =
      (.ok outcome, sharedAfter)) :
    ∃ trace, outcome.trace = some trace ∧ rule.IsRecordedBy request outcome trace ∧
      outcome.input = Entries.ofList (TraceNode.readings .serviceEvaluation trace.children) ∧
      (provider.GivesRoots →
        outcome.input = Entries.ofList (TraceNode.readings .root trace.children)) := by
  obtain ⟨trace, last, traced, recorded, accounts, input, _⟩ := evaluate_recorded answered
  rw [input]
  exact ⟨trace, traced, recorded, accounts.resolved _ (.inl rfl),
    fun rooted => accounts.resolved _ (.inr ⟨rfl, rooted⟩)⟩

end Rule

/-- All traces of a registry have roots. -/
theorem Registry.provider_givesRoots (registry : Registry) (claims : Option ClaimLookup) (fuel : Nat) :
    (registry.provider claims fuel).GivesRoots := by
  intro request shared outcome after trace answered traced
  cases fuel with
  | zero => cases answered
  | succ fuel =>
      obtain ⟨rule, between, answered⟩ := provider_ok answered
      obtain ⟨root, _, rooted, recorded, _⟩ := Rule.evaluate_recorded answered
      rw [traced] at rooted
      cases rooted
      exact recorded.kind

/-- The income that a person claims to have declared. -/
def declaredIncome : ClaimLookup :=
  fun _ _ law _ => if law = "awir" then [("declared", .int 100)] else []

/-- The supplement resolves the income. What the tax office resolved for it is behind the call. -/
theorem Rule.evaluate_trace_supplement :
    let provider := supplementRegistry.provider (some declaredIncome) 2
    let request := supplementRequest true
    ∃ outcome sharedAfter trace,
      supplementRule.evaluate provider (some declaredIncome) [] request default .initial =
        (.ok outcome, sharedAfter) ∧
      outcome.missingRequired = false ∧ outcome.input.map Prod.fst = ["income"] ∧
      outcome.trace = some trace ∧ supplementRule.IsRecordedBy request outcome trace ∧
      provider.GivesRoots ∧
      outcome.input = Entries.ofList (TraceNode.readings .serviceEvaluation trace.children) ∧
      outcome.input = Entries.ofList (TraceNode.readings .root trace.children) := by
  intro provider request
  have shows : (supplementRule.evaluate provider (some declaredIncome) [] request default
      .initial).1.toOption.map (fun outcome =>
        (outcome.missingRequired, outcome.input.map Prod.fst)) = some (false, ["income"]) := by
    decide +kernel
  obtain ⟨outcome, sharedAfter, answered, shown⟩ := Outcome.of_shown shows
  obtain ⟨complete, input⟩ := Prod.mk.inj shown
  have rooted : provider.GivesRoots := supplementRegistry.provider_givesRoots (some declaredIncome) 2
  obtain ⟨trace, traced, recorded, called, resolved⟩ := evaluate_trace answered
  exact ⟨outcome, sharedAfter, trace, answered, complete, input, traced, recorded, rooted, called,
    resolved rooted⟩

end Statute
