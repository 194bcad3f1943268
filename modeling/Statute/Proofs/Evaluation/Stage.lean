/-
This file takes the run of all actions of a rule apart into the runs of single actions.
-/

import Statute.Proofs.Evaluation.Actions
import Statute.Proofs.Evaluation.Isolation
import Statute.Proofs.Evaluation.Memo

namespace Statute

namespace TraceNode

/-- The names that were read below a node where an output could have given the value. -/
def reads (node : TraceNode) : List String :=
  node.notes.filterMap fun note =>
    match note with
    | .read name => some name
    | .call _ => none

theorem mem_reads {node : TraceNode} {name : String} :
    name ∈ node.reads ↔ .read name ∈ node.notes := by
  rw [reads, List.mem_filterMap]
  constructor
  · rintro ⟨note, member, shown⟩
    cases note with
    | call record => cases shown
    | read other =>
        cases shown
        exact member
  · intro member
    exact ⟨_, member, rfl⟩

end TraceNode

namespace Progress

/-- The nodes of an action in the trace. -/
def nodesOf (action : Action) (progress : Progress) : List TraceNode :=
  (progress.openNodes.flatMap TraceNode.children).filter fun node =>
    node.kind = .action ∧ node.name = (Rule.actionNode action).name

/-- The names that an action read where an output could have given the value. -/
def readsOf (action : Action) (progress : Progress) : List String :=
  (progress.nodesOf action).flatMap TraceNode.reads

end Progress

/-- The outputs of the actions that are done are as they are in the end, and there are no others. -/
structure HoldsOutputs (final : Record) (done : Action → Prop) (outputs : Record) : Prop where
  given : ∀ action, done action →
    Entries.get? action.output outputs = Entries.get? action.output final
  others : ∀ name, (∀ action, done action → action.output ≠ name) →
    Entries.get? name outputs = none

namespace HoldsOutputs

variable {final outputs : Record} {done : Action → Prop}

theorem congr {same : Action → Prop} (holds : HoldsOutputs final done outputs)
    (equal : ∀ action, same action ↔ done action) : HoldsOutputs final same outputs := by
  obtain rfl : same = done := funext fun action => propext (equal action)
  exact holds

/-- An action that ends adds its output. -/
theorem insert (holds : HoldsOutputs final done outputs) {action : Action} {value : Value}
    (isSet : Entries.get? action.output final = some value) :
    HoldsOutputs final (fun other => other = action ∨ done other)
      (Entries.insert action.output value outputs) := by
  constructor
  · rintro other (rfl | earlier)
    · rw [Entries.get?_insert, if_pos rfl, isSet]
    · rw [Entries.get?_insert]
      split
      · rename_i same
        rw [same, isSet]
      · exact holds.given other earlier
  · intro name absent
    have different : name ≠ action.output := fun same => absent action (.inl rfl) same.symm
    rw [Entries.get?_insert, if_neg different]
    exact holds.others name fun other earlier => absent other (.inr earlier)

/-- Two sets of outputs agree on a name whose actions are done in both. -/
theorem agree {others : Record} {doneThere : Action → Prop} (holds : HoldsOutputs final done outputs)
    (holdsThere : HoldsOutputs final doneThere others) {name : String}
    (both : ∀ action, done action ∨ doneThere action → action.output = name →
      done action ∧ doneThere action) :
    Entries.get? name others = Entries.get? name outputs := by
  by_cases isGiven : ∃ action, (done action ∨ doneThere action) ∧ action.output = name
  · obtain ⟨action, isDone, rfl⟩ := isGiven
    obtain ⟨here, there⟩ := both action isDone rfl
    rw [holds.given action here, holdsThere.given action there]
  · have absent (action : Action) (isDone : done action ∨ doneThere action) :
        action.output ≠ name := fun same => isGiven ⟨action, isDone, same⟩
    rw [holds.others name fun action isDone => absent action (.inl isDone),
      holdsThere.others name fun action isDone => absent action (.inr isDone)]

end HoldsOutputs

namespace Rule

/-- The actions that are declared before the action of an output. -/
def declaredBefore (actions : List Action) (action : Action) : List Action :=
  actions.takeWhile fun other => other.output != action.output

theorem declaredBefore_subset (actions : List Action) (action : Action) :
    declaredBefore actions action ⊆ actions :=
  (List.takeWhile_prefix _).subset

/-- The run of an action in the evaluation of all actions, with the action's node open alone. -/
structure Stage (rule : Rule) (surroundings : Surroundings) (last : Progress) (done : Action → Prop)
    (action : Action) (raw : Value) (progress after : Progress) : Prop where
  nodes : progress.openNodes = []
  scope : progress.scope = []
  memoless : progress.memo = none
  outputs : HoldsOutputs last.outputs done progress.outputs
  ran : (rawValue action).runFrom surroundings (progress.inside (actionNode action)) =
    (.ok raw, after)
  clear : after.missingRequired = false
  output : Entries.get? action.output last.outputs = some (rule.fitted action raw)
  notes : after.notes ⊆ last.notes
  reads : ∀ name, .read name ∈ after.notes → name ∈ last.readsOf action

variable {rule : Rule} {surroundings : Surroundings} {start last : Progress} {root : TraceNode}
  {done : Action → Prop}

/-- The progress with no node open. -/
def alone (progress : Progress) : Progress :=
  { progress with openNodes := [] }

/-- The run of an action with its node open alone ends with a node that goes below the node around
it in the run of all actions. -/
theorem runAction_alone (quiet : surroundings.cancellation = .none) {action : Action}
    {value : Value} {between : Progress} (nodes : start.openNodes = [root])
    (ran : (rule.runAction action).runFrom surroundings start = (.ok value, between)) :
    ∃ raw after grown,
      (rawValue action).runFrom surroundings ((alone start).inside (actionNode action)) =
        (.ok raw, after) ∧
      after.openNodes = [grown] ∧ (actionNode action).Grows grown ∧
      rule.fitted action raw = value ∧
      between.openNodes = [root.withChild { grown with result := value }] ∧
      between.missingRequired = after.missingRequired := by
  have surrounded : ((alone start).inside (actionNode action)).around [root] =
      start.inside (actionNode action) := by
    simp [Progress.around, Progress.inside, alone, nodes]
  rw [runFrom_runAction quiet, ← surrounded,
    (Isolated.congruence.rawValue action).surrounded _ _ _ (List.cons_ne_nil _ _)] at ran
  cases isolated : (rawValue action).runFrom surroundings
      ((alone start).inside (actionNode action)) with
  | mk result after =>
      rw [isolated] at ran
      cases result with
      | error cause => cases ran
      | ok raw =>
          cases ran
          obtain ⟨grown, opened, grows⟩ := rawValue_opens isolated
          obtain opened : after.openNodes = [grown] := opened
          refine ⟨raw, after, grown, rfl, opened, grows, rfl, ?_, rfl⟩
          simp [afterAction, Progress.outside, Progress.withOutput, Progress.around, opened,
            Evaluation.closeNode]

/-- The node of an action says what its run noted. -/
theorem notes_actionNode {action : Action} {after : Progress} {grown : TraceNode}
    (opened : after.openNodes = [grown]) (grows : (actionNode action).Grows grown)
    (result : Value) : ({ grown with result } : TraceNode).notes = after.notes := by
  have noCall : ({ grown with result } : TraceNode).kind ≠ .serviceEvaluation := by
    have kind : ({ grown with result } : TraceNode).kind = (actionNode action).kind := grows.kind
    rw [kind]
    exact (actionNode_isPlain action).noCall
  rw [TraceNode.notes_eq_openNotes noCall, Progress.notes, opened, List.flatMap_cons,
    List.flatMap_nil, List.append_nil]
  rfl

/-- A node below the outermost one stays there, with all that it says. -/
theorem child_stays {between : Progress} {child : TraceNode}
    (closed : between.openNodes = [root.withChild child]) (stays : between.Stays last) :
    (∃ finalRoot, last.openNodes = [finalRoot] ∧ child ∈ finalRoot.children) ∧
      child.notes ⊆ between.notes := by
  obtain ⟨finalRoot, nodes, grows⟩ := stays _ _ closed
  obtain ⟨added, children⟩ := grows.children
  refine ⟨⟨finalRoot, nodes, by rw [children]; simp [TraceNode.withChild]⟩, ?_⟩
  rw [Progress.notes, closed, List.flatMap_cons, TraceNode.openNotes_withChild]
  exact fun note member => List.mem_append_left _ (List.mem_append_right _ member)

/-- The first of the actions that remain has its stage, when they all run. -/
theorem runAction_stage (quiet : surroundings.cancellation = .none) {action : Action}
    {value : Value} {between : Progress} {rest : List Action}
    (first : (rule.runAction action).runFrom surroundings start = (.ok value, between))
    (ran : (rule.runActions rest).runFrom surroundings between = (.ok (), last))
    (clear : last.missingRequired = false) (new : action.output ∉ rest.map Action.output)
    (nodes : start.openNodes = [root]) (scope : start.scope = []) (memoless : start.memo = none)
    (holds : HoldsOutputs last.outputs done start.outputs) :
    Entries.get? action.output last.outputs = some value ∧
      (∃ node, between.openNodes = [node]) ∧
      ∃ raw progress after, rule.Stage surroundings last done action raw progress after := by
  have output : Entries.get? action.output last.outputs = some value := by
    rw [runActions_outputs ran new, runAction_outputs first, Entries.get?_insert,
      if_pos rfl]
  obtain ⟨raw, after, grown, isolated, opened, grows, rfl, closed, flag⟩ :=
    runAction_alone quiet nodes first
  have own := notes_actionNode opened grows (rule.fitted action raw)
  obtain ⟨⟨finalRoot, finalNodes, isChild⟩, kept⟩ :=
    child_stays closed (runActions_stays ran)
  have finishes := runActions_advances quiet rule rest between
  rw [ran] at finishes
  refine ⟨output, ⟨_, closed⟩, raw, alone start, after, rfl, scope, memoless, holds, isolated, ?_,
    output, ?_, ?_⟩
  · rw [← flag]
    exact finishes.missing_false clear
  · rw [← own]
    exact fun note member => finishes.notes (kept member)
  · intro name isRead
    refine List.mem_flatMap.mpr ⟨{ grown with result := rule.fitted action raw }, ?_, ?_⟩
    · rw [Progress.nodesOf, finalNodes, List.mem_filter]
      have kind : grown.kind = .action := grows.kind
      have name : grown.name = (actionNode action).name := grows.name
      exact ⟨by simpa using isChild, by simp [kind, name]⟩
    · rw [TraceNode.mem_reads, own]
      exact isRead

/-- Every action has its stage in a run of all actions that misses nothing. -/
theorem runActions_stage (quiet : surroundings.cancellation = .none) {todo : List Action}
    (ran : (rule.runActions todo).runFrom surroundings start = (.ok (), last))
    (clear : last.missingRequired = false) (distinct : (todo.map Action.output).Nodup)
    (nodes : start.openNodes = [root]) (scope : start.scope = []) (memoless : start.memo = none)
    (holds : HoldsOutputs last.outputs done start.outputs) {action : Action}
    (member : action ∈ todo) :
    ∃ raw progress after, rule.Stage surroundings last
      (fun other => other ∈ declaredBefore todo action ∨ done other) action raw progress after := by
  induction todo generalizing start root done with
  | nil => cases member
  | cons next rest inductionHypothesis =>
      obtain ⟨new, distinctRest⟩ := List.nodup_cons.mp distinct
      have advances := runActions_advances quiet rule (next :: rest) start
      rw [ran] at advances
      have unmissed := advances.missing_false clear
      rw [runFrom_runActions_cons, unmissed, if_neg (by decide)] at ran
      have kept := runAction_advances quiet rule next start
      cases first : (rule.runAction next).runFrom surroundings start with
      | mk result between =>
          rw [first] at ran kept
          cases result with
          | error cause => cases ran
          | ok value =>
              obtain ⟨output, ⟨node, opened⟩, raw, progress, after, stage⟩ :=
                runAction_stage quiet first ran clear new nodes scope memoless holds
              rcases List.mem_cons.mp member with rfl | later
              · refine ⟨raw, progress, after, { stage with outputs := stage.outputs.congr ?_ }⟩
                simp [declaredBefore]
              · have different : (next.output != action.output) = true := by
                  rw [bne_iff_ne]
                  intro same
                  exact new (same ▸ List.mem_map_of_mem later)
                have holdsOn := holds.insert output
                rw [← runAction_outputs first] at holdsOn
                obtain ⟨raw, progress, after, stage⟩ := inductionHypothesis ran distinctRest opened
                  (kept.scope.trans scope) (kept.memoless memoless) holdsOn later
                refine ⟨raw, progress, after, { stage with outputs := stage.outputs.congr ?_ }⟩
                intro other
                simp [declaredBefore, different, or_assoc, or_left_comm]

end Rule

end Statute
