/-
This file proves what the run of an action does, and that a run which remembers the values of calls
follows one which makes every call also through requirements and actions.
-/

import Statute.Proofs.Evaluation.Outcome
import Statute.Proofs.Evaluation.Simulation

namespace Statute

namespace Rule

/-- The node of all requirements. -/
def requirementsNode : TraceNode :=
  TraceNode.fresh .requirements "Check all requirements"

theorem requirementsNode_isPlain : requirementsNode.IsPlain :=
  TraceNode.isPlain_fresh _ (by decide) (by decide) (by decide)

/-- The check of all requirements without its node. -/
def requirementsHold (rule : Rule) : Evaluation Bool := do
  let held ← Requirement.checkEach Evaluation.valueOf rule.requirements
  return held && !(← Evaluation.isMissing)

theorem checkRequirements_eq (rule : Rule) : rule.checkRequirements =
    Evaluation.inNode requirementsNode .bool rule.requirementsHold :=
  rfl

end Rule

namespace ValueCongruence

variable {rel : EvaluationRelation} (congruence : ValueCongruence rel)

include congruence

theorem rawValue (action : Action) : rel Value (Rule.rawValue action) (Rule.rawValue action) := by
  refine congruence.bind (congruence.given fun _ _ _ => rfl) fun override => ?_
  split
  · exact congruence.pure _
  · split
    · rename_i expr _
      exact congruence.evaluateExpr expr
    · exact congruence.throw (EvaluationError.isShallow_rule _)

theorem requirementsHold (rule : Rule) :
    rel Bool rule.requirementsHold rule.requirementsHold := by
  refine congruence.bind (congruence.checkEach rule.requirements
    fun _ _ path _ => congruence.valueOf path) fun held => ?_
  exact congruence.bind congruence.isMissing fun missing => congruence.pure _

theorem checkRequirements (rule : Rule) :
    rel Bool rule.checkRequirements rule.checkRequirements :=
  congruence.inNode Value.bool Rule.requirementsNode_isPlain (congruence.requirementsHold rule)

end ValueCongruence

namespace Progress

/-- The progress after an output was set. -/
def withOutput (name : String) (value : Value) (progress : Progress) : Progress :=
  { progress with outputs := Entries.insert name value progress.outputs }

/-- What actions do to the progress: the outputs may change, and everything else is extended. -/
def Advances (before after : Progress) : Prop :=
  Extends { before with outputs := after.outputs } after

namespace Advances

variable {before between after : Progress}

theorem refl (progress : Progress) : progress.Advances progress :=
  Extends.refl progress

theorem trans (first : before.Advances between) (second : between.Advances after) :
    before.Advances after where
  scope := second.scope.trans first.scope
  outputs := rfl
  accessed := fun path accessed => second.accessed path (first.accessed path accessed)
  remembered := fun key value remembered =>
    second.remembered key value (first.remembered key value remembered)
  memoless := fun memoless => second.memoless (first.memoless memoless)
  missing := fun missing => second.missing (first.missing missing)
  notes := fun _ note => second.notes (first.notes note)

theorem missing_false (advances : before.Advances after) (clear : after.missingRequired = false) :
    before.missingRequired = false := by
  cases flag : before.missingRequired with
  | false => rfl
  | true =>
      rw [advances.missing flag] at clear
      cases clear

end Advances

theorem Extends.advances {before after : Progress} (grown : before.Extends after) :
    before.Advances after := by
  rw [Advances, grown.outputs]
  exact grown

theorem withOutput_advances (name : String) (value : Value) (progress : Progress) :
    progress.Advances (progress.withOutput name value) :=
  ⟨rfl, rfl, fun _ accessed => accessed, fun _ _ remembered => remembered,
    fun memoless => memoless, fun missing => missing, fun _ note => note⟩

end Progress

namespace Rule

variable {rule : Rule} {action : Action} {surroundings : Surroundings}

/-- The node of an action. -/
def actionNode (action : Action) : TraceNode :=
  TraceNode.fresh .action ("Evaluate action for " ++ action.output)

theorem actionNode_isPlain (action : Action) : (actionNode action).IsPlain :=
  TraceNode.isPlain_fresh _ (by decide) (by decide) (by decide)

/-- The value of an action's output. -/
def fitted (rule : Rule) (action : Action) (raw : Value) : Value :=
  (rule.outputType action.output).enforce raw

/-- The progress after an action has its value. -/
def afterAction (rule : Rule) (action : Action) (raw : Value) (progress : Progress) : Progress :=
  (progress.withOutput action.output (rule.fitted action raw)).outside (rule.fitted action raw)

/-- The run of an action. -/
theorem runFrom_runAction (quiet : surroundings.cancellation = .none) (rule : Rule)
    (action : Action) (progress : Progress) :
    (rule.runAction action).runFrom surroundings progress =
      match (rawValue action).runFrom surroundings (progress.inside (actionNode action)) with
      | (.ok raw, between) => (.ok (rule.fitted action raw), rule.afterAction action raw between)
      | (.error cause, between) => (.error cause, between) := by
  have unraised : Evaluation.checkCancelled.runFrom surroundings progress = (.ok (), progress) := by
    rw [Evaluation.runFrom_checkCancelled, quiet]
    rfl
  rw [runAction, Evaluation.runFrom_bind_of_ok unraised, Evaluation.runFrom_inNode,
    Evaluation.runFrom_bind, ← actionNode]
  cases (rawValue action).runFrom surroundings (progress.inside (actionNode action)) with
  | mk result between => cases result <;> rfl

/-- An action that gives a value gives the one that its expression has, fitted to its output. -/
theorem runAction_ok {progress after : Progress} {value : Value}
    (ran : (rule.runAction action).runFrom surroundings progress = (.ok value, after)) :
    ∃ raw between,
      (rawValue action).runFrom surroundings (progress.inside (actionNode action)) =
        (.ok raw, between) ∧
      value = rule.fitted action raw ∧ after = rule.afterAction action raw between := by
  rw [runAction, Evaluation.runFrom_bind, Evaluation.runFrom_checkCancelled] at ran
  split at ran
  · rename_i unraised
    obtain ⟨_, rfl⟩ := Prod.mk.inj unraised
    rw [Evaluation.runFrom_inNode] at ran
    split at ran
    · rename_i valued
      cases ran
      obtain ⟨raw, between, opened, rest⟩ := Evaluation.runFrom_bind_ok valued
      cases rest
      exact ⟨raw, between, opened, rfl, rfl⟩
    · cases ran
  · cases ran

/-- What the raw value of an action leaves open is its own node. -/
theorem rawValue_opens {progress between : Progress} {raw : Value}
    (ran : (rawValue action).runFrom surroundings (progress.inside (actionNode action)) =
      (.ok raw, between)) :
    ∃ grown, between.openNodes = grown :: progress.openNodes ∧ (actionNode action).Grows grown :=
  (Bounded.congruence.rawValue action).stays _ _ _ _ ran _ _ rfl

theorem afterAction_advances {progress between : Progress} {raw : Value} (rule : Rule)
    (ran : (rawValue action).runFrom surroundings (progress.inside (actionNode action)) =
      (.ok raw, between)) : between.Advances (rule.afterAction action raw between) := by
  obtain ⟨grown, nodes, grows⟩ := rawValue_opens ran
  have noCall : grown.kind ≠ .serviceEvaluation := by
    rw [grows.kind]
    exact (actionNode_isPlain action).noCall
  let valued := between.withOutput action.output (rule.fitted action raw)
  have nodes : valued.openNodes = grown :: progress.openNodes := nodes
  exact (Progress.withOutput_advances _ _ between).trans
    (Progress.outside_extends nodes noCall (rule.fitted action raw)).advances

theorem rawValue_advances (action : Action) (surroundings : Surroundings) (progress : Progress) :
    progress.Advances
      ((rawValue action).runFrom surroundings (progress.inside (actionNode action))).2 :=
  (Progress.inside_extends (actionNode_isPlain action).silent progress).advances.trans
    ((Bounded.congruence.rawValue action).grows surroundings _).advances

/-- Nothing is lost between the value of an action and its end. -/
theorem runAction_finishes (quiet : surroundings.cancellation = .none) (rule : Rule)
    (action : Action) (progress : Progress) :
    ((rawValue action).runFrom surroundings (progress.inside (actionNode action))).2.Advances
      ((rule.runAction action).runFrom surroundings progress).2 := by
  rw [runFrom_runAction quiet]
  cases ran : (rawValue action).runFrom surroundings (progress.inside (actionNode action)) with
  | mk result between =>
      cases result with
      | error cause => exact .refl between
      | ok raw => exact afterAction_advances rule ran

theorem runAction_advances (quiet : surroundings.cancellation = .none) (rule : Rule)
    (action : Action) (progress : Progress) :
    progress.Advances ((rule.runAction action).runFrom surroundings progress).2 :=
  (rawValue_advances action surroundings progress).trans
    (runAction_finishes quiet rule action progress)

theorem runAction_stays {progress after : Progress} {value : Value}
    (ran : (rule.runAction action).runFrom surroundings progress = (.ok value, after)) :
    progress.Stays after := by
  obtain ⟨raw, between, opened, _, rfl⟩ := runAction_ok ran
  obtain ⟨grown, nodes, _⟩ := rawValue_opens opened
  let valued := between.withOutput action.output (rule.fitted action raw)
  have nodes : valued.openNodes = (grown :: progress.openNodes) := nodes
  exact (Progress.outside_appends nodes (rule.fitted action raw)).stays

/-- An action runs when no required value is missing. -/
theorem runFrom_runActions_cons (rule : Rule) (action : Action) (rest : List Action)
    (progress : Progress) :
    (rule.runActions (action :: rest)).runFrom surroundings progress =
      if progress.missingRequired then (.ok (), progress)
      else
        match (rule.runAction action).runFrom surroundings progress with
        | (.ok _, between) => (rule.runActions rest).runFrom surroundings between
        | (.error cause, between) => (.error cause, between) := by
  rw [runActions, Evaluation.runFrom_bind, Evaluation.runFrom_isMissing]
  dsimp only
  split
  · rfl
  · rw [Evaluation.runFrom_bind]
    cases (rule.runAction action).runFrom surroundings progress with
    | mk result between => cases result <;> rfl

theorem runActions_advances (quiet : surroundings.cancellation = .none) (rule : Rule)
    (actions : List Action) (progress : Progress) :
    progress.Advances ((rule.runActions actions).runFrom surroundings progress).2 := by
  induction actions generalizing progress with
  | nil => exact .refl progress
  | cons action rest inductionHypothesis =>
      have next := runAction_advances quiet rule action progress
      rw [runFrom_runActions_cons]
      split
      · exact .refl progress
      · cases ran : (rule.runAction action).runFrom surroundings progress with
        | mk result between =>
            rw [ran] at next
            cases result with
            | error cause => exact next
            | ok value => exact next.trans (inductionHypothesis between)

theorem runActions_stays {actions : List Action} {progress after : Progress}
    (ran : (rule.runActions actions).runFrom surroundings progress = (.ok (), after)) :
    progress.Stays after := by
  induction actions generalizing progress with
  | nil =>
      cases ran
      exact .refl _
  | cons action rest inductionHypothesis =>
      rw [runFrom_runActions_cons] at ran
      split at ran
      · cases ran
        exact .refl _
      · split at ran
        · rename_i next
          exact (runAction_stays next).trans (inductionHypothesis ran)
        · cases ran

/-- An action sets its own output only. -/
theorem runAction_outputs {progress after : Progress} {value : Value}
    (ran : (rule.runAction action).runFrom surroundings progress = (.ok value, after)) :
    after.outputs = Entries.insert action.output value progress.outputs := by
  obtain ⟨raw, between, opened, rfl, rfl⟩ := runAction_ok ran
  have grows := (Bounded.congruence.rawValue action).grows surroundings
    (progress.inside (actionNode action))
  rw [opened] at grows
  exact congrArg _ grows.outputs

/-- The run of actions changes the outputs of these actions only. -/
theorem runActions_outputs {actions : List Action} {progress after : Progress} {name : String}
    (ran : (rule.runActions actions).runFrom surroundings progress = (.ok (), after))
    (other : name ∉ actions.map Action.output) :
    Entries.get? name after.outputs = Entries.get? name progress.outputs := by
  induction actions generalizing progress with
  | nil =>
      cases ran
      rfl
  | cons action rest inductionHypothesis =>
      rw [List.map_cons, List.mem_cons, not_or] at other
      rw [runFrom_runActions_cons] at ran
      split at ran
      · cases ran
        rfl
      · split at ran
        · rename_i between next
          rw [inductionHypothesis ran other.2, runAction_outputs next, Entries.get?_insert,
            if_neg other.1]
        · cases ran

theorem runRequired_advances (quiet : surroundings.cancellation = .none) (rule : Rule)
    (requested : Option String) (met : Bool) (progress : Progress) :
    progress.Advances ((rule.runRequired requested met).runFrom surroundings progress).2 := by
  cases met with
  | false => exact .refl progress
  | true =>
      cases ordered : ActionOrder.required rule.actions requested with
      | ok order =>
          rw [runRequired_met ordered]
          exact runActions_advances quiet rule order progress
      | error cause =>
          simp only [runRequired, ordered, if_true]
          exact .refl progress

theorem runRequired_stays {requested : Option String} {met : Bool} {progress after : Progress}
    (ran : (rule.runRequired requested met).runFrom surroundings progress = (.ok (), after)) :
    progress.Stays after := by
  cases met with
  | false =>
      cases ran
      exact .refl _
  | true =>
      cases ordered : ActionOrder.required rule.actions requested with
      | ok order =>
          rw [runRequired_met ordered] at ran
          exact runActions_stays ran
      | error cause =>
          simp only [runRequired, ordered, if_true] at ran
          cases ran

/-- What the requirements noted is still there in the end. -/
theorem runParts_notes_requirements (quiet : surroundings.cancellation = .none) (rule : Rule)
    (requested : Option String) (progress : Progress) :
    (rule.checkRequirements.runFrom surroundings progress).2.notes ⊆
      ((rule.runParts requested).runFrom surroundings progress).2.notes := by
  rw [runFrom_runParts]
  cases rule.checkRequirements.runFrom surroundings progress with
  | mk checked between =>
      cases checked with
      | error cause => exact fun _ note => note
      | ok met =>
          have later := (runRequired_advances quiet rule requested met between).notes
          dsimp only
          cases ran : (rule.runRequired requested met).runFrom surroundings between with
          | mk done after =>
              rw [ran] at later
              cases done <;> exact later

/-- All parts end where the actions end. -/
theorem runRequired_progress (requested : Option String) {progress between : Progress} {met : Bool}
    (checked : rule.checkRequirements.runFrom surroundings progress = (.ok met, between)) :
    ((rule.runRequired requested met).runFrom surroundings between).2 =
      ((rule.runParts requested).runFrom surroundings progress).2 := by
  rw [runFrom_runParts, checked]
  dsimp only
  cases (rule.runRequired requested met).runFrom surroundings between with
  | mk done after => cases done <;> rfl

theorem runParts_stays {requested : Option String} {progress after : Progress}
    {parts : Bool × Record}
    (ran : (rule.runParts requested).runFrom surroundings progress = (.ok parts, after)) :
    progress.Stays after := by
  rw [runFrom_runParts] at ran
  split at ran
  · cases ran
  · rename_i met between checked
    split at ran
    · cases ran
    · rename_i done last acted
      cases ran
      exact ((Bounded.congruence.checkRequirements rule).stays _ _ _ _ checked).trans
        (runRequired_stays acted)

/-- What all parts noted is still there when the outermost node has ended. -/
theorem run_notes (rule : Rule) (requested : Option String) (progress : Progress) :
    ((rule.runParts requested).runFrom surroundings
        (progress.inside (rule.rootNode surroundings.date))).2.notes ⊆
      ((rule.run requested).runFrom surroundings progress).2.notes := by
  rw [runFrom_run]
  cases ran : (rule.runParts requested).runFrom surroundings
      (progress.inside (rule.rootNode surroundings.date)) with
  | mk result between =>
      cases result with
      | error cause => exact fun _ note => note
      | ok parts =>
          obtain ⟨grown, nodes, grows⟩ := runParts_stays ran _ _ rfl
          have noCall : grown.kind ≠ .serviceEvaluation := by
            rw [grows.kind]
            simp [rootNode, TraceNode.fresh]
          exact (Progress.outside_extends nodes noCall _).notes

section Following

variable {allowed : Note → Prop} {plain follower : Progress}

/-- An action follows another run of it when its value does. -/
theorem runAction_agrees (functional : surroundings.provider.IsFunction)
    (quiet : surroundings.cancellation = .none) (apart : Follows.TellsApart allowed) (rule : Rule)
    (action : Action) (agree : Agree surroundings allowed plain follower)
    (seen : Seen allowed
      ((rawValue action).runFrom surroundings (plain.inside (actionNode action)))) :
    ((rule.runAction action).runFrom surroundings follower).1 =
        ((rule.runAction action).runFrom surroundings plain).1 ∧
      Agree surroundings allowed ((rule.runAction action).runFrom surroundings plain).2
        ((rule.runAction action).runFrom surroundings follower).2 := by
  have follows := (Follows.congruence functional quiet apart).rawValue action
  obtain ⟨same, kept⟩ := follows.agrees _ _
    (Follows.agree_inside agree (actionNode action) (actionNode action)) seen
  rw [runFrom_runAction quiet, runFrom_runAction quiet]
  cases ran : (rawValue action).runFrom surroundings (plain.inside (actionNode action)) with
  | mk result between =>
      cases otherRan : (rawValue action).runFrom surroundings
          (follower.inside (actionNode action)) with
      | mk otherResult otherBetween =>
          rw [ran, otherRan] at same kept
          obtain rfl : otherResult = result := same
          cases otherResult with
          | error cause => exact ⟨rfl, kept⟩
          | ok raw =>
              refine ⟨rfl, kept.scope, kept.missing, ?_, kept.memoless, kept.remembers⟩
              intro name isRead
              have sets (progress : Progress) : (rule.afterAction action raw progress).outputs =
                  Entries.insert action.output (rule.fitted action raw) progress.outputs := rfl
              rw [sets, sets, Entries.get?_insert, Entries.get?_insert, kept.outputs name isRead]

theorem runActions_agrees (functional : surroundings.provider.IsFunction)
    (quiet : surroundings.cancellation = .none) (apart : Follows.TellsApart allowed)
    (readsAll : ∀ name, allowed (.read name)) (rule : Rule) (actions : List Action)
    (agree : Agree surroundings allowed plain follower)
    (noted : ∀ note ∈ ((rule.runActions actions).runFrom surroundings plain).2.notes,
      allowed note) :
    ((rule.runActions actions).runFrom surroundings follower).1 =
        ((rule.runActions actions).runFrom surroundings plain).1 ∧
      Agree surroundings allowed ((rule.runActions actions).runFrom surroundings plain).2
        ((rule.runActions actions).runFrom surroundings follower).2 := by
  induction actions generalizing plain follower with
  | nil => exact ⟨rfl, agree⟩
  | cons action rest inductionHypothesis =>
      rw [runFrom_runActions_cons] at noted
      rw [runFrom_runActions_cons, runFrom_runActions_cons, agree.missing]
      by_cases missing : plain.missingRequired
      · rw [if_pos missing, if_pos missing]
        exact ⟨rfl, agree⟩
      · rw [if_neg missing] at noted
        rw [if_neg missing, if_neg missing]
        have finishes := (runAction_finishes quiet rule action plain).notes
        cases ran : (rule.runAction action).runFrom surroundings plain with
        | mk result between =>
            rw [ran] at noted finishes
            have later : ∀ note ∈ between.notes, allowed note := by
              intro note member
              cases result with
              | error cause => exact noted note member
              | ok value =>
                  exact noted note ((runActions_advances quiet rule rest between).notes member)
            obtain ⟨same, kept⟩ := runAction_agrees functional quiet apart rule action agree
              ⟨fun note member => later note (finishes member), .inr readsAll⟩
            rw [ran] at same kept
            cases otherRan : (rule.runAction action).runFrom surroundings follower with
            | mk otherResult otherBetween =>
                rw [otherRan] at same kept
                obtain rfl : otherResult = result := same
                cases otherResult with
                | error cause => exact ⟨rfl, kept⟩
                | ok value => exact inductionHypothesis kept noted

end Following

end Rule

end Statute
