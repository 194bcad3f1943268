/-
This file proves relations between evaluations of whole rules by proving them of single steps.
-/

import Statute.Proofs.Evaluation.Actions

namespace Statute

/-- Something that an evaluation has gathered. -/
def Evaluation.gathered {α : Type} (view : Progress → α) : Evaluation α := do
  return view (← get)

/-- What an evaluation has gathered by itself, without what all evaluations share. -/
def IsOwnView {α : Type} (view : Progress → α) : Prop :=
  ∀ progress shared, view { progress with shared } = view progress

/-- A relation that each step of requirements and actions respects. -/
structure ActionCongruence (rel : EvaluationRelation) : Prop extends ValueCongruence rel where
  gathered : ∀ {α : Type} {view : Progress → α}, IsOwnView view →
    rel α (Evaluation.gathered view) (Evaluation.gathered view)
  setOutput : ∀ (name : String) (value : Value),
    rel Unit (Evaluation.setOutput name value) (Evaluation.setOutput name value)

namespace ActionCongruence

variable {rel : EvaluationRelation} (congruence : ActionCongruence rel)

include congruence

theorem runAction (rule : Rule) (action : Action) :
    rel Value (rule.runAction action) (rule.runAction action) := by
  apply congruence.bind congruence.checkCancelled
  intro _
  apply congruence.inNode id (Rule.actionNode_isPlain action)
  apply congruence.bind (congruence.rawValue action)
  intro raw
  exact congruence.bind (congruence.setOutput action.output _) fun _ => congruence.pure _

theorem runActions (rule : Rule) (actions : List Action) :
    rel Unit (rule.runActions actions) (rule.runActions actions) := by
  induction actions with
  | nil => exact congruence.pure ()
  | cons action rest inductionHypothesis =>
      apply congruence.bind congruence.isMissing
      intro missing
      split
      · exact congruence.pure ()
      · exact congruence.bind (congruence.runAction rule action) fun _ => inductionHypothesis

theorem runRequired (rule : Rule) (requested : Option String) (met : Bool) :
    rel Unit (rule.runRequired requested met) (rule.runRequired requested met) := by
  unfold Rule.runRequired
  split
  · split
    · exact congruence.runActions rule _
    · exact congruence.throw (EvaluationError.isShallow_rule _)
  · exact congruence.pure ()

theorem runParts (rule : Rule) (requested : Option String) :
    rel (Bool × Record) (rule.runParts requested) (rule.runParts requested) := by
  apply congruence.bind (congruence.checkRequirements rule)
  intro met
  apply congruence.bind (congruence.runRequired rule requested met)
  intro _
  exact congruence.bind (congruence.gathered fun _ _ => rfl) fun _ => congruence.pure _

end ActionCongruence

/-- A relation that each step of the evaluation of a rule respects, also in the outermost node. -/
structure RuleCongruence (rel : EvaluationRelation) : Prop extends ActionCongruence rel where
  outermost : ∀ {α : Type} (rule : Rule) (date : Date) (shown : α → Value)
    {body other : Evaluation α}, rel α body other →
    rel α (Evaluation.inNode (rule.rootNode date) shown body)
      (Evaluation.inNode (rule.rootNode date) shown other)

namespace RuleCongruence

variable {rel : EvaluationRelation} (congruence : RuleCongruence rel)

include congruence

/-- Rules are related to themselves. -/
theorem run (rule : Rule) (requested : Option String) :
    rel Outcome (rule.run requested) (rule.run requested) := by
  apply congruence.bind (congruence.given fun _ _ _ => rfl)
  intro date
  apply congruence.bind (congruence.outermost rule date _ (congruence.runParts rule requested))
  intro parts
  exact congruence.gathered fun _ _ => rfl

end RuleCongruence

end Statute
