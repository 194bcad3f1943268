/-
This file proves what the evaluation of an expression changes, also when it fails.
-/

import Statute.Proofs.Evaluation.References

namespace Statute

namespace Bounded

/-- The body of a property's lookup describes the property and notes a missing value. -/
theorem resolveProperty (fuel : Nat) (name : String) (property : Property) :
    Bounded (Resolution.resolveProperty (Resolution.lookUp fuel) name property) := by
  have value := @Congruence.propertyValue _ steps.toCongruence (Resolution.lookUp fuel)
    (Resolution.lookUp fuel) name property
    (fun reference _ parameters date => steps.obtain name property reference parameters date)
    fun path _ => steps.lookups.lookUps fuel path
  exact bind (annotateProperty property) fun _ => bind value fun found =>
    bind (noteMissing property found.2) fun _ => pure _

/-- The body of an operation describes the operation's own node. -/
theorem applyOperator (operator : Operator) (node : Operation) :
    Bounded (operator.apply
      ⟨Expr.part? Evaluation.valueOf node.subject, Expr.operand? Evaluation.valueOf node.value,
        Expr.operand? Evaluation.valueOf node.values,
        Condition.branches? Evaluation.valueOf node.conditions, node.combine, node.unit⟩) := by
  have parts := congruence.toCongruence
  have paths := congruence.valueOf
  exact congruence.operatorApply operator
    ⟨parts.evaluatePart node.subject fun path _ => paths path,
      parts.evaluateOperand node.value fun path _ => paths path,
      parts.evaluateOperand node.values fun path _ => paths path,
      parts.evaluateBranches node.conditions fun path _ => paths path, rfl, rfl⟩

end Bounded

namespace Evaluation.Appends

variable {α β : Type}

theorem pure (value : α) : (pure value : Evaluation α).Appends := by
  intro surroundings progress result after ran
  cases ran
  exact .ofSameNodes rfl

theorem throw (error : EvaluationError) : (throw error : Evaluation α).Appends := by
  intro surroundings progress result after ran
  cases ran

theorem given (view : Surroundings → α) : (Evaluation.given view).Appends := by
  intro surroundings progress result after ran
  cases ran
  exact .ofSameNodes rfl

theorem bind {first : Evaluation α} {next : α → Evaluation β} (appends : first.Appends)
    (continues : ∀ value, (next value).Appends) : (first >>= next).Appends := by
  intro surroundings progress result after ran
  obtain ⟨value, between, begun, ended⟩ := runFrom_bind_ok ran
  exact (appends _ _ _ _ begun).trans (continues value _ _ _ _ ended)

/-- A path of any kind has one node, in which its whole lookup takes place. -/
theorem lookUp (fuel : Nat) (path : String) : (Resolution.lookUp fuel path).Appends := by
  -- There is no induction: deeper lookups take place inside the node of this path.
  cases fuel with
  | zero => exact throw _
  | succ fuel =>
      refine bind (given _) fun dated => ?_
      split
      · exact (Bounded.pure _).appends_recorded path
      · split
        · exact (Bounded.resolveName (Bounded.resolveProperty fuel path)).appends_recorded path
        · refine Bounded.appends_recorded ?_ path
          exact .bind (Bounded.steps.lookups.lookUps fuel (pathRoot path)) fun base => .pure _

theorem valueOf (path : String) : (Evaluation.valueOf path).Appends :=
  bind (given _) fun limit => lookUp limit path

theorem resolve (value : Value) : (value.resolve Evaluation.valueOf).Appends := by
  unfold Value.resolve
  split
  · split
    · exact valueOf _
    · exact pure _
  · exact pure _

theorem operation (node : Operation) : (node.evaluate Evaluation.valueOf).Appends := by
  have body := fun operator => Bounded.applyOperator operator node
  obtain ⟨name, subject, value, values, conditions, combine, unit⟩ := node
  rw [Operation.evaluate]
  unfold Operator.perform
  split
  · exact throw _
  · exact (body _).appends_inNode _ id

mutual

/-- An expression adds the nodes of the paths and operations in it that are not inside others. -/
theorem evaluateExpr : (expr : Expr) → (expr.evaluate Evaluation.valueOf).Appends
  | .operation node => by
      rw [Expr.evaluate]
      exact operation node
  | .list items => by
      rw [Expr.evaluate]
      exact bind (evaluateItems items) fun values => pure _
  | .literal value => by
      rw [Expr.evaluate]
      exact resolve value

theorem evaluateItems : (items : List Expr) →
    (runAll (Expr.evaluateItems Evaluation.valueOf items)).Appends
  | [] => by
      rw [Expr.evaluateItems]
      exact pure []
  | item :: rest => by
      rw [Expr.evaluateItems]
      exact bind (evaluateExpr item) fun value =>
        bind (evaluateItems rest) fun values => pure _

end

end Evaluation.Appends

/-- Evaluating an expression has a bounded effect, also when it fails. The scope and the outputs are
those of before, and so are the parameters and claims for whoever catches the error and goes on. No
path that was looked up is forgotten, a missing required value stays noted, and the memo keeps each of
its entries. With a value, the open nodes of the trace are those of before, and only the innermost one
has more nodes at the end of those below it. -/
theorem Expr.evaluate_effect (surroundings : Surroundings) (progress : Progress) (expr : Expr) :
    let evaluation := expr.evaluate Evaluation.valueOf
    let after := (evaluation.runFrom surroundings progress).2
    (after.scope = progress.scope ∧ after.outputs = progress.outputs) ∧
    (observing evaluation >>= fun _ =>
      Evaluation.given fun known => (known.parameters, known.claims)).runFrom surroundings progress =
        (.ok (surroundings.parameters, surroundings.claims), after) ∧
    (∀ path ∈ progress.accessed, path ∈ after.accessed) ∧
    (progress.missingRequired = true → after.missingRequired = true) ∧
    (after.memo.isSome = progress.memo.isSome ∧
      ∀ key value, progress.remembered? key = some value → after.remembered? key = some value) ∧
    ∀ value, (evaluation.runFrom surroundings progress).1 = .ok value → progress.Appends after := by
  intro evaluation after
  have grows := (Bounded.evaluateExpr expr).grows surroundings progress
  have memo : after.memo.isSome = progress.memo.isSome :=
    (Evaluation.Adds.evaluateExpr expr progress).memo
  refine ⟨⟨grows.scope, grows.outputs⟩, ?caught, grows.accessed, grows.missing,
    ⟨memo, grows.remembered⟩, ?nodes⟩
  case caught =>
    rw [Evaluation.runFrom_bind, Evaluation.runFrom_observing]
    rfl
  case nodes =>
    intro value gave
    have ran : evaluation.runFrom surroundings progress = (.ok value, after) := Prod.ext gave rfl
    exact Evaluation.Appends.evaluateExpr expr surroundings progress value after ran

end Statute
