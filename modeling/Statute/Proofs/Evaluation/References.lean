/-
This file proves that evaluations look up no other paths than those that expressions mention, with
their first names and what the declarations of properties mention.
-/

import Statute.Proofs.Evaluation.Calls
import Statute.Proofs.Evaluation.Nesting

namespace Statute

/-- The paths that mentioned paths lead to: these, with each path its first name, and with the name of
a property all that its declaration mentions. -/
inductive Reaches (properties : Entries Property) (mentioned : List String) : String → Prop
  | mentioned {path : String} : path ∈ mentioned → Reaches properties mentioned path
  | root {path : String} : Reaches properties mentioned path →
      Reaches properties mentioned (pathRoot path)
  | declared {name path : String} {property : Property} : Reaches properties mentioned name →
      Entries.get? name properties = some property → path ∈ property.references →
      Reaches properties mentioned path

/-- What an evaluation adds to the progress: it looks up allowed paths only, and it neither makes nor
loses a memo. -/
structure Progress.Adds (allowed : String → Prop) (before after : Progress) : Prop where
  accessed : ∀ path ∈ after.accessed, path ∈ before.accessed ∨ allowed path
  memo : after.memo.isSome = before.memo.isSome

namespace Progress.Adds

variable {allowed : String → Prop} {before between after : Progress}

theorem ofSame (accessed : after.accessed = before.accessed)
    (memo : after.memo.isSome = before.memo.isSome) : Adds allowed before after :=
  ⟨fun _ member => .inl (accessed ▸ member), memo⟩

theorem trans (first : Adds allowed before between) (second : Adds allowed between after) :
    Adds allowed before after := by
  refine ⟨fun path member => ?_, second.memo.trans first.memo⟩
  rcases second.accessed path member with earlier | isAllowed
  · exact first.accessed path earlier
  · exact .inr isAllowed

theorem withAccess {path : String} (isAllowed : allowed path) (progress : Progress) :
    Adds allowed progress (progress.withAccess path) := by
  refine ⟨fun other member => ?_, rfl⟩
  rcases (Entries.mem_insertName other path _).mp member with rfl | earlier
  · exact .inr isAllowed
  · exact .inl earlier

end Progress.Adds

/-- An evaluation in given surroundings looks up allowed paths only, also when it fails. -/
def Evaluation.Adds (surroundings : Surroundings) (allowed : String → Prop) {α : Type}
    (evaluation : Evaluation α) : Prop :=
  ∀ progress : Progress, progress.Adds allowed (evaluation.runFrom surroundings progress).2

namespace Evaluation.Adds

variable {surroundings : Surroundings} {allowed : String → Prop} {α β : Type}

/-- Most steps neither look up a path nor use the memo. -/
theorem ofSame {evaluation : Evaluation α}
    (accessed : ∀ progress : Progress,
      (evaluation.runFrom surroundings progress).2.accessed = progress.accessed)
    (memo : ∀ progress : Progress,
      (evaluation.runFrom surroundings progress).2.memo = progress.memo) :
    evaluation.Adds surroundings allowed :=
  fun progress => .ofSame (accessed progress) (congrArg Option.isSome (memo progress))

theorem bind {first : Evaluation α} {next : α → Evaluation β}
    (adds : first.Adds surroundings allowed)
    (continues : ∀ value, (next value).Adds surroundings allowed) :
    (first >>= next).Adds surroundings allowed := by
  intro progress
  have begun := adds progress
  rw [runFrom_bind]
  cases ran : first.runFrom surroundings progress with
  | mk result between =>
      rw [ran] at begun
      cases result with
      | error cause => exact begun
      | ok value => exact begun.trans (continues value between)

theorem inNode (node : TraceNode) (shown : α → Value) {body : Evaluation α}
    (adds : body.Adds surroundings allowed) :
    (Evaluation.inNode node shown body).Adds surroundings allowed := by
  intro progress
  have inner := adds (progress.inside node)
  rw [runFrom_inNode]
  cases ran : body.runFrom surroundings (progress.inside node) with
  | mk result between =>
      rw [ran] at inner
      cases result <;> exact ⟨inner.accessed, inner.memo⟩

theorem within (scope : Record) {body : Evaluation α} (adds : body.Adds surroundings allowed) :
    (Evaluation.within scope body).Adds surroundings allowed := by
  intro progress
  have inner := adds { progress with scope }
  rw [runFrom_within]
  exact ⟨inner.accessed, inner.memo⟩

theorem congruence : Congruence fun _ evaluation _ => evaluation.Adds surroundings allowed where
  pure := fun _ => ofSame (fun _ => rfl) fun _ => rfl
  throw := fun _ => ofSame (fun _ => rfl) fun _ => rfl
  bind := bind
  given := fun _ => ofSame (fun _ => rfl) fun _ => rfl
  isMissing := ofSame (fun _ => rfl) fun _ => rfl
  checkCancelled := ofSame (fun _ => by rw [runFrom_checkCancelled])
    fun _ => by rw [runFrom_checkCancelled]
  raiseFlag := ofSame (fun _ => rfl) fun _ => rfl
  detail := fun _ _ => ofSame (fun _ => rfl) fun _ => rfl
  inNode := fun shown _ _ _ adds => inNode _ shown adds
  within := fun scope _ _ adds => within scope adds

/-- A call looks up no path of its own. What the called law looks up is not shown to the caller. -/
theorem obtain (question : Call.Question) :
    (Call.obtain question.path question.property question.reference question.parameters
      question.date).Adds surroundings allowed := by
  intro progress
  cases remembered : progress.remembered? question.key with
  | some value =>
      rw [Call.runFrom_obtain_some remembered]
      exact .ofSame rfl rfl
  | none =>
      rw [Call.runFrom_obtain_none remembered]
      cases asked : surroundings.provider (question.request surroundings) progress.shared with
      | mk result shared =>
          cases result with
          | error cause =>
              rw [Call.runFrom_perform_error asked]
              exact .ofSame rfl rfl
          | ok outcome =>
              rw [Call.runFrom_perform_ok asked]
              exact .ofSame rfl Option.isSome_map

theorem recorded {path : String} (isAllowed : allowed path) {body : Evaluation Resolution.Found}
    (adds : body.Adds surroundings allowed) :
    (Resolution.recorded path body).Adds surroundings allowed := by
  intro progress
  have inner := adds ((progress.withAccess path).inside (TraceNode.resolving path))
  have entered : progress.Adds allowed
      ((progress.withAccess path).inside (TraceNode.resolving path)) :=
    (Progress.Adds.withAccess isAllowed progress).trans (.ofSame rfl rfl)
  rw [Resolution.runFrom_recorded]
  cases ran : body.runFrom surroundings
      ((progress.withAccess path).inside (TraceNode.resolving path)) with
  | mk result between =>
      rw [ran] at inner
      have ended := entered.trans inner
      cases result <;> exact ⟨ended.accessed, ended.memo⟩

/-- A name leads on only to the declaration of the property that it names. -/
theorem resolveName {lookUp : LookUp} {name : String}
    (adds : ∀ property, Entries.get? name surroundings.properties = some property →
      (Resolution.resolveProperty lookUp name property).Adds surroundings allowed) :
    (Resolution.resolveName lookUp name).Adds surroundings allowed := by
  intro progress
  rw [Resolution.runFrom_resolveName_chosen]
  have annotates (property : Property) :
      (Resolution.annotateProperty property).Adds surroundings allowed :=
    ofSame (fun _ => rfl) fun _ => rfl
  have chosen : (Resolution.chosen lookUp surroundings progress name).Adds surroundings allowed :=
    Resolution.chosen_related (fun evaluation _ => evaluation.Adds surroundings allowed) lookUp
      lookUp congruence.pure
      (fun declared found => bind (annotates declared) fun _ => congruence.pure found) surroundings
      progress adds
  exact chosen progress

variable {mentioned : List String}

/-- The lookup of a path that is reached looks up only what is reached. -/
theorem lookUp {path : String} (fuel : Nat)
    (reached : Reaches surroundings.properties mentioned path) :
    (Resolution.lookUp fuel path).Adds surroundings
      (Reaches surroundings.properties mentioned) := by
  -- What a level goes on to is reached as well: a first name, or what a declaration mentions.
  induction fuel generalizing path with
  | zero => exact ofSame (fun _ => rfl) fun _ => rfl
  | succ fuel inductionHypothesis =>
      have steps : Congruence fun _ evaluation _ => evaluation.Adds surroundings
          (Reaches surroundings.properties mentioned) := congruence
      apply @Congruence.lookUp_succ _ steps path fuel fuel
      · exact fun value => recorded reached (steps.pure _)
      · refine fun _ => recorded reached (resolveName fun property declared => ?_)
        have value := @Congruence.propertyValue _ steps (Resolution.lookUp fuel)
          (Resolution.lookUp fuel) path property
          (fun reference _ parameters date => obtain ⟨path, property, reference, parameters, date⟩)
          fun other isMentioned => inductionHypothesis (reached.declared declared isMentioned)
        refine bind (ofSame (fun _ => rfl) fun _ => rfl) fun _ => bind value fun found => ?_
        exact bind (ofSame (fun _ => rfl) fun _ => rfl) fun _ => steps.pure _
      · exact fun _ => recorded reached
          (bind (inductionHypothesis reached.root) fun base => steps.pure _)

/-- An expression looks up only what is reached from the paths that it mentions. -/
theorem evaluateExpr (expr : Expr) : (expr.evaluate Evaluation.valueOf).Adds surroundings
    (Reaches surroundings.properties expr.references) := by
  apply @Congruence.evaluate _ valueOf valueOf congruence expr
  intro path isMentioned progress
  rw [runFrom_valueOf]
  exact lookUp _ (.mentioned isMentioned) progress

end Evaluation.Adds

namespace Action

/-- The value that completes an operation is the only thing it may mention besides. -/
theorem references_completed (node : Operation) (value : Option Expr) :
    (completed node value).references ⊆ Expr.optionReferences value ++ node.references := by
  obtain ⟨name, subject, own, values, conditions, combine, unit⟩ := node
  intro path isMentioned
  cases own with
  | some written => exact List.mem_append_right _ isMentioned
  | none =>
      simp only [completed, Operation.references, Expr.optionReferences, List.mem_append,
        List.not_mem_nil, or_false] at isMentioned ⊢
      rcases isMentioned with ((inSubject | inValue) | inValues) | inConditions
      · exact .inr (.inl (.inl inSubject))
      · exact .inl inValue
      · exact .inr (.inl (.inr inValues))
      · exact .inr (.inr inConditions)

/-- The expression of an action mentions nothing that the action does not mention. -/
theorem references_of_expr {action : Action} {expr : Expr} (isExpr : action.expr = .ok expr) :
    expr.references ⊆ action.references := by
  obtain ⟨output, value, operation⟩ := action
  cases operation with
  | some node =>
      cases isExpr
      rw [Expr.references]
      exact references_completed node value
  | none =>
      cases value with
      | none => cases isExpr
      | some direct =>
          cases isExpr
          exact List.subset_append_left _ _

end Action

/-- Whatever an expression looks up, also when its evaluation fails, is reached from the paths that it
mentions. And an action mentions all that its expression does. -/
theorem Expr.accessed_reached (surroundings : Surroundings) (progress : Progress) (expr : Expr) :
    (∀ path ∈ ((expr.evaluate Evaluation.valueOf).runFrom surroundings progress).2.accessed,
      path ∈ progress.accessed ∨ Reaches surroundings.properties expr.references path) ∧
    ∀ action : Action, action.expr = .ok expr → expr.references ⊆ action.references :=
  ⟨(Evaluation.Adds.evaluateExpr expr progress).accessed, fun _ => Action.references_of_expr⟩

end Statute
