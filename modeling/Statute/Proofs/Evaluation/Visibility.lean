/-
This file proves that evaluations do not depend on anything that they cannot see of what was gathered
before them.
-/

import Statute.Proofs.Evaluation.Calls
import Statute.Proofs.Evaluation.Nesting

namespace Statute

/-- No property takes its value from another law, and no caller can stop the evaluation. -/
structure Surroundings.IsClosed (surroundings : Surroundings) : Prop where
  uncancelled : surroundings.cancellation = .none
  callsNothing : ∀ name property, Entries.get? name surroundings.properties = some property →
    property.serviceReference = none

/-- An evaluation sees the same in both. What calls gave before matters where there are calls only. -/
structure Progress.LooksLike (surroundings : Surroundings) (first second : Progress) : Prop where
  scope : second.scope = first.scope
  outputs : second.outputs = first.outputs
  missing : second.missingRequired = first.missingRequired
  calls : surroundings.IsClosed ∨ second.memo = first.memo ∧ second.shared = first.shared

namespace Progress.LooksLike

variable {surroundings : Surroundings} {first second : Progress}

theorem refl (progress : Progress) : progress.LooksLike surroundings progress :=
  ⟨rfl, rfl, rfl, .inr ⟨rfl, rfl⟩⟩

/-- A change of the accessed paths, the resolved values and the open nodes cannot be seen. -/
theorem unseen (alike : first.LooksLike surroundings second) {accessed otherAccessed : List String}
    {resolved otherResolved : Record} {nodes otherNodes : List TraceNode} :
    Progress.LooksLike surroundings { first with accessed, resolved, openNodes := nodes }
      { second with
        accessed := otherAccessed, resolved := otherResolved, openNodes := otherNodes } :=
  ⟨alike.scope, alike.outputs, alike.missing, alike.calls⟩

/-- Where no calls are made an evaluation sees nothing new, unless a required value is missing. -/
theorem ofExtends (isClosed : surroundings.IsClosed) (grown : first.Extends second)
    (missing : second.missingRequired = first.missingRequired) :
    first.LooksLike surroundings second :=
  ⟨grown.scope, grown.outputs, missing, .inl isClosed⟩

theorem trans {third : Progress} (alike : first.LooksLike surroundings second)
    (others : second.LooksLike surroundings third) : first.LooksLike surroundings third where
  scope := others.scope.trans alike.scope
  outputs := others.outputs.trans alike.outputs
  missing := others.missing.trans alike.missing
  calls := by
    rcases alike.calls with isClosed | ⟨memo, shared⟩
    · exact .inl isClosed
    · exact others.calls.imp_right fun same => ⟨same.1.trans memo, same.2.trans shared⟩

end Progress.LooksLike

/-- An evaluation gives the same result wherever it sees the same, and leaves behind what looks the
same. -/
def Evaluation.Unswayed (surroundings : Surroundings) {α : Type} (evaluation : Evaluation α) : Prop :=
  ∀ first second : Progress, first.LooksLike surroundings second →
    (evaluation.runFrom surroundings second).1 = (evaluation.runFrom surroundings first).1 ∧
      (evaluation.runFrom surroundings first).2.LooksLike surroundings
        (evaluation.runFrom surroundings second).2

namespace Evaluation.Unswayed

open Progress

variable {surroundings : Surroundings} {α β : Type}

/-- A step whose result and whose changes can be seen. -/
theorem ofRun {evaluation : Evaluation α} {result : Progress → Except EvaluationError α}
    {after : Progress → Progress}
    (ran : ∀ progress, evaluation.runFrom surroundings progress = (result progress, after progress))
    (agrees : ∀ first second : Progress, first.LooksLike surroundings second →
      result second = result first ∧ (after first).LooksLike surroundings (after second)) :
    evaluation.Unswayed surroundings := by
  intro first second alike
  rw [ran, ran]
  exact agrees first second alike

/-- A step that changes nothing that can be seen. -/
theorem ofUnseen {evaluation : Evaluation α} {result : Except EvaluationError α}
    {after : Progress → Progress}
    (ran : ∀ progress, evaluation.runFrom surroundings progress = (result, after progress))
    (unseen : ∀ first second : Progress, first.LooksLike surroundings second →
      (after first).LooksLike surroundings (after second)) : evaluation.Unswayed surroundings :=
  ofRun ran fun first second alike => ⟨rfl, unseen first second alike⟩

theorem pure (value : α) : (Pure.pure value : Evaluation α).Unswayed surroundings :=
  ofUnseen (fun _ => rfl) fun _ _ alike => alike

theorem throw (error : EvaluationError) : (throw error : Evaluation α).Unswayed surroundings :=
  ofUnseen (fun _ => rfl) fun _ _ alike => alike

theorem annotate (change : TraceNode → TraceNode) :
    (Evaluation.annotate change).Unswayed surroundings :=
  ofUnseen (fun _ => rfl) fun _ _ alike => alike.unseen

/-- The flag of cancellation is seen where there is one. -/
theorem checkCancelled : Evaluation.checkCancelled.Unswayed surroundings := by
  refine ofRun (fun progress => runFrom_checkCancelled surroundings progress)
    fun first second alike => ⟨?_, alike⟩
  rcases alike.calls with isClosed | ⟨_, shared⟩
  · rw [isClosed.uncancelled]
    rfl
  · rw [shared]

/-- A raised flag is seen where there is one. -/
theorem raiseFlag : Evaluation.raiseFlag.Unswayed surroundings := by
  refine ofUnseen (fun _ => rfl) fun first second alike => ?_
  refine ⟨alike.scope, alike.outputs, alike.missing, alike.calls.imp_right fun same => ?_⟩
  exact ⟨same.1, by rw [same.2]⟩

theorem noteMissing (property : Property) (value : Value) :
    (Resolution.noteMissing property value).Unswayed surroundings := by
  refine ofUnseen (fun _ => rfl) fun first second alike => ?_
  refine ⟨alike.scope, alike.outputs, ?_, alike.calls⟩
  dsimp only
  rw [alike.missing]

theorem bind {first : Evaluation α} {next : α → Evaluation β} (unswayed : first.Unswayed surroundings)
    (continues : ∀ value, (next value).Unswayed surroundings) :
    (first >>= next).Unswayed surroundings := by
  intro progress other alike
  obtain ⟨same, between⟩ := unswayed progress other alike
  rw [runFrom_bind, runFrom_bind]
  cases ran : first.runFrom surroundings progress with
  | mk result reached =>
      cases otherRan : first.runFrom surroundings other with
      | mk otherResult otherReached =>
          rw [ran, otherRan] at same between
          obtain rfl : otherResult = result := same
          cases otherResult with
          | error error => exact ⟨rfl, between⟩
          | ok value => exact continues value reached otherReached between

theorem inNode (node : TraceNode) (shown : α → Value) {body : Evaluation α}
    (unswayed : body.Unswayed surroundings) :
    (Evaluation.inNode node shown body).Unswayed surroundings := by
  intro progress other alike
  obtain ⟨same, between⟩ := unswayed (progress.inside node) (other.inside node) alike.unseen
  rw [runFrom_inNode, runFrom_inNode]
  cases ran : body.runFrom surroundings (progress.inside node) with
  | mk result reached =>
      cases otherRan : body.runFrom surroundings (other.inside node) with
      | mk otherResult otherReached =>
          rw [ran, otherRan] at same between
          obtain rfl : otherResult = result := same
          cases otherResult with
          | error error => exact ⟨rfl, between⟩
          | ok value => exact ⟨rfl, between.unseen⟩

theorem within (scope : Record) {body : Evaluation α} (unswayed : body.Unswayed surroundings) :
    (Evaluation.within scope body).Unswayed surroundings := by
  intro progress other alike
  obtain ⟨same, between⟩ := unswayed { progress with scope } { other with scope }
    ⟨rfl, alike.outputs, alike.missing, alike.calls⟩
  exact ⟨same, alike.scope, between.outputs, between.missing, between.calls⟩

/-- The steps of expressions see the scope, the outputs and whether a value was missing. -/
theorem steps : Congruence fun _ evaluation _ => evaluation.Unswayed surroundings where
  pure := pure
  throw := fun _ => throw _
  bind := bind
  given := fun _ => ofUnseen (fun _ => rfl) fun _ _ alike => alike
  isMissing := ofRun (fun _ => rfl) fun _ _ alike => ⟨congrArg Except.ok alike.missing, alike⟩
  checkCancelled := checkCancelled
  raiseFlag := raiseFlag
  detail := fun _ _ => annotate _
  inNode := fun shown _ _ _ unswayed => inNode _ shown unswayed
  within := fun scope _ _ unswayed => within scope unswayed

theorem recorded (path : String) {body : Evaluation Resolution.Found}
    (unswayed : body.Unswayed surroundings) :
    (Resolution.recorded path body).Unswayed surroundings := by
  intro progress other alike
  obtain ⟨same, between⟩ := unswayed
    ((progress.withAccess path).inside (TraceNode.resolving path))
    ((other.withAccess path).inside (TraceNode.resolving path)) alike.unseen
  rw [Resolution.runFrom_recorded, Resolution.runFrom_recorded]
  cases ran : body.runFrom surroundings
      ((progress.withAccess path).inside (TraceNode.resolving path)) with
  | mk result reached =>
      cases otherRan : body.runFrom surroundings
          ((other.withAccess path).inside (TraceNode.resolving path)) with
      | mk otherResult otherReached =>
          rw [ran, otherRan] at same between
          obtain rfl : otherResult = result := same
          cases otherResult with
          | error error => exact ⟨rfl, between⟩
          | ok found => exact ⟨rfl, between.unseen⟩

/-- A call is answered the same where the same is remembered and shared. -/
theorem obtain (isOpen : ¬ surroundings.IsClosed) (question : Call.Question) :
    (Call.obtain question.path question.property question.reference question.parameters
      question.date).Unswayed surroundings := by
  intro progress other alike
  obtain ⟨memo, shared⟩ := alike.calls.resolve_left isOpen
  have sameMemory : other.remembered? question.key = progress.remembered? question.key := by
    rw [Progress.remembered?, Progress.remembered?, memo]
  cases remembered : progress.remembered? question.key with
  | some value =>
      rw [Call.runFrom_obtain_some remembered, Call.runFrom_obtain_some (sameMemory.trans remembered)]
      exact bind (annotate _) (fun _ => pure value) progress other alike
  | none =>
      rw [Call.runFrom_obtain_none remembered, Call.runFrom_obtain_none (sameMemory.trans remembered)]
      cases answered : surroundings.provider (question.request surroundings) progress.shared with
      | mk result after =>
          have sameAnswer : surroundings.provider (question.request surroundings) other.shared =
              (result, after) := by rw [shared, answered]
          cases result with
          | error cause =>
              rw [Call.runFrom_perform_error answered, Call.runFrom_perform_error sameAnswer]
              exact ⟨rfl, alike.scope, alike.outputs, alike.missing, .inr ⟨memo, rfl⟩⟩
          | ok outcome =>
              rw [Call.runFrom_perform_ok answered, Call.runFrom_perform_ok sameAnswer]
              refine ⟨rfl, alike.scope, alike.outputs, ?_, .inr ⟨?_, rfl⟩⟩
              · exact congrArg (· || outcome.missingRequired) alike.missing
              · exact congrArg (Option.map (Entries.insert question.key (question.valueIn outcome))) memo

/-- A name is bound by what can be seen. -/
theorem resolveName {lookUp : LookUp} {name : String}
    (unswayed : ∀ property, Entries.get? name surroundings.properties = some property →
      (Resolution.resolveProperty lookUp name property).Unswayed surroundings) :
    (Resolution.resolveName lookUp name).Unswayed surroundings := by
  intro progress other alike
  have sameChoice : Resolution.chosen lookUp surroundings other name =
      Resolution.chosen lookUp surroundings progress name := by
    rw [Resolution.chosen, Resolution.chosen, Resolution.bound?, Resolution.bound?, alike.scope,
      alike.outputs]
  rw [Resolution.runFrom_resolveName_chosen, Resolution.runFrom_resolveName_chosen, sameChoice]
  have chosen : (Resolution.chosen lookUp surroundings progress name).Unswayed surroundings :=
    Resolution.chosen_related (fun evaluation _ => evaluation.Unswayed surroundings) lookUp lookUp
      pure (fun _ found => bind (annotate _) fun _ => pure found) surroundings progress unswayed
  exact chosen progress other alike

/-- Lookups are not swayed at any fuel. -/
theorem lookUp (fuel : Nat) (path : String) :
    (Resolution.lookUp fuel path).Unswayed surroundings := by
  induction fuel generalizing path with
  | zero => exact throw .tooDeep
  | succ fuel inductionHypothesis =>
      apply @Congruence.lookUp_succ _ steps path fuel fuel
      · exact fun value => recorded path (pure _)
      · refine fun _ => recorded path (resolveName fun property declared => ?_)
        have value : (Resolution.propertyValue (Resolution.lookUp fuel) path property).Unswayed
            surroundings := by
          apply @Congruence.propertyValue _ steps (Resolution.lookUp fuel) (Resolution.lookUp fuel)
          · intro reference isCalled parameters date
            refine obtain (fun isClosed => ?_) ⟨path, property, reference, parameters, date⟩
            rw [isClosed.callsNothing path property declared] at isCalled
            cases isCalled
          · exact fun mentioned _ => inductionHypothesis mentioned
        exact bind (annotate _) fun _ =>
          bind value fun found => bind (noteMissing property found.2) fun _ => pure _
      · exact fun _ => recorded path (bind (inductionHypothesis (pathRoot path)) fun _ => pure _)

/-- Lookups and expressions are not swayed by what they cannot see. -/
theorem congruence : ValueCongruence fun _ evaluation _ => evaluation.Unswayed surroundings where
  toCongruence := steps
  valueOf := fun path => bind (steps.given fun _ _ _ => rfl) fun limit => lookUp limit path

end Evaluation.Unswayed

end Statute
