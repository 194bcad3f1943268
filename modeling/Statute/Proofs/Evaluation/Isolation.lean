/-
This file proves that an evaluation does not depend on the nodes around the innermost open ones.
-/

import Statute.Proofs.Evaluation.Calls
import Statute.Proofs.Evaluation.Simulation

namespace Statute

namespace Progress

/-- The progress with further nodes open around the open ones. -/
def around (tail : List TraceNode) (progress : Progress) : Progress :=
  { progress with openNodes := progress.openNodes ++ tail }

theorem around_inside (tail : List TraceNode) (node : TraceNode) (progress : Progress) :
    (progress.around tail).inside node = (progress.inside node).around tail :=
  rfl

/-- A node closes alike when there are nodes around it already. -/
theorem around_outside {progress : Progress} {node parent : TraceNode} {rest : List TraceNode}
    (nodes : progress.openNodes = node :: parent :: rest) (tail : List TraceNode) (result : Value) :
    (progress.around tail).outside result = (progress.outside result).around tail := by
  simp only [outside, around, nodes, List.cons_append, Evaluation.closeNode]

end Progress

/-- An evaluation that gives the same result and goes on alike whatever nodes are open around the
open ones. -/
structure Isolated {α : Type} (evaluation : Evaluation α) : Prop where
  bounded : Bounded evaluation
  surrounded : ∀ (surroundings : Surroundings) (progress : Progress) (tail : List TraceNode),
    progress.openNodes ≠ [] →
    evaluation.runFrom surroundings (progress.around tail) =
      ((evaluation.runFrom surroundings progress).1,
        (evaluation.runFrom surroundings progress).2.around tail)

namespace Isolated

open Progress

variable {α β : Type}

/-- A computation whose runs are known. -/
theorem ofRun {evaluation : Evaluation α}
    {result : Surroundings → Progress → Except EvaluationError α}
    {after : Surroundings → Progress → Progress} (bounded : Bounded evaluation)
    (ran : ∀ surroundings progress, evaluation.runFrom surroundings progress =
      (result surroundings progress, after surroundings progress))
    (same : ∀ surroundings progress tail,
      result surroundings (around tail progress) = result surroundings progress)
    (alike : ∀ surroundings progress tail, progress.openNodes ≠ [] →
      after surroundings (around tail progress) = (after surroundings progress).around tail) :
    Isolated evaluation := by
  refine ⟨bounded, fun surroundings progress tail opened => ?_⟩
  rw [ran, ran, same, alike _ _ _ opened]

theorem pure (value : α) : Isolated (pure value : Evaluation α) :=
  ofRun (.pure value) (fun _ _ => rfl) (fun _ _ _ => rfl) fun _ _ _ _ => rfl

theorem throw (error : EvaluationError) : Isolated (throw error : Evaluation α) :=
  ofRun (.throw error) (fun _ _ => rfl) (fun _ _ _ => rfl) fun _ _ _ _ => rfl

theorem given (view : Surroundings → α) : Isolated (Evaluation.given view) :=
  ofRun (.given view) (fun _ _ => rfl) (fun _ _ _ => rfl) fun _ _ _ _ => rfl

theorem isMissing : Isolated Evaluation.isMissing :=
  ofRun .isMissing (fun _ _ => rfl) (fun _ _ _ => rfl) fun _ _ _ _ => rfl

theorem raiseFlag : Isolated Evaluation.raiseFlag :=
  ofRun .raiseFlag (fun _ _ => rfl) (fun _ _ _ => rfl) fun _ _ _ _ => rfl

theorem noteMissing (property : Property) (value : Value) :
    Isolated (Resolution.noteMissing property value) :=
  ofRun (.noteMissing property value) (fun _ _ => rfl) (fun _ _ _ => rfl) fun _ _ _ _ => rfl

theorem checkCancelled : Isolated Evaluation.checkCancelled := by
  refine ⟨.checkCancelled, fun surroundings progress tail _ => ?_⟩
  rw [Evaluation.runFrom_checkCancelled, Evaluation.runFrom_checkCancelled]
  rfl

theorem annotate {change : TraceNode → TraceNode}
    (grows : ∀ node : TraceNode, node.Grows (change node)) :
    Isolated (Evaluation.annotate change) := by
  refine ofRun (.annotate grows) (fun _ _ => rfl) (fun _ _ _ => rfl) ?_
  intro _ progress tail opened
  cases nodes : progress.openNodes with
  | nil => exact absurd nodes opened
  | cons node rest => simp only [around, nodes, List.cons_append]

theorem annotateProperty (property : Property) :
    Isolated (Resolution.annotateProperty property) :=
  annotate (TraceNode.Grows.withProperty property)

/-- After a step that succeeds a node is still open. -/
theorem opened_after {evaluation : Evaluation α} (bounded : Bounded evaluation)
    {surroundings : Surroundings} {progress after : Progress} {value : α}
    (ran : evaluation.runFrom surroundings progress = (.ok value, after))
    (opened : progress.openNodes ≠ []) : after.openNodes ≠ [] := by
  obtain ⟨top, tail, nodes⟩ := List.exists_cons_of_ne_nil opened
  obtain ⟨grown, later, _⟩ := bounded.stays _ _ _ _ ran top tail nodes
  rw [later]
  exact List.cons_ne_nil _ _

theorem bind {first : Evaluation α} {next : α → Evaluation β} (isolated : Isolated first)
    (continues : ∀ value, Isolated (next value)) : Isolated (first >>= next) := by
  refine ⟨.bind isolated.bounded fun value => (continues value).bounded, ?_⟩
  intro surroundings progress tail opened
  have begun := isolated.surrounded surroundings progress tail opened
  cases ran : first.runFrom surroundings progress with
  | mk result between =>
      rw [ran] at begun
      cases result with
      | error error =>
          rw [Evaluation.runFrom_bind_of_error ran, Evaluation.runFrom_bind_of_error begun]
      | ok value =>
          rw [Evaluation.runFrom_bind_of_ok ran, Evaluation.runFrom_bind_of_ok begun]
          exact (continues value).surrounded _ _ _ (opened_after isolated.bounded ran opened)

theorem inNode {node : TraceNode} (shown : α → Value) {body : Evaluation α}
    (plain : node.IsPlain) (isolated : Isolated body) :
    Isolated (Evaluation.inNode node shown body) := by
  refine ⟨.inNode shown plain.silent plain.noCall isolated.bounded, ?_⟩
  intro surroundings progress tail opened
  have inner := isolated.surrounded surroundings (progress.inside node) tail (List.cons_ne_nil _ _)
  rw [Evaluation.runFrom_inNode, Evaluation.runFrom_inNode, around_inside, inner]
  cases ran : body.runFrom surroundings (progress.inside node) with
  | mk result between =>
      cases result with
      | error error => rfl
      | ok value =>
          obtain ⟨parent, rest, nodes⟩ := List.exists_cons_of_ne_nil opened
          obtain ⟨grown, later, _⟩ := isolated.bounded.stays _ _ _ _ ran node _ rfl
          dsimp only
          rw [around_outside (later.trans (congrArg _ nodes))]

theorem within (scope : Record) {body : Evaluation α} (isolated : Isolated body) :
    Isolated (Evaluation.within scope body) := by
  refine ⟨.within scope isolated.bounded, fun surroundings progress tail opened => ?_⟩
  have inner := isolated.surrounded surroundings { progress with scope } tail opened
  have same : { progress.around tail with scope } =
      ({ progress with scope } : Progress).around tail := rfl
  rw [Evaluation.runFrom_within, Evaluation.runFrom_within, same, inner]
  rfl

theorem recorded (path : String) {body : Evaluation Resolution.Found} (isolated : Isolated body) :
    Isolated (Resolution.recorded path body) := by
  refine ⟨.recorded path isolated.bounded, fun surroundings progress tail opened => ?_⟩
  let begun := (progress.withAccess path).inside (TraceNode.resolving path)
  have inner := isolated.surrounded surroundings begun tail (List.cons_ne_nil _ _)
  have same : ((progress.around tail).withAccess path).inside (TraceNode.resolving path) =
      begun.around tail := rfl
  rw [Resolution.runFrom_recorded, Resolution.runFrom_recorded, same, inner]
  cases ran : body.runFrom surroundings begun with
  | mk result between =>
      cases result with
      | error error => rfl
      | ok found =>
          obtain ⟨parent, rest, nodes⟩ := List.exists_cons_of_ne_nil opened
          obtain ⟨grown, later, _⟩ := isolated.bounded.stays _ _ _ _ ran _ _ rfl
          have withFound : (between.around tail).withFound path found =
              (between.withFound path found).around tail := by
            simp only [Progress.withFound, around, later, List.cons_append]
            cases found.origin <;> rfl
          have shown := Resolution.notes_withFound path found later
          dsimp only
          rw [withFound, around_outside (shown.trans (congrArg _ nodes))]

/-- A name is bound alike, since what binds it does not belong to the nodes. -/
theorem resolveName {lookUp : LookUp} {name : String}
    (isolated : ∀ property, Isolated (Resolution.resolveProperty lookUp name property)) :
    Isolated (Resolution.resolveName lookUp name) := by
  refine ⟨.resolveName fun property => (isolated property).bounded, ?_⟩
  intro surroundings progress tail opened
  cases claimed : Entries.get? name surroundings.claims with
  | some value =>
      rw [Resolution.runFrom_resolveName_claim claimed, Resolution.runFrom_resolveName_claim claimed]
      unfold Resolution.resolveClaim
      split
      · exact (bind (annotateProperty _) fun _ => pure _).surrounded _ _ _ opened
      · rfl
  | none =>
      have bound : Resolution.bound? surroundings (progress.around tail) name =
          Resolution.bound? surroundings progress name := rfl
      rw [Resolution.runFrom_resolveName claimed, Resolution.runFrom_resolveName claimed, bound]
      unfold Resolution.unclaimed
      split
      · rfl
      · split
        · exact (isolated _).surrounded _ _ _ opened
        · rfl

theorem obtain (question : Call.Question) :
    Isolated (Call.obtain question.path question.property question.reference question.parameters
      question.date) := by
  refine ⟨.obtain question, fun surroundings progress tail opened => ?_⟩
  have memo : (progress.around tail).remembered? question.key = progress.remembered? question.key :=
    rfl
  cases remembered : progress.remembered? question.key with
  | some value =>
      rw [Call.runFrom_obtain_some remembered, Call.runFrom_obtain_some (memo.trans remembered)]
      have cached : Isolated (do
          Evaluation.annotateDetail "cached" (.bool true)
          return value) :=
        bind (annotate (.withDetail (by decide) _)) fun _ => pure value
      exact cached.surrounded _ _ _ opened
  | none =>
      rw [Call.runFrom_obtain_none remembered, Call.runFrom_obtain_none (memo.trans remembered)]
      cases answered : surroundings.provider (question.request surroundings) progress.shared with
      | mk result shared =>
          have same : surroundings.provider (question.request surroundings)
              (progress.around tail).shared = (result, shared) := answered
          cases result with
          | error cause =>
              rw [Call.runFrom_perform_error answered, Call.runFrom_perform_error same]
              rfl
          | ok outcome =>
              obtain ⟨parent, rest, nodes⟩ := List.exists_cons_of_ne_nil opened
              rw [Call.runFrom_perform_ok answered, Call.runFrom_perform_ok same]
              simp only [Call.Question.afterAnswer, outside, inside, around, nodes, List.cons_append,
                Evaluation.closeNode]

/-- The steps of lookups are isolated. -/
theorem steps : StepCongruence fun _ evaluation _ => Isolated evaluation where
  pure := pure
  throw := fun _ => throw _
  bind := bind
  given := fun _ => given _
  isMissing := isMissing
  checkCancelled := checkCancelled
  raiseFlag := raiseFlag
  detail := fun value noCallDetail => annotate (.withDetail noCallDetail value)
  inNode := fun shown _ _ plain isolated => inNode shown plain isolated
  within := fun scope _ _ isolated => within scope isolated
  tooDeep := throw _
  obtain := fun path property reference parameters date =>
    obtain ⟨path, property, reference, parameters, date⟩
  annotateProperty := annotateProperty
  noteMissing := noteMissing
  recorded := fun path _ _ isolated => recorded path isolated
  recordedName := fun name _ _ isolated => recorded name (resolveName isolated)

/-- All lookups are isolated. -/
theorem congruence : ValueCongruence fun _ evaluation _ => Isolated evaluation :=
  steps.lookups.values

end Isolated

end Statute
