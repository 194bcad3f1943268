/-
This file computes the runs of calls to other laws, and proves what all evaluations leave as it was.
-/

import Statute.Proofs.Evaluation.Frame

namespace Statute

namespace Call

/-- What a call to another law asks for. -/
structure Question where
  path : String
  property : Property
  reference : ServiceReference
  parameters : Record
  date : Date

namespace Question

/-- The node of a call. -/
def node (question : Question) : TraceNode :=
  Call.node question.path question.property question.reference question.parameters question.date

/-- The name under which the value of a call is kept. -/
def key (question : Question) : String :=
  memoKey question.path question.parameters question.date.text

/-- The request of a call. -/
def request (question : Question) (surroundings : Surroundings) : Request :=
  Call.request surroundings question.reference question.parameters question.date

/-- The value that a call takes from an answer. -/
def valueIn (question : Question) (outcome : Outcome) : Value :=
  Value.ofOption (Entries.get? question.reference.field outcome.output)

/-- What the node of a call shows. -/
def record (question : Question) : CallRecord :=
  { path := question.path
    service := question.reference.service
    law := question.reference.law
    field := question.reference.field
    parameters := question.parameters
    date := question.date.text }

theorem callRecord_node (question : Question) : question.node.callRecord = question.record := by
  simp [node, Call.node, record, TraceNode.callRecord, TraceNode.textDetail, TraceNode.recordDetail,
    Entries.ofList, Entries.get?_insert, Value.string?, Value.record?]

/-- The node of a call with the answer's trace below it. -/
def answeredNode (question : Question) (outcome : Outcome) : TraceNode :=
  match outcome.trace with
  | some trace => question.node.withChild trace
  | none => question.node

theorem node_grows (question : Question) (outcome : Outcome) :
    question.node.Grows (question.answeredNode outcome) := by
  unfold answeredNode
  split
  · exact .withChild _ _
  · exact .refl _

/-- The progress after a call that failed. Its node stays open. -/
def afterFailure (question : Question) (shared : Shared) (progress : Progress) : Progress :=
  { progress.inside question.node with shared }

/-- The progress after a call that was answered. -/
def afterAnswer (question : Question) (outcome : Outcome) (shared : Shared) (progress : Progress) :
    Progress :=
  Progress.outside (question.valueIn outcome)
    { progress.inside (question.answeredNode outcome) with
      memo := progress.memo.map (Entries.insert question.key (question.valueIn outcome))
      missingRequired := progress.missingRequired || outcome.missingRequired
      shared }

end Question

variable {question : Question} {surroundings : Surroundings} {progress : Progress}
  {shared : Shared} {outcome : Outcome} {cause : EvaluationError}

theorem runFrom_ask_ok {reference : ServiceReference} {request : Request}
    (answered : surroundings.provider request progress.shared = (.ok outcome, shared)) :
    (ask reference request).runFrom surroundings progress = (.ok outcome, { progress with shared }) := by
  simp only [ask, Evaluation.runFrom_bind, Evaluation.runFrom_read, Evaluation.runFrom_get,
    Evaluation.runFrom_set, answered]
  rfl

theorem runFrom_ask_error {reference : ServiceReference} {request : Request}
    (failed : surroundings.provider request progress.shared = (.error cause, shared)) :
    (ask reference request).runFrom surroundings progress =
      (.error (.serviceCall reference.service reference.law cause), { progress with shared }) := by
  simp only [ask, Evaluation.runFrom_bind, Evaluation.runFrom_read, Evaluation.runFrom_get,
    Evaluation.runFrom_set, failed]
  rfl

/-- The run of a call that is answered. -/
theorem runFrom_perform_ok
    (answered : surroundings.provider (question.request surroundings) progress.shared =
      (.ok outcome, shared)) :
    (perform question.path question.property question.reference question.parameters
      question.date).runFrom surroundings progress =
      (.ok (question.valueIn outcome), question.afterAnswer outcome shared progress) := by
  have asked : (ask question.reference (question.request surroundings)).runFrom surroundings
      (progress.inside question.node) = (.ok outcome, { progress.inside question.node with shared }) :=
    runFrom_ask_ok answered
  rw [perform, Evaluation.runFrom_bind, Evaluation.runFrom_read]
  dsimp only
  rw [Evaluation.runFrom_inNode]
  rw [Question.node, Question.request] at asked
  rw [Evaluation.runFrom_bind_of_ok asked]
  obtain ⟨output, met, missing, input, ruleId, trace⟩ := outcome
  cases trace <;> rfl

/-- The run of a call that fails. -/
theorem runFrom_perform_error
    (failed : surroundings.provider (question.request surroundings) progress.shared =
      (.error cause, shared)) :
    (perform question.path question.property question.reference question.parameters
      question.date).runFrom surroundings progress =
      (.error (.serviceCall question.reference.service question.reference.law cause),
        question.afterFailure shared progress) := by
  have asked : (ask question.reference (question.request surroundings)).runFrom surroundings
      (progress.inside question.node) =
        (.error (.serviceCall question.reference.service question.reference.law cause),
          { progress.inside question.node with shared }) :=
    runFrom_ask_error failed
  rw [perform, Evaluation.runFrom_bind, Evaluation.runFrom_read]
  dsimp only
  rw [Evaluation.runFrom_inNode]
  rw [Question.node, Question.request] at asked
  rw [Evaluation.runFrom_bind_of_error asked]
  rfl

/-- A remembered value stands for a call. -/
theorem runFrom_obtain_some {value : Value}
    (remembered : progress.remembered? question.key = some value) :
    (obtain question.path question.property question.reference question.parameters
      question.date).runFrom surroundings progress =
      ((do
        Evaluation.annotateDetail "cached" (.bool true)
        return value) : Evaluation Value).runFrom surroundings progress := by
  rw [Progress.remembered?, Question.key] at remembered
  rw [obtain, Evaluation.runFrom_bind, Evaluation.runFrom_get]
  dsimp only
  rw [remembered]

theorem runFrom_obtain_none (forgotten : progress.remembered? question.key = none) :
    (obtain question.path question.property question.reference question.parameters
      question.date).runFrom surroundings progress =
      (perform question.path question.property question.reference question.parameters
        question.date).runFrom surroundings progress := by
  rw [Progress.remembered?, Question.key] at forgotten
  rw [obtain, Evaluation.runFrom_bind, Evaluation.runFrom_get]
  dsimp only
  rw [forgotten]

end Call

namespace Call.Question

open Progress

variable (question : Question) (outcome : Outcome) (shared : Shared) (progress : Progress)

/-- A node that says that a call was made. -/
theorem openNotes_node : question.node.openNotes = [.call question.record] := by
  have own : question.node.ownNotes = [.call question.node.callRecord] := rfl
  rw [TraceNode.openNotes, own, callRecord_node]
  rfl

theorem notes_answeredNode (result : Value) :
    ({ question.answeredNode outcome with result } : TraceNode).notes = [.call question.record] := by
  have grows := question.node_grows outcome
  have isCall : (question.answeredNode outcome).kind = .serviceEvaluation := by
    rw [grows.kind]
    rfl
  have own : (question.answeredNode outcome).ownNotes = [.call question.record] := by
    have single : question.node.ownNotes = [.call question.node.callRecord] := rfl
    rw [grows.ownNotes, single, callRecord_node]
  rw [TraceNode.notes_eq, if_pos isCall, List.append_nil]
  exact own

theorem notes_afterFailure :
    (question.afterFailure shared progress).notes = .call question.record :: progress.notes := by
  have nodes : (question.afterFailure shared progress).openNodes =
      question.node :: progress.openNodes := rfl
  rw [notes, nodes, List.flatMap_cons, openNotes_node]
  rfl

/-- A call that was answered is noted, and no earlier note is lost. -/
theorem notes_afterAnswer :
    .call question.record :: progress.notes ⊆
      (question.afterAnswer outcome shared progress).notes := by
  have nodes : (question.afterAnswer outcome shared progress).openNodes =
      Evaluation.closeNode (question.valueIn outcome)
        (question.answeredNode outcome :: progress.openNodes) := rfl
  have closed := question.notes_answeredNode outcome (question.valueIn outcome)
  rw [notes, notes, nodes]
  cases progress.openNodes with
  | nil =>
      have same : ({ question.answeredNode outcome with
          result := question.valueIn outcome } : TraceNode).openNotes =
          (question.answeredNode outcome).openNotes := rfl
      have own := (question.node_grows outcome).openNotes
      rw [openNotes_node] at own
      rw [Evaluation.closeNode, List.flatMap_cons, same, List.flatMap_nil, List.append_nil]
      exact own
  | cons parent rest =>
      simp only [Evaluation.closeNode, List.flatMap_cons, TraceNode.openNotes_withChild, closed]
      intro note member
      simp only [List.mem_cons, List.mem_append, List.not_mem_nil, or_false] at member ⊢
      rcases member with call | earlier | others
      · exact .inl (.inr call)
      · exact .inl (.inl earlier)
      · exact .inr others

/-- A call that was forgotten adds its value to the memo. -/
theorem remembered_afterAnswer (key : String) :
    (question.afterAnswer outcome shared progress).remembered? key =
      if key = question.key then progress.memo.map fun _ => question.valueIn outcome
      else progress.remembered? key := by
  have memo : (question.afterAnswer outcome shared progress).memo =
      progress.memo.map (Entries.insert question.key (question.valueIn outcome)) := rfl
  rw [remembered?, remembered?, memo]
  cases progress.memo with
  | none => simp
  | some entries =>
      simp only [Option.map_some, Option.bind_some, Entries.get?_insert]

theorem afterFailure_extends : progress.Extends (question.afterFailure shared progress) := by
  refine ⟨rfl, rfl, fun _ accessed => accessed, fun _ _ remembered => remembered,
    fun memoless => memoless, fun missing => missing, ?_⟩
  rw [notes_afterFailure]
  exact List.subset_cons_self _ _

theorem afterAnswer_extends (forgotten : progress.remembered? question.key = none) :
    progress.Extends (question.afterAnswer outcome shared progress) := by
  refine ⟨rfl, rfl, fun _ accessed => accessed, ?_, ?_, ?_, ?_⟩
  · intro key value remembered
    rw [remembered_afterAnswer]
    split
    · rename_i same
      rw [same, forgotten] at remembered
      cases remembered
    · exact remembered
  · intro memoless
    have memo : (question.afterAnswer outcome shared progress).memo =
        progress.memo.map (Entries.insert question.key (question.valueIn outcome)) := rfl
    rw [memo, memoless]
    rfl
  · intro missing
    have flag : (question.afterAnswer outcome shared progress).missingRequired =
        (progress.missingRequired || outcome.missingRequired) := rfl
    rw [flag, missing, Bool.true_or]
  · exact fun _ note =>
      question.notes_afterAnswer outcome shared progress (List.mem_cons_of_mem _ note)

theorem afterAnswer_stays : progress.Stays (question.afterAnswer outcome shared progress) := by
  intro top tail nodes
  refine ⟨top.withChild { question.answeredNode outcome with result := question.valueIn outcome },
    ?_, .withChild top _⟩
  rw [afterAnswer, outside, inside, nodes]
  rfl

end Call.Question

namespace Bounded

theorem obtain (question : Call.Question) :
    Bounded (Call.obtain question.path question.property question.reference question.parameters
      question.date) := by
  have remembers (value : Value) : Bounded (do
      Evaluation.annotateDetail "cached" (.bool true)
      return value) :=
    bind (detail _ (by decide)) fun _ => pure value
  constructor
  · intro surroundings progress
    cases remembered : progress.remembered? question.key with
    | some value =>
        rw [Call.runFrom_obtain_some remembered]
        exact (remembers value).grows surroundings progress
    | none =>
        rw [Call.runFrom_obtain_none remembered]
        cases answered : surroundings.provider (question.request surroundings) progress.shared with
        | mk result shared =>
            cases result with
            | ok outcome =>
                rw [Call.runFrom_perform_ok answered]
                exact question.afterAnswer_extends outcome shared progress remembered
            | error cause =>
                rw [Call.runFrom_perform_error answered]
                exact question.afterFailure_extends shared progress
  · intro surroundings progress value after ran
    cases remembered : progress.remembered? question.key with
    | some value =>
        rw [Call.runFrom_obtain_some remembered] at ran
        exact (remembers value).stays _ _ _ _ ran
    | none =>
        rw [Call.runFrom_obtain_none remembered] at ran
        cases answered : surroundings.provider (question.request surroundings) progress.shared with
        | mk result shared =>
            cases result with
            | ok outcome =>
                rw [Call.runFrom_perform_ok answered] at ran
                cases ran
                exact question.afterAnswer_stays outcome shared progress
            | error cause =>
                rw [Call.runFrom_perform_error answered] at ran
                cases ran

/-- The steps of lookups are bounded. -/
theorem steps : StepCongruence fun _ evaluation _ => Bounded evaluation where
  pure := pure
  throw := fun _ => throw _
  bind := bind
  given := fun _ => given _
  isMissing := isMissing
  checkCancelled := checkCancelled
  raiseFlag := raiseFlag
  detail := fun value noCallDetail => detail value noCallDetail
  inNode := fun shown _ _ plain bounded => inNode shown plain.silent plain.noCall bounded
  within := fun scope _ _ bounded => within scope bounded
  tooDeep := throw _
  obtain := fun path property reference parameters date =>
    obtain ⟨path, property, reference, parameters, date⟩
  annotateProperty := annotateProperty
  noteMissing := noteMissing
  recorded := fun path _ _ bounded => recorded path bounded
  recordedName := fun name _ _ bounded => recorded name (resolveName bounded)

/-- All lookups are bounded. -/
theorem congruence : ValueCongruence fun _ evaluation _ => Bounded evaluation :=
  steps.lookups.values

/-- Evaluating an expression is bounded. -/
theorem evaluateExpr (expr : Expr) : Bounded (expr.evaluate Evaluation.valueOf) :=
  congruence.evaluateExpr expr

end Bounded

end Statute
