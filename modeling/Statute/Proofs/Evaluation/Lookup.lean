/-
This file proves relations between lookups of paths.
-/

import Statute.Evaluation.Rule
import Statute.Proofs.Evaluation.Congruence

namespace Statute

/-- The paths that a selection of rows mentions. -/
def Selection.references (selection : Selection) : List String :=
  selection.value.references

/-- The paths that a reference in time mentions. -/
def Temporal.references (temporal : Option Temporal) : List String :=
  match temporal.bind Temporal.reference with
  | some text => (Value.string text).references
  | none => []

/-- The paths that the declaration of a property mentions. -/
def Property.references (property : Property) : List String :=
  (match property.sourceReference with
    | some reference => reference.selectOn.flatMap Selection.references
    | none => []) ++
  (match property.serviceReference with
    | some reference => reference.parameters.flatMap fun argument => argument.reference.references
    | none => []) ++
  Temporal.references property.temporal

/-- A relation that evaluations respect when it holds of the values of paths. -/
structure ValueCongruence (rel : EvaluationRelation) : Prop extends Congruence rel where
  valueOf : ∀ path : String, rel Value (Evaluation.valueOf path) (Evaluation.valueOf path)

/-- A relation that lookups respect when it holds of the values of properties, and also where they
are nested too deeply. -/
structure LookupCongruence (rel : EvaluationRelation) : Prop extends Congruence rel where
  tooDeep : rel Value (MonadExcept.throw .tooDeep) (MonadExcept.throw .tooDeep)
  obtain : ∀ (path : String) (property : Property) (reference : ServiceReference)
    (parameters : Record) (date : Date),
    rel Value (Call.obtain path property reference parameters date)
      (Call.obtain path property reference parameters date)
  recordedDate : ∀ (path : String) (value : Value),
    rel Value (Resolution.recorded path (Pure.pure ⟨some .date, value⟩))
      (Resolution.recorded path (Pure.pure ⟨some .date, value⟩))
  recordedFields : ∀ (path : String) (names : List String) {lookUp other : LookUp},
    rel Value (lookUp (pathRoot path)) (other (pathRoot path)) →
    rel Value (Resolution.recorded path (Resolution.resolveFields lookUp path names))
      (Resolution.recorded path (Resolution.resolveFields other path names))
  recordedName : ∀ (name : String) {lookUp other : LookUp},
    (∀ property, rel (Origin × Value) (Resolution.propertyValue lookUp name property)
      (Resolution.propertyValue other name property)) →
    rel Value (Resolution.recorded name (Resolution.resolveName lookUp name))
      (Resolution.recorded name (Resolution.resolveName other name))

/-- A relation that each step of a lookup respects by itself. -/
structure StepCongruence (rel : EvaluationRelation) : Prop extends Congruence rel where
  tooDeep : rel Value (MonadExcept.throw .tooDeep) (MonadExcept.throw .tooDeep)
  obtain : ∀ (path : String) (property : Property) (reference : ServiceReference)
    (parameters : Record) (date : Date),
    rel Value (Call.obtain path property reference parameters date)
      (Call.obtain path property reference parameters date)
  annotateProperty : ∀ property : Property,
    rel Unit (Resolution.annotateProperty property) (Resolution.annotateProperty property)
  noteMissing : ∀ (property : Property) (value : Value),
    rel Unit (Resolution.noteMissing property value) (Resolution.noteMissing property value)
  recorded : ∀ (path : String) {body other : Evaluation Resolution.Found},
    rel Resolution.Found body other →
    rel Value (Resolution.recorded path body) (Resolution.recorded path other)
  recordedName : ∀ (name : String) {lookUp other : LookUp},
    (∀ property, rel Resolution.Found (Resolution.resolveProperty lookUp name property)
      (Resolution.resolveProperty other name property)) →
    rel Value (Resolution.recorded name (Resolution.resolveName lookUp name))
      (Resolution.recorded name (Resolution.resolveName other name))

/-- The steps around the value of a property keep a relation that each of them respects. -/
theorem StepCongruence.lookups {rel : EvaluationRelation} (steps : StepCongruence rel) :
    LookupCongruence rel where
  toCongruence := steps.toCongruence
  tooDeep := steps.tooDeep
  obtain := steps.obtain
  recordedDate := fun path _ => steps.recorded path (steps.pure _)
  recordedFields := fun path _ _ _ related =>
    steps.recorded path (steps.bind related fun _ => steps.pure _)
  recordedName := fun name _ _ related =>
    steps.recordedName name fun property =>
      steps.bind (steps.annotateProperty property) fun _ =>
        steps.bind (related property) fun found =>
          steps.bind (steps.noteMissing property found.2) fun _ => steps.pure _

namespace Congruence

variable {rel : EvaluationRelation} (congruence : Congruence rel) {lookUp other : LookUp}

include congruence

theorem selectionOperand (selection : Selection)
    (related : ∀ path ∈ selection.references, rel Value (lookUp path) (other path)) :
    rel (Filter × Value) (selection.operand lookUp) (selection.operand other) := by
  unfold Selection.references at related
  unfold Selection.operand
  split
  · rename_i node written
    rw [written, Expr.references] at related
    split
    · obtain ⟨name, subject, value, values, conditions, combine, unit⟩ := node
      simp only [Operation.references, List.mem_append, or_imp, forall_and] at related
      have allowed := congruence.evaluatePart values related.1.2
      exact congruence.bind (congruence.partValue allowed) fun value => congruence.pure _
    · exact congruence.bind (congruence.evaluateOperation node related) fun value =>
        congruence.pure _
  · exact congruence.bind (congruence.evaluate selection.value related) fun value =>
      congruence.pure _

theorem touch (source : Source) : rel Unit (Selection.touch source) (Selection.touch source) := by
  unfold Selection.touch
  split
  · exact congruence.raiseFlag
  · exact congruence.pure ()

theorem narrow (selections : List Selection) (source : Source)
    (related : ∀ selection ∈ selections, ∀ path ∈ selection.references,
      rel Value (lookUp path) (other path)) :
    rel Source (Selection.narrow lookUp selections source)
      (Selection.narrow other selections source) := by
  induction selections generalizing source with
  | nil => exact congruence.pure source
  | cons selection rest inductionHypothesis =>
      refine congruence.bind (congruence.selectionOperand selection
        (related selection List.mem_cons_self)) fun operand =>
          congruence.bind (congruence.touch source) fun _ => ?_
      split
      · exact congruence.throw (EvaluationError.isShallow_source _)
      · exact inductionHypothesis _ fun next member =>
          related next (List.mem_cons_of_mem selection member)

theorem sourceResolve (reference : SourceReference)
    (related : ∀ selection ∈ reference.selectOn, ∀ path ∈ selection.references,
      rel Value (lookUp path) (other path)) :
    rel Value (reference.resolve lookUp) (reference.resolve other) := by
  refine congruence.bind (congruence.given fun _ _ _ => rfl) fun source => ?_
  split
  · exact congruence.pure Value.null
  · split
    · exact congruence.bind (congruence.narrow reference.selectOn _ related) fun narrowed =>
        congruence.pure _
    · exact congruence.pure Value.null

theorem overlay (arguments : List Argument) (parameters : Record)
    (related : ∀ argument ∈ arguments, ∀ path ∈ argument.reference.references,
      rel Value (lookUp path) (other path)) :
    rel Record (Argument.overlay lookUp arguments parameters)
      (Argument.overlay other arguments parameters) := by
  induction arguments generalizing parameters with
  | nil => exact congruence.pure parameters
  | cons argument rest inductionHypothesis =>
      exact congruence.bind
        (congruence.resolve argument.reference (related argument List.mem_cons_self)) fun value =>
          inductionHypothesis _ fun next member =>
            related next (List.mem_cons_of_mem argument member)

theorem dateOf (temporal : Option Temporal)
    (related : ∀ path ∈ Temporal.references temporal, rel Value (lookUp path) (other path)) :
    rel Date (Temporal.dateOf lookUp temporal) (Temporal.dateOf other temporal) := by
  unfold Temporal.references at related
  refine congruence.bind (congruence.given fun _ _ _ => rfl) fun today => ?_
  split
  · exact congruence.pure today
  · rename_i text written
    rw [written] at related
    refine congruence.bind (congruence.resolve (Value.string text) related) fun value => ?_
    split
    · exact congruence.pure today
    · refine congruence.ofResult fun error failed => ?_
      cases read : Date.ofValue value with
      | ok date => rw [read] at failed; cases failed
      | error cause => rw [read] at failed; cases failed; simp

theorem tableValue (property : Property)
    (related : ∀ path ∈ property.references, rel Value (lookUp path) (other path)) :
    rel Value (Resolution.tableValue lookUp property) (Resolution.tableValue other property) := by
  unfold Property.references at related
  unfold Resolution.tableValue
  split
  · rename_i reference declared
    rw [declared] at related
    simp only [List.mem_append, or_imp, forall_and, List.mem_flatMap] at related
    exact congruence.sourceResolve reference fun selection member path mentioned =>
      related.1.1 path ⟨selection, member, mentioned⟩
  · exact congruence.pure Value.null

theorem call (path : String) (property : Property) {reference : ServiceReference}
    (declared : property.serviceReference = some reference)
    (obtains : ∀ parameters date,
      rel Value (Call.obtain path property reference parameters date)
        (Call.obtain path property reference parameters date))
    (related : ∀ path ∈ property.references, rel Value (lookUp path) (other path)) :
    rel Value (Call.resolve lookUp path property reference)
      (Call.resolve other path property reference) := by
  unfold Property.references at related
  rw [declared] at related
  simp only [List.mem_append, or_imp, forall_and, List.mem_flatMap] at related
  refine congruence.bind congruence.checkCancelled fun _ => ?_
  refine congruence.bind (congruence.given fun _ _ _ => rfl) fun own => ?_
  refine congruence.bind (congruence.overlay reference.parameters own
    fun argument member path mentioned => related.1.2 path ⟨argument, member, mentioned⟩)
    fun parameters => ?_
  exact congruence.bind (congruence.dateOf property.temporal related.2) fun date =>
    obtains parameters date

/-- The values of a property are related when the paths that it mentions and the calls that it makes
are. -/
theorem propertyValue (path : String) (property : Property)
    (obtains : ∀ reference, property.serviceReference = some reference → ∀ parameters date,
      rel Value (Call.obtain path property reference parameters date)
        (Call.obtain path property reference parameters date))
    (related : ∀ path ∈ property.references, rel Value (lookUp path) (other path)) :
    rel (Origin × Value) (Resolution.propertyValue lookUp path property)
      (Resolution.propertyValue other path property) := by
  refine congruence.bind (congruence.given fun _ _ _ => rfl) fun override => ?_
  split
  · exact congruence.pure _
  · refine congruence.bind (congruence.tableValue property related) fun stored => ?_
    split
    · split
      · rename_i reference declared
        exact congruence.bind
          (congruence.call path property declared (obtains reference declared) related) fun value =>
            congruence.pure _
      · exact congruence.pure _
    · exact congruence.pure _

/-- One level of a lookup gives a date, or leads to a name or to the fields behind a name. -/
theorem lookUp_succ {path : String} {fuel otherFuel : Nat}
    (date : ∀ value, rel Value (Resolution.recorded path (Pure.pure ⟨some .date, value⟩))
      (Resolution.recorded path (Pure.pure ⟨some .date, value⟩)))
    (name : pathTail path = [] →
      rel Value (Resolution.recorded path (Resolution.resolveName (Resolution.lookUp fuel) path))
        (Resolution.recorded path (Resolution.resolveName (Resolution.lookUp otherFuel) path)))
    (fields : pathTail path ≠ [] →
      rel Value
        (Resolution.recorded path
          (Resolution.resolveFields (Resolution.lookUp fuel) path (pathTail path)))
        (Resolution.recorded path
          (Resolution.resolveFields (Resolution.lookUp otherFuel) path (pathTail path)))) :
    rel Value (Resolution.lookUp (fuel + 1) path) (Resolution.lookUp (otherFuel + 1) path) := by
  refine congruence.bind (congruence.given fun _ _ _ => rfl) fun dated => ?_
  split
  · exact date _
  · split
    · rename_i undotted
      exact name undotted
    · rename_i dotted
      exact fields dotted

end Congruence

namespace ValueCongruence

variable {rel : EvaluationRelation} (congruence : ValueCongruence rel)

include congruence

/-- Expressions are related to themselves. -/
theorem evaluateExpr (expr : Expr) :
    rel Value (expr.evaluate Evaluation.valueOf) (expr.evaluate Evaluation.valueOf) :=
  congruence.evaluate expr fun path _ => congruence.valueOf path

end ValueCongruence

namespace LookupCongruence

variable {rel : EvaluationRelation} (congruence : LookupCongruence rel)

include congruence

/-- Lookups are related at any fuel. -/
theorem lookUps (fuel : Nat) (path : String) :
    rel Value (Resolution.lookUp fuel path) (Resolution.lookUp fuel path) := by
  induction fuel generalizing path with
  | zero => exact congruence.tooDeep
  | succ fuel inductionHypothesis =>
      apply congruence.lookUp_succ
      · exact congruence.recordedDate path
      · intro _
        refine congruence.recordedName path fun property => ?_
        exact congruence.propertyValue path property
          (fun reference _ parameters date =>
            congruence.obtain path property reference parameters date)
          fun mentioned _ => inductionHypothesis mentioned
      · exact fun _ => congruence.recordedFields path _ (inductionHypothesis (pathRoot path))

/-- The values of paths are related where all lookups are. -/
theorem values : ValueCongruence rel where
  toCongruence := congruence.toCongruence
  valueOf := fun path =>
    congruence.bind (congruence.given fun _ _ _ => rfl) fun limit => congruence.lookUps limit path

end LookupCongruence

end Statute
