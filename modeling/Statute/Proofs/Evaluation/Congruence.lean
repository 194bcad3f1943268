/-
This file proves relations between evaluations of expressions by proving them of single steps.
-/

import Mathlib.Data.List.Forall2
import Statute.Evaluation.Requirement
import Statute.Evaluation.Selection
import Statute.Proofs.Evaluation.Errors

namespace Statute

/-- A relation between evaluations that give the same kind of value. -/
abbrev EvaluationRelation := ∀ α : Type, Evaluation α → Evaluation α → Prop

namespace TraceNode

/-- The details that describe a call. -/
def callDetails : List String := ["service", "law", "field", "parameters", "reference_date"]

/-- A node inside an evaluation that neither looks up a path nor calls a law, with nothing below it
yet. -/
structure IsPlain (node : TraceNode) : Prop where
  noLookUp : node.kind ≠ .resolve
  noCall : node.kind ≠ .serviceEvaluation
  noRoot : node.kind ≠ .root
  isLeaf : node.children = []

theorem isPlain_fresh {kind : NodeKind} (name : String) (noLookUp : kind ≠ .resolve)
    (noCall : kind ≠ .serviceEvaluation) (noRoot : kind ≠ .root) : (fresh kind name).IsPlain :=
  ⟨noLookUp, noCall, noRoot, rfl⟩

end TraceNode

/-- What an evaluation sees of its surroundings without asking the provider or the caller's flag. -/
def IsPlainView {α : Type} (view : Surroundings → α) : Prop :=
  ∀ surroundings provider cancellation,
    view { surroundings with provider, cancellation } = view surroundings

/-- A relation that each step of an evaluation respects. No step fails for nesting by itself. -/
structure Congruence (rel : EvaluationRelation) : Prop where
  pure : ∀ {α : Type} (value : α), rel α (pure value) (pure value)
  throw : ∀ {α : Type} {error : EvaluationError}, error.IsShallow →
    rel α (throw error) (throw error)
  bind : ∀ {α β : Type} {first second : Evaluation α} {next other : α → Evaluation β},
    rel α first second → (∀ value, rel β (next value) (other value)) →
    rel β (first >>= next) (second >>= other)
  given : ∀ {α : Type} {view : Surroundings → α}, IsPlainView view →
    rel α (Evaluation.given view) (Evaluation.given view)
  isMissing : rel Bool Evaluation.isMissing Evaluation.isMissing
  checkCancelled : rel Unit Evaluation.checkCancelled Evaluation.checkCancelled
  raiseFlag : rel Unit Evaluation.raiseFlag Evaluation.raiseFlag
  detail : ∀ {name : String} (value : Value), name ∉ TraceNode.callDetails →
    rel Unit (Evaluation.annotateDetail name value) (Evaluation.annotateDetail name value)
  inNode : ∀ {α : Type} {node : TraceNode} (shown : α → Value) {body other : Evaluation α},
    node.IsPlain → rel α body other →
    rel α (Evaluation.inNode node shown body) (Evaluation.inNode node shown other)
  within : ∀ {α : Type} (scope : Record) {body other : Evaluation α}, rel α body other →
    rel α (Evaluation.within scope body) (Evaluation.within scope other)

/-- Operands with related parts. -/
inductive Operand.Related (rel : EvaluationRelation) : Operand → Operand → Prop
  | each {parts others : List (Evaluation Value)} :
      List.Forall₂ (rel Value) parts others → Related rel (.each parts) (.each others)
  | whole {part other : Evaluation Value} : rel Value part other →
      Related rel (.whole part) (.whole other)

/-- Branches with related parts. -/
structure Branch.Related (rel : EvaluationRelation) (branch other : Branch) : Prop where
  test : Option.Rel (rel Value) branch.test other.test
  result : Option.Rel (rel Value) branch.result other.result
  otherwise : Option.Rel (rel Value) branch.otherwise other.otherwise

/-- Operations with related parts. -/
structure Parts.Related (rel : EvaluationRelation) (parts others : Parts) : Prop where
  subject : Option.Rel (rel Value) parts.subject others.subject
  value : Option.Rel (Operand.Related rel) parts.value others.value
  values : Option.Rel (Operand.Related rel) parts.values others.values
  branches : Option.Rel (List.Forall₂ (Branch.Related rel)) parts.branches others.branches
  combine : parts.combine = others.combine
  unit : parts.unit = others.unit

namespace Congruence

variable {rel : EvaluationRelation}

theorem operandBody {operand other : Option Operand}
    (related : Option.Rel (Operand.Related rel) operand other) :
    Option.Rel (rel Value) (operand.bind Operand.body?) (other.bind Operand.body?) := by
  cases related with
  | none => exact .none
  | some related =>
      cases related with
      | whole related => exact .some related
      | each related =>
          cases related with
          | nil => exact .none
          | cons head _ => exact .some head

section Operators

variable (congruence : Congruence rel)

include congruence

theorem ofResult {α : Type} {result : Except EvaluationError α}
    (shallow : ∀ error, result = .error error → error.IsShallow) :
    rel α (Evaluation.ofResult result) (Evaluation.ofResult result) := by
  cases result with
  | ok value => exact congruence.pure value
  | error error => exact congruence.throw (shallow error rfl)

theorem malformed {α : Type} (operator : Operator) (reason : String) :
    rel α (malformed operator reason) (malformed operator reason) :=
  congruence.throw (EvaluationError.isShallow_rule _)

theorem partValue {part other : Option (Evaluation Value)} (related : Option.Rel (rel Value) part other) :
    rel Value (partValue part) (partValue other) := by
  cases related with
  | some related => exact related
  | none => exact congruence.pure Value.null

theorem runAll {parts others : List (Evaluation Value)}
    (related : List.Forall₂ (rel Value) parts others) :
    rel (List Value) (runAll parts) (runAll others) := by
  induction related with
  | nil => exact congruence.pure []
  | cons head _ inductionHypothesis =>
      exact congruence.bind head fun value =>
        congruence.bind inductionHypothesis fun values => congruence.pure (value :: values)

theorem operandValue {operand other : Operand} (related : operand.Related rel other) :
    rel Value operand.value other.value := by
  cases related with
  | each related =>
      exact congruence.bind (congruence.runAll related) fun values =>
        congruence.pure (Value.list values)
  | whole related => exact related

theorem operandValueOf {operand other : Option Operand}
    (related : Option.Rel (Operand.Related rel) operand other) :
    rel Value (Operand.valueOf operand) (Operand.valueOf other) := by
  cases related with
  | some related => exact congruence.operandValue related
  | none => exact congruence.pure Value.null

theorem operandValues {operand other : Operand} (related : operand.Related rel other) :
    rel (List Value) operand.values other.values := by
  cases related with
  | each related => exact congruence.runAll related
  | whole related => exact congruence.bind related fun value => congruence.pure value.spread

theorem operands {parts others : Parts} (related : parts.Related rel others) :
    rel (List Value) parts.operands others.operands := by
  have values := related.values
  unfold Parts.operands
  generalize parts.values = operand, others.values = other at values
  cases values with
  | some related => exact congruence.operandValues related
  | none => exact congruence.pure []

theorem single {parts others : Parts} (related : parts.Related rel others) :
    rel Value parts.single others.single := by
  have subject := related.subject
  unfold Parts.single
  generalize parts.subject = part, others.subject = other at subject
  cases subject with
  | some related => exact related
  | none =>
      exact congruence.bind (congruence.operands related) fun values =>
        congruence.pure (Value.ofOption values.head?)

theorem decideEach (decisive : Bool) {parts others : List (Evaluation Value)}
    (related : List.Forall₂ (rel Value) parts others) :
    rel (Bool × List Value) (Operator.decideEach decisive parts)
      (Operator.decideEach decisive others) := by
  induction related with
  | nil => exact congruence.pure _
  | cons head _ inductionHypothesis =>
      refine congruence.bind head fun value => ?_
      split
      · exact congruence.pure _
      · exact congruence.bind inductionHypothesis fun decided => congruence.pure _

theorem decideOperands (decisive : Bool) {operand other : Option Operand}
    (related : Option.Rel (Operand.Related rel) operand other) :
    rel (Bool × List Value) (Operator.decideOperands decisive operand)
      (Operator.decideOperands decisive other) := by
  cases related with
  | none => exact congruence.pure _
  | some related =>
      cases related with
      | each related => exact congruence.decideEach decisive related
      | whole related => exact congruence.bind related fun value => congruence.pure _

theorem shortCircuit (decisive : Bool) {parts others : Parts} (related : parts.Related rel others) :
    rel Value (Operator.shortCircuit decisive parts) (Operator.shortCircuit decisive others) := by
  refine congruence.bind (congruence.decideOperands decisive related.values) fun decided => ?_
  refine congruence.bind (congruence.detail _ ?_) fun _ => congruence.pure _
  decide

theorem firstTwo (comparison : Comparison) {parts others : Parts}
    (related : parts.Related rel others) :
    rel (Value × Value) (Operator.firstTwo comparison parts)
      (Operator.firstTwo comparison others) := by
  refine congruence.bind (congruence.operands related) fun values => ?_
  split
  · exact congruence.pure _
  · exact congruence.malformed _ _

theorem comparisonOperands (comparison : Comparison) {parts others : Parts}
    (related : parts.Related rel others) :
    rel (Value × Value) (Operator.comparisonOperands comparison parts)
      (Operator.comparisonOperands comparison others) := by
  have listed := congruence.firstTwo comparison related
  have subject := related.subject
  have value := related.value
  unfold Operator.comparisonOperands
  generalize parts.subject = part, others.subject = otherPart at subject
  generalize parts.value = operand, others.value = otherOperand at value
  cases subject with
  | none => exact listed
  | some subject =>
      cases value with
      | none => exact listed
      | some value =>
          exact congruence.bind subject fun left =>
            congruence.bind (congruence.operandValue value) fun right => congruence.pure (left, right)

theorem membership (expected : Bool) {parts others : Parts} (related : parts.Related rel others) :
    rel Value (Operator.membership expected parts) (Operator.membership expected others) := by
  refine congruence.bind (congruence.single related) fun subject => ?_
  refine congruence.bind (congruence.operandValueOf related.values) fun allowed => ?_
  refine congruence.bind (congruence.detail _ ?_) fun _ => ?_
  · decide
  · refine congruence.bind (congruence.detail _ ?_) fun _ => congruence.pure _
    decide

theorem choose (index : Nat) {branches others : List Branch}
    (related : List.Forall₂ (Branch.Related rel) branches others) :
    rel Value (Operator.choose index branches) (Operator.choose index others) := by
  have detail (index : Nat) :
      rel Unit (Evaluation.annotateDetail "branch" (.int (Int64.ofNat index)))
        (Evaluation.annotateDetail "branch" (.int (Int64.ofNat index))) :=
    congruence.detail _ (by decide)
  induction related generalizing index with
  | nil => exact congruence.pure Value.null
  | @cons branch other rest otherRest head _ inductionHypothesis =>
      have test := head.test
      have otherwise := head.otherwise
      unfold Operator.choose
      generalize branch.test = part, other.test = otherPart at test
      generalize branch.otherwise = final, other.otherwise = otherFinal at otherwise
      cases test with
      | some test =>
          refine congruence.bind test fun value => ?_
          split
          · exact congruence.bind (detail index) fun _ => congruence.partValue head.result
          · exact inductionHypothesis (index + 1)
      | none =>
          cases otherwise with
          | some otherwise => exact congruence.bind (detail index) fun _ => otherwise
          | none => exact inductionHypothesis (index + 1)

theorem iterate {body other : Evaluation Value} (related : rel Value body other)
    (items : List Value) :
    rel (List Value) (Operator.iterate body items) (Operator.iterate other items) := by
  induction items with
  | nil => exact congruence.pure []
  | cons item rest inductionHypothesis =>
      exact congruence.bind (congruence.within _ related) fun result =>
        congruence.bind inductionHypothesis fun results => congruence.pure _

theorem iterateOver {body other : Evaluation Value} (related : rel Value body other)
    (subject : Value) :
    rel (List Value) (Operator.iterateOver body subject) (Operator.iterateOver other subject) := by
  unfold Operator.iterateOver
  split
  · exact congruence.iterate related subject.spread
  · exact congruence.pure []

theorem combination (combine : Option String) :
    rel Aggregate (Operator.combination combine) (Operator.combination combine) := by
  unfold Operator.combination
  split
  · exact congruence.malformed _ _
  · split
    · exact congruence.throw (EvaluationError.isShallow_rule _)
    · exact congruence.pure _
    · exact congruence.malformed _ _

theorem repeatFor {parts others : Parts} (related : parts.Related rel others) :
    rel Value (Operator.repeatFor parts) (Operator.repeatFor others) := by
  have body := operandBody related.value
  unfold Operator.repeatFor
  rw [← related.combine]
  refine congruence.bind (congruence.combination parts.combine) fun kind => ?_
  generalize parts.value.bind Operand.body? = part, others.value.bind Operand.body? = other at body
  cases body with
  | none => exact congruence.malformed _ _
  | some body =>
      exact congruence.bind (congruence.partValue related.subject) fun subject =>
        congruence.bind (congruence.iterateOver body subject) fun results =>
          congruence.ofResult fun _ => Aggregate.apply_error

theorem subtractDates {parts others : Parts} (related : parts.Related rel others) :
    rel Value (Operator.subtractDates parts) (Operator.subtractDates others) := by
  unfold Operator.subtractDates
  rw [← related.unit]
  refine congruence.bind (congruence.given fun _ _ _ => rfl) fun today =>
    congruence.bind (congruence.operands related) fun values => ?_
  split
  · dsimp only
    split
    · exact congruence.throw (EvaluationError.isShallow_value _)
    · exact congruence.bind (congruence.detail _ (by decide)) fun _ => congruence.pure _
  · exact congruence.pure _

theorem operatorApply (operator : Operator) {parts others : Parts}
    (related : parts.Related rel others) :
    rel Value (operator.apply parts) (operator.apply others) := by
  have branches := related.branches
  unfold Operator.apply
  split
  · exact congruence.shortCircuit false related
  · exact congruence.shortCircuit true related
  · exact congruence.bind (congruence.operands related) fun values =>
      congruence.ofResult fun _ => Aggregate.apply_error
  · exact congruence.bind (congruence.comparisonOperands _ related) fun pair => congruence.pure _
  · exact congruence.bind (congruence.single related) fun value => congruence.pure _
  · exact congruence.bind (congruence.single related) fun value => congruence.pure _
  · exact congruence.bind (congruence.single related) fun value => congruence.pure _
  · exact congruence.membership true related
  · exact congruence.membership false related
  · exact congruence.repeatFor related
  · generalize parts.branches = listed, others.branches = others at branches
    cases branches with
    | some branches => exact congruence.choose 0 branches
    | none => exact congruence.malformed _ _
  · exact congruence.subtractDates related

theorem operatorPerform (name : String) {parts others : Parts}
    (related : parts.Related rel others) :
    rel Value (Operator.perform name parts) (Operator.perform name others) := by
  unfold Operator.perform
  split
  · exact congruence.throw (EvaluationError.isShallow_rule _)
  · rename_i operator _
    refine congruence.inNode id ?_ (congruence.operatorApply operator related)
    refine ⟨?_, ?_, ?_, rfl⟩ <;> simp [Operator.node, TraceNode.withDetail, TraceNode.fresh]

end Operators

section Expressions

variable {lookUp other : LookUp}

theorem resolve (congruence : Congruence rel) (value : Value)
    (related : ∀ path ∈ value.references, rel Value (lookUp path) (other path)) :
    rel Value (value.resolve lookUp) (value.resolve other) := by
  unfold Value.resolve
  split
  · rename_i text
    rw [Value.references] at related
    split
    · rename_i path found
      rw [found] at related
      exact related path (List.mem_singleton.mpr rfl)
    · exact congruence.pure (Value.string text)
  · exact congruence.pure value

mutual

/-- Expressions are related when the paths that they mention are. -/
theorem evaluate (congruence : Congruence rel) : (expr : Expr) →
    (∀ path ∈ expr.references, rel Value (lookUp path) (other path)) →
    rel Value (expr.evaluate lookUp) (expr.evaluate other)
  | .operation node, related => by
      rw [Expr.evaluate, Expr.evaluate]
      exact congruence.evaluateOperation node (by rwa [Expr.references] at related)
  | .list items, related => by
      rw [Expr.evaluate, Expr.evaluate]
      rw [Expr.references] at related
      exact congruence.operandValue (.each (congruence.evaluateItems items related))
  | .literal value, related => by
      rw [Expr.evaluate, Expr.evaluate]
      exact congruence.resolve value (by rwa [Expr.references] at related)

theorem evaluateOperation (congruence : Congruence rel) : (node : Operation) →
    (∀ path ∈ node.references, rel Value (lookUp path) (other path)) →
    rel Value (node.evaluate lookUp) (node.evaluate other)
  | ⟨name, subject, value, values, conditions, combine, unit⟩, related => by
      rw [Operation.evaluate, Operation.evaluate]
      simp only [Operation.references, List.mem_append, or_imp, forall_and] at related
      obtain ⟨⟨⟨ofSubject, ofValue⟩, ofValues⟩, ofConditions⟩ := related
      exact congruence.operatorPerform name ⟨congruence.evaluatePart subject ofSubject,
        congruence.evaluateOperand value ofValue, congruence.evaluateOperand values ofValues,
        congruence.evaluateBranches conditions ofConditions, rfl, rfl⟩

theorem evaluateItems (congruence : Congruence rel) : (items : List Expr) →
    (∀ path ∈ Expr.itemReferences items, rel Value (lookUp path) (other path)) →
    List.Forall₂ (rel Value) (Expr.evaluateItems lookUp items) (Expr.evaluateItems other items)
  | [], _ => by
      rw [Expr.evaluateItems, Expr.evaluateItems]
      exact .nil
  | item :: rest, related => by
      rw [Expr.evaluateItems, Expr.evaluateItems]
      simp only [Expr.itemReferences, List.mem_append, or_imp, forall_and] at related
      exact .cons (congruence.evaluate item related.1) (congruence.evaluateItems rest related.2)

theorem evaluatePart (congruence : Congruence rel) : (part : Option Expr) →
    (∀ path ∈ Expr.optionReferences part, rel Value (lookUp path) (other path)) →
    Option.Rel (rel Value) (Expr.part? lookUp part) (Expr.part? other part)
  | none, _ => by
      rw [Expr.part?, Expr.part?]
      exact .none
  | some expr, related => by
      rw [Expr.part?, Expr.part?]
      exact .some (congruence.evaluate expr (by rwa [Expr.optionReferences] at related))

theorem evaluateOperand (congruence : Congruence rel) : (operand : Option Expr) →
    (∀ path ∈ Expr.optionReferences operand, rel Value (lookUp path) (other path)) →
    Option.Rel (Operand.Related rel) (Expr.operand? lookUp operand) (Expr.operand? other operand)
  | none, _ => by
      rw [Expr.operand?, Expr.operand?]
      exact .none
  | some (.operation node), related => by
      rw [Expr.operand?, Expr.operand?, Expr.operand, Expr.operand]
      rw [Expr.optionReferences, Expr.references] at related
      exact .some (.whole (congruence.evaluateOperation node related))
  | some (.list items), related => by
      rw [Expr.operand?, Expr.operand?, Expr.operand, Expr.operand]
      rw [Expr.optionReferences, Expr.references] at related
      exact .some (.each (congruence.evaluateItems items related))
  | some (.literal value), related => by
      rw [Expr.operand?, Expr.operand?, Expr.operand, Expr.operand]
      rw [Expr.optionReferences, Expr.references] at related
      exact .some (.whole (congruence.resolve value related))

theorem evaluateBranch (congruence : Congruence rel) : (condition : Condition) →
    (∀ path ∈ condition.references, rel Value (lookUp path) (other path)) →
    Branch.Related rel (condition.branch lookUp) (condition.branch other)
  | ⟨test, result, otherwise⟩, related => by
      rw [Condition.branch, Condition.branch]
      simp only [Condition.references, List.mem_append, or_imp, forall_and] at related
      exact ⟨congruence.evaluatePart test related.1.1, congruence.evaluatePart result related.1.2,
        congruence.evaluatePart otherwise related.2⟩

theorem evaluateBranchItems (congruence : Congruence rel) : (conditions : List Condition) →
    (∀ path ∈ Condition.itemReferences conditions, rel Value (lookUp path) (other path)) →
    List.Forall₂ (Branch.Related rel) (Condition.branchItems lookUp conditions)
      (Condition.branchItems other conditions)
  | [], _ => by
      rw [Condition.branchItems, Condition.branchItems]
      exact .nil
  | condition :: rest, related => by
      rw [Condition.branchItems, Condition.branchItems]
      simp only [Condition.itemReferences, List.mem_append, or_imp, forall_and] at related
      exact .cons (congruence.evaluateBranch condition related.1)
        (congruence.evaluateBranchItems rest related.2)

theorem evaluateBranches (congruence : Congruence rel) : (conditions : Option (List Condition)) →
    (∀ path ∈ Condition.optionReferences conditions, rel Value (lookUp path) (other path)) →
    Option.Rel (List.Forall₂ (Branch.Related rel)) (Condition.branches? lookUp conditions)
      (Condition.branches? other conditions)
  | none, _ => by
      rw [Condition.branches?, Condition.branches?]
      exact .none
  | some conditions, related => by
      rw [Condition.branches?, Condition.branches?]
      rw [Condition.optionReferences] at related
      exact .some (congruence.evaluateBranchItems conditions related)

end

end Expressions

section Requirements

variable (congruence : Congruence rel) {lookUp other : LookUp}

include congruence

theorem checked (label : String) {body otherBody : Evaluation Bool} (related : rel Bool body otherBody) :
    rel Bool (Requirement.checked label body) (Requirement.checked label otherBody) :=
  congruence.inNode Value.bool (TraceNode.isPlain_fresh label (by decide) (by decide) (by decide))
    related

mutual

/-- Requirements are related when the paths that they mention are. -/
theorem check : (requirement : Requirement) →
    (∀ path ∈ requirement.references, rel Value (lookUp path) (other path)) →
    rel Bool (requirement.check lookUp) (requirement.check other)
  | .all members, related => by
      rw [Requirement.check, Requirement.check]
      rw [Requirement.references] at related
      exact congruence.checked _ (checkAll members related)
  | .any members, related => by
      rw [Requirement.check, Requirement.check]
      rw [Requirement.references] at related
      refine congruence.checked _ ?_
      split
      · exact congruence.pure true
      · exact checkAny members related
  | .test expr, related => by
      rw [Requirement.check, Requirement.check]
      rw [Requirement.references] at related
      refine congruence.checked _ ?_
      exact congruence.bind (congruence.evaluate expr related) fun value => congruence.pure _

theorem checkAll : (members : List Requirement) →
    (∀ path ∈ Requirement.memberReferences members, rel Value (lookUp path) (other path)) →
    rel Bool (Requirement.checkAll lookUp members) (Requirement.checkAll other members)
  | [], _ => by
      rw [Requirement.checkAll, Requirement.checkAll]
      exact congruence.pure true
  | member :: rest, related => by
      rw [Requirement.checkAll, Requirement.checkAll]
      simp only [Requirement.memberReferences, List.mem_append, or_imp, forall_and] at related
      refine congruence.bind (check member related.1) fun held => ?_
      split
      · refine congruence.bind congruence.isMissing fun missing => ?_
        split
        · exact congruence.pure true
        · exact checkAll rest related.2
      · exact congruence.pure false

theorem checkAny : (members : List Requirement) →
    (∀ path ∈ Requirement.memberReferences members, rel Value (lookUp path) (other path)) →
    rel Bool (Requirement.checkAny lookUp members) (Requirement.checkAny other members)
  | [], _ => by
      rw [Requirement.checkAny, Requirement.checkAny]
      exact congruence.pure false
  | member :: rest, related => by
      rw [Requirement.checkAny, Requirement.checkAny]
      simp only [Requirement.memberReferences, List.mem_append, or_imp, forall_and] at related
      refine congruence.bind (check member related.1) fun held => ?_
      split
      · exact congruence.pure true
      · refine congruence.bind congruence.isMissing fun missing => ?_
        split
        · exact congruence.pure false
        · exact checkAny rest related.2

end

theorem checkEach (requirements : List Requirement)
    (related : ∀ requirement ∈ requirements, ∀ path ∈ requirement.references,
      rel Value (lookUp path) (other path)) :
    rel Bool (Requirement.checkEach lookUp requirements)
      (Requirement.checkEach other requirements) := by
  induction requirements with
  | nil => exact congruence.pure true
  | cons requirement rest inductionHypothesis =>
      refine congruence.bind congruence.checkCancelled fun _ =>
        congruence.bind (congruence.check requirement (related requirement (by simp))) fun held => ?_
      split
      · exact inductionHypothesis fun next member => related next (by simp [member])
      · exact congruence.pure false

end Requirements

end Congruence

end Statute
