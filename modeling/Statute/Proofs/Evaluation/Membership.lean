/-
This file compares the two ways to ask whether a value is among others: as an operation, and as a
selection of rows.
-/

import Statute.Proofs.Evaluation.Selection
import Statute.Proofs.Value.Equality

namespace Statute

/-- Two tests keep the same items when they agree about each. -/
theorem filter_eq_iff {α : Type} {first second : α → Bool} {items : List α} :
    items.filter first = items.filter second ↔ ∀ item ∈ items, first item = second item := by
  refine ⟨fun same item member => ?_, List.filter_congr⟩
  have kept : item ∈ items.filter first ↔ item ∈ items.filter second := by rw [same]
  rw [List.mem_filter, List.mem_filter, and_iff_right member, and_iff_right member] at kept
  exact Bool.eq_iff_iff.mpr kept

namespace Value

theorem looseEq_comm (first second : Value) : first.looseEq second = second.looseEq first := by
  rw [Bool.eq_iff_iff, looseEq_iff, looseEq_iff]
  exact ⟨Meet.symm, Meet.symm⟩

/-- The value neither equals the record nor is the name of one of its fields. -/
def IsForeign (cell : Value) (fields : Record) : Prop :=
  cell.looseEq (record fields) = false ∧
    ∀ name, cell = string name → Entries.contains name fields = false

/-- An operation finds the names of a record in it, and a selection only the record itself. -/
theorem hasMember_record_iff (fields : Record) (cell : Value) :
    (record fields).hasMember cell = cell.isMemberOf (record fields) ↔ cell.IsForeign fields := by
  cases cell with
  | string name =>
      have unlike : (string name).isMemberOf (record fields) = false := rfl
      have named : (record fields).hasMember (string name) = Entries.contains name fields := rfl
      rw [unlike, named]
      refine ⟨fun absent => ⟨rfl, ?_⟩, fun foreign => foreign.2 name rfl⟩
      rintro _ ⟨⟩
      exact absent
  | _ =>
      refine ⟨fun same => ⟨same.symm, ?_⟩, fun foreign => foreign.1.symm⟩
      rintro _ ⟨⟩

/-- Both tests agree unless the allowed value is a record that one of them finds the value in. -/
theorem hasMember_iff (allowed cell : Value) :
    allowed.hasMember cell = cell.isMemberOf allowed ↔
      ∀ fields, allowed = record fields → cell.IsForeign fields := by
  cases allowed with
  | record fields =>
      rw [hasMember_record_iff]
      exact ⟨fun foreign _ same => by cases same; exact foreign, fun foreign => foreign fields rfl⟩
  | _ => simp [hasMember, isMemberOf, looseEq_comm cell]

end Value

theorem Expr.valueOf_operand? (values : Option Expr) (lookUp : LookUp) :
    Operand.valueOf (Expr.operand? lookUp values) = partValue (Expr.part? lookUp values) := by
  rcases values with _ | ⟨node⟩ | items | value
  all_goals simp [Expr.operand?, Expr.part?, Expr.operand, Operand.valueOf, Operand.value, partValue,
    Expr.evaluate]

namespace Operation

variable {lookUp : LookUp} {surroundings : Surroundings}

/-- A membership operation on a cell: its subject evaluates to the cell, and then the values of the
given operation, which it has too, evaluate to what is allowed. -/
structure TestsMember (test node : Operation) (lookUp : LookUp) (surroundings : Surroundings)
    (start : Progress) (cell allowed : Value) : Prop where
  name : test.name = "IN"
  values : test.values = node.values
  subject : ∃ expr between after, test.subject = some expr ∧
    (expr.evaluate lookUp).runFrom surroundings (start.inside Operator.isIn.node) =
      (.ok cell, between) ∧
    (partValue (Expr.part? lookUp node.values)).runFrom surroundings between = (.ok allowed, after)

/-- It is true when the cell is a member. -/
theorem TestsMember.result {test node : Operation} {start : Progress} {cell allowed : Value}
    (tests : test.TestsMember node lookUp surroundings start cell allowed) :
    ((test.evaluate lookUp).runFrom surroundings start).1 = .ok (.bool (allowed.hasMember cell)) := by
  obtain ⟨name, testSubject, value, values, conditions, combine, unit⟩ := test
  obtain ⟨rfl, rfl, expr, between, after, rfl, isCell, isAllowed⟩ := tests
  have named : "IN" = Operator.isIn.name := rfl
  rw [evaluate, named, Operator.perform_name, Operator.fst_inNode, Operator.apply,
    Operator.membership, Expr.part?, Expr.valueOf_operand?, Parts.single,
    Evaluation.runFrom_bind_of_ok isCell, Evaluation.runFrom_bind_of_ok isAllowed]
  cases allowed.hasMember cell <;> rfl

end Operation

namespace Selection

variable {lookUp : LookUp} {surroundings : Surroundings}

theorem accepts_of_isMembership {selection : Selection} (isMembership : selection.isMembership = true)
    (allowed : Value) :
    selection.accepts allowed =
      fun row => (Entries.get? selection.name row).any fun cell => cell.isMemberOf allowed := by
  funext row
  simp only [accepts, isMembership, if_true]

/-- A selection by a membership operation keeps the rows whose cell is a member of the allowed value, and
the operation itself is true of a cell that it finds in the value. Both agree about a table, unless the
allowed value is a record: then they agree exactly when no cell equals the record, which the selection
would keep, and none is the name of a field, of which the operation is true. -/
theorem narrow_membership (selection : Selection) {node : Operation} {allowed : Value}
    {progress after : Progress} (isOperation : selection.value = .operation node)
    (isIn : node.name = "IN")
    (evaluated : (partValue (Expr.part? lookUp node.values)).runFrom surroundings progress =
      (.ok allowed, after)) (table : Table) :
    let cell? (row : Record) : Option Value := Entries.get? selection.name row
    let kept : Table := table.filter fun row => (cell? row).any fun cell => cell.isMemberOf allowed
    let tested : Table := table.filter fun row => (cell? row).any fun cell => allowed.hasMember cell
    (narrow lookUp [selection] (.stored table)).runFrom surroundings progress =
        (.ok (.stored kept), after) ∧
      (∀ (test : Operation) (start : Progress) (cell : Value),
        test.TestsMember node lookUp surroundings start cell allowed →
        ((test.evaluate lookUp).runFrom surroundings start).1 =
          .ok (.bool (allowed.hasMember cell))) ∧
      (kept = tested ↔ ∀ fields, allowed = .record fields →
        ∀ row ∈ table, ∀ cell, cell? row = some cell → cell.IsForeign fields) := by
  intro cell? kept tested
  refine ⟨?narrowed, fun _ _ _ tests => tests.result, ?agree⟩
  case narrowed =>
    have isMembership : selection.isMembership = true := by
      rw [Selection.isMembership, isOperation]
      exact decide_eq_true isIn
    have isWanted : selection.wanted lookUp = partValue (Expr.part? lookUp node.values) := by
      rw [wanted, isOperation]
      exact if_pos isIn
    have ran : (runAll ([selection].map (wanted lookUp))).runFrom surroundings progress =
        (.ok [allowed], after) := by
      rw [List.map_singleton, isWanted, runAll, Evaluation.runFrom_bind_of_ok evaluated]
      rfl
    rw [narrow_stored ran, List.zip_cons_cons, select_cons, List.zip_nil_left, select_nil,
      accepts_of_isMembership isMembership]
  case agree =>
    have agrees (row : Record) :
        ((cell? row).any fun cell => cell.isMemberOf allowed) =
            ((cell? row).any fun cell => allowed.hasMember cell) ↔
          ∀ cell, cell? row = some cell → ∀ fields, allowed = .record fields →
            cell.IsForeign fields := by
      cases cell? row with
      | none => simp
      | some cell => simp [← Value.hasMember_iff, eq_comm]
    rw [filter_eq_iff]
    simp only [agrees]
    exact ⟨fun foreign fields isRecord row member cell isCell =>
        foreign row member cell isCell fields isRecord,
      fun foreign row member cell isCell fields isRecord =>
        foreign fields isRecord row member cell isCell⟩

/-- The rows of one column. -/
def letters : Table :=
  [[("letter", .string "a")], [("letter", .string "b")], [("digit", .string "a")]]

/-- Rows are selected by letters that are among some value. -/
def amongValues (allowed : Value) : Operation :=
  { Operation.named "IN" with values := some (.literal allowed) }

def byLetter (allowed : Value) : Selection :=
  ⟨"letter", none, .operation (amongValues allowed)⟩

/-- What an operation gives for a letter. -/
def testLetter (letter : String) (allowed : Value) : Except EvaluationError Value :=
  Operation.bareResult { amongValues allowed with subject := some (.literal (.string letter)) }

/-- The letters in a list are kept, and the operation is true of them. -/
theorem narrow_membership_letters :
    let allowed : Value := .list [.string "b", .string "c"]
    ((narrow Evaluation.valueOf [byLetter allowed] (.stored letters)).runFrom
        Operation.bareSurroundings (Progress.start .initial)).1 =
      .ok (.stored [[("letter", .string "b")]]) ∧
    testLetter "a" allowed = .ok (.bool false) ∧ testLetter "b" allowed = .ok (.bool true) := by
  intro allowed
  have evaluated : (partValue (Expr.part? Evaluation.valueOf (amongValues allowed).values)).runFrom
      Operation.bareSurroundings (Progress.start .initial) =
        (.ok allowed, Progress.start .initial) := rfl
  obtain ⟨narrowed, holds, -⟩ := narrow_membership (byLetter allowed) rfl rfl evaluated letters
  have tests (letter : String) (plain : referencePath? letter = none) :
      Operation.TestsMember { amongValues allowed with subject := some (.literal (.string letter)) }
        (amongValues allowed) Evaluation.valueOf Operation.bareSurroundings (Progress.start .initial)
        (.string letter) allowed := by
    have isLetter : (Expr.literal (.string letter)).evaluate Evaluation.valueOf =
        pure (.string letter) := by
      rw [Expr.evaluate, Value.resolve, plain]
    let inside := (Progress.start .initial).inside Operator.isIn.node
    refine ⟨rfl, rfl, _, inside, inside, rfl, ?_, rfl⟩
    rw [isLetter, Evaluation.runFrom_pure]
  exact ⟨congrArg Prod.fst narrowed, holds _ _ _ (tests "a" rfl), holds _ _ _ (tests "b" rfl)⟩

/-- A selection by a record keeps none of the rows with the name of a field, of which the operation is
true. -/
theorem narrow_misses_names :
    let allowed : Value := .record [("a", .int 1)]
    ((narrow Evaluation.valueOf [byLetter allowed] (.stored letters)).runFrom
        Operation.bareSurroundings (Progress.start .initial)).1 = .ok (.stored []) ∧
    testLetter "a" allowed = .ok (.bool true) :=
  ⟨rfl, rfl⟩

end Selection

end Statute
