/-
This file looks up the value that a property takes from a table.
-/

import Statute.Evaluation.Expr
import Statute.Rule.Property

namespace Statute

/-- No values make null, and a single value stands for itself. -/
def Value.collapse : List Value → Value
  | [] => .null
  | [single] => single
  | many => .list many

/-- The values that a membership filter allows. -/
def Value.allowedValues : Value → List Value
  | .null => []
  | value => value.spread

namespace Selection

/-- A membership operation gives the allowed values. Any other expression gives the value that a
cell must equal. -/
def operand (lookUp : LookUp) (selection : Selection) : Evaluation (Filter × Value) := do
  match selection.value with
  | .operation node =>
      if node.name = "IN" then
        let allowed ← partValue (Expr.part? lookUp node.values)
        return (.within, .list allowed.allowedValues)
      else return (.equal, ← node.evaluate lookUp)
  | other => return (.equal, ← other.evaluate lookUp)

/-- Some tables raise the flag of cancellation when they are filtered. -/
def touch (source : Source) : Evaluation Unit :=
  if source.raisesFlag then Evaluation.raiseFlag else pure ()

/-- The rows of a source that pass the selections, one after the other. -/
def narrow (lookUp : LookUp) : List Selection → Source → Evaluation Source
  | [], source => pure source
  | selection :: rest, source => do
      let (filter, operand) ← selection.operand lookUp
      touch source
      match source.filterBy selection.name filter.sign operand with
      | .error reason => throw (.source reason)
      | .ok narrowed => narrow lookUp rest narrowed

end Selection

namespace SourceReference

/-- Laws and events are named in rules but are no tables. -/
def isTabular (reference : SourceReference) : Bool :=
  reference.sourceType != some "laws" && reference.sourceType != some "events"

/-- The chosen fields of the rows, or the cells of one column, or the whole rows. -/
def valuesOf (reference : SourceReference) (source : Source) : List Value :=
  match reference.fields, reference.field with
  | some names, _ => (source.rows.project names).map Value.record
  | none, some name => source.rows.column name
  | none, none => source.rows.map Value.record

/-- The value of a property in a table. An absent table has null. -/
def resolve (lookUp : LookUp) (reference : SourceReference) : Evaluation Value := do
  match ← Evaluation.given fun surroundings =>
      Entries.get? reference.table surroundings.sources with
  | none => return .null
  | some source =>
      if reference.isTabular then
        let narrowed ← Selection.narrow lookUp reference.selectOn source
        return Value.collapse (reference.valuesOf narrowed)
      else return .null

end SourceReference

end Statute
