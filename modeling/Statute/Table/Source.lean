/-
This file defines the sources that rules take rows from.
-/

import Statute.Table.Basic

namespace Statute

/-- A source of rows. A failing source refuses every filter with the operator that it names, has
every column and no rows. An interrupting source is a table that raises the shared flag of
cancellation when it is filtered. -/
inductive Source
  | stored (table : Table)
  | failing (operator : String)
  | interrupting (table : Table)

namespace Source

/-- The rows of a source. -/
def rows : Source → Table
  | stored table => table
  | failing _ => []
  | interrupting table => table

/-- True for a source that raises the shared flag when it is filtered. -/
def raisesFlag : Source → Bool
  | interrupting _ => true
  | _ => false

/-- What is left after a filter is an ordinary table. -/
def filterBy (source : Source) (column sign : String) (operand : Value) : Except SourceError Source :=
  match source with
  | failing operator => .error (.unknownOperator operator)
  | stored table => (table.filterBy column sign operand).map stored
  | interrupting table => (table.filterBy column sign operand).map stored

/-- The given columns of a source make an ordinary table. -/
def project (source : Source) (columns : List String) : Source :=
  stored (source.rows.project columns)

def hasColumn (source : Source) (name : String) : Bool :=
  match source with
  | failing _ => true
  | stored table => table.hasColumn name
  | interrupting table => table.hasColumn name

end Source

end Statute
