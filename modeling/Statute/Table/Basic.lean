/-
This file defines the tables that rules look values up in.
-/

import Statute.Rule.Error
import Statute.Value.Order

namespace Statute

/-- The ways to compare a cell with an operand. -/
inductive Filter
  | equal
  | notEqual
  | above
  | below
  | atLeast
  | atMost
  | within
  deriving DecidableEq, Repr

namespace Filter

/-- The sign of a filter. -/
def sign : Filter → String
  | equal => "="
  | notEqual => "!="
  | above => ">"
  | below => "<"
  | atLeast => ">="
  | atMost => "<="
  | within => "in"

/-- The filter of a sign. Equality may be doubled, and membership may be in capitals. -/
def parse : String → Except SourceError Filter
  | "=" => .ok equal
  | "==" => .ok equal
  | "!=" => .ok notEqual
  | ">" => .ok above
  | "<" => .ok below
  | ">=" => .ok atLeast
  | "<=" => .ok atMost
  | "in" => .ok within
  | "IN" => .ok within
  | other => .error (.unknownOperator other)

/-- True when a cell passes. Membership needs a list operand. -/
def test (filter : Filter) (cell operand : Value) : Bool :=
  match filter with
  | equal => cell.looseEq operand
  | notEqual => !cell.looseEq operand
  | above => cell.compare operand == some .gt
  | below => cell.compare operand == some .lt
  | atLeast => cell.compare operand == some .gt || cell.compare operand == some .eq
  | atMost => cell.compare operand == some .lt || cell.compare operand == some .eq
  | within =>
      match operand with
      | .list items => items.any fun item => cell.looseEq item
      | _ => false

end Filter

/-- A table is a list of rows. Rows need not have the same columns. -/
abbrev Table := List Record

namespace Table

/-- The rows that have the column and whose cell passes. -/
def keep (table : Table) (column : String) (filter : Filter) (operand : Value) : Table :=
  table.filter fun row =>
    match Entries.get? column row with
    | some cell => filter.test cell operand
    | none => false

/-- The rows that pass the filter of a sign. -/
def filterBy (table : Table) (column sign : String) (operand : Value) : Except SourceError Table :=
  match Filter.parse sign with
  | .error reason => .error reason
  | .ok filter =>
      if filter = .within ∧ operand.list?.isNone then .error (.expectedList sign column)
      else .ok (table.keep column filter operand)

/-- Each row with the given columns only, as far as it has them. -/
def project (table : Table) (columns : List String) : Table :=
  table.map fun row =>
    Entries.ofList (columns.filterMap fun column =>
      (Entries.get? column row).map fun cell => (column, cell))

/-- True when some row has the column. -/
def hasColumn (table : Table) (name : String) : Bool :=
  table.any fun row => Entries.contains name row

/-- The cells of a column, of the rows that have it. -/
def column (table : Table) (name : String) : List Value :=
  table.filterMap fun row => Entries.get? name row

end Table

end Statute
