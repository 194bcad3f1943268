/-
This file proves that an iteration over the rows of a table that repeats a field combines the cells of a
column.
-/

import Statute.Proofs.Evaluation.Iteration
import Statute.Proofs.Evaluation.RequiredValues

namespace Statute

theorem referencePath?_referenceText (path : String) :
    referencePath? (referenceText path) = some path := by
  simp [referencePath?, referenceText]

/-- The scope goes before all other bindings. -/
theorem Resolution.bound?_scope {surroundings : Surroundings} {progress : Progress} {name : String}
    {value : Value} (found : Entries.get? name progress.scope = some value) :
    bound? surroundings progress name = some (.scope, value) := by
  simp [bound?, found]

/-- Nothing goes before a field of the visited row: the name leads through no further fields, the date
does not define it, and it is not claimed. -/
structure Surroundings.ReadsField (surroundings : Surroundings) (name : String) : Prop where
  undotted : pathTail name = []
  undated : Resolution.dateValue? surroundings.date name = none
  unclaimed : Entries.get? name surroundings.claims = none

namespace Surroundings.ReadsField

variable {surroundings : Surroundings} {name : String} {cell : Value}

/-- A field of the scope is the value of its name. -/
theorem value (reads : surroundings.ReadsField name) {progress : Progress}
    (found : Entries.get? name progress.scope = some cell) :
    ((Evaluation.valueOf name).runFrom surroundings progress).1 = .ok cell := by
  obtain ⟨fuel, isLimit⟩ : ∃ fuel, Resolution.nestingLimit surroundings.properties = fuel + 1 :=
    ⟨2 * surroundings.properties.length + 999, rfl⟩
  have bound : Resolution.bound? surroundings
      ((progress.withAccess name).inside (TraceNode.resolving name)) name = some (.scope, cell) :=
    Resolution.bound?_scope found
  rw [Evaluation.runFrom_valueOf, isLimit, Resolution.runFrom_lookUp_undated reads.undated,
    reads.undotted]
  dsimp only
  rw [Resolution.runFrom_recorded, Resolution.runFrom_resolveName reads.unclaimed, bound]
  rfl

/-- The visits of rows that have the field give the cells of its column. -/
theorem visits (reads : surroundings.ReadsField name) {table : Table}
    (complete : ∀ row ∈ table, (Entries.get? name row).isSome = true) (progress : Progress) :
    Operator.visits surroundings
        ((Expr.literal (.string (referenceText name))).evaluate Evaluation.valueOf)
        (table.map .record) progress =
      (table.column name).map .ok := by
  induction table generalizing progress with
  | nil => rfl
  | cons row rest inductionHypothesis =>
      obtain ⟨hasFirst, others⟩ := List.forall_mem_cons.mp complete
      obtain ⟨cell, found⟩ := Option.isSome_iff_exists.mp hasFirst
      have isReference : (Expr.literal (.string (referenceText name))).evaluate Evaluation.valueOf =
          Evaluation.valueOf name := by
        rw [Expr.evaluate, Value.resolve, referencePath?_referenceText]
      have collected : Table.column (row :: rest) name = cell :: Table.column rest name :=
        List.filterMap_cons_some found
      rw [collected, List.map_cons, List.map_cons, ← inductionHypothesis others, Operator.visits,
        isReference, Evaluation.runFrom_within]
      exact congrArg (· :: _) (reads.value found)

end Surroundings.ReadsField

namespace Operation

variable {node : Operation} {kind : Aggregate} {table : Table} {name : String}
  {surroundings : Surroundings} {progress : Progress}

/-- An iteration over the rows of a table that combines a field which all of them have. -/
structure CombinesColumn (node : Operation) (kind : Aggregate) (table : Table) (name : String)
    (surroundings : Surroundings) (progress : Progress) : Prop where
  iterates : ∃ subject, node.Iterates kind subject (.literal (.string (referenceText name))) ∧
    ((subject.evaluate Evaluation.valueOf).runFrom surroundings progress).1 =
      .ok (.list (table.map .record))
  reads : surroundings.ReadsField name
  complete : ∀ row ∈ table, (Entries.get? name row).isSome = true

/-- It combines the cells of the column, with lists spread. -/
theorem CombinesColumn.result (combines : node.CombinesColumn kind table name surroundings progress) :
    ((node.evaluate Evaluation.valueOf).runFrom surroundings progress).1 =
      kind.apply ((table.column name).flatMap Value.spread) := by
  obtain ⟨⟨subject, iterates, evaluated⟩, reads, complete⟩ := combines
  exact iterates.result (Prod.ext evaluated rfl) (reads.visits complete _)

end Operation

end Statute
