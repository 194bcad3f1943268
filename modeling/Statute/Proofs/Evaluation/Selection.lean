/-
This file proves that the value of a property in a table is what a query over the rows gives.
-/

import Statute.Proofs.Collections
import Statute.Proofs.Evaluation.Iteration

namespace Statute

namespace Value

/-- A list has its items as members and null has none. Any other value, a record too, is its own only
member. -/
def isMemberOf (cell : Value) : Value → Bool
  | null => false
  | list items => items.any fun item => cell.looseEq item
  | other => cell.looseEq other

/-- The allowed values of a filter are the members. -/
theorem within_allowedValues (cell value : Value) :
    Filter.within.test cell (list value.allowedValues) = cell.isMemberOf value := by
  cases value with
  | null => rfl
  | list items => rfl
  | _ => exact Bool.or_false _

end Value

namespace Entries

variable {α : Type} {row : Entries α}

/-- Chosen names are found as they were, and no others. -/
theorem get?_choose (row : Entries α) (names : List String) (wanted : String) :
    get? wanted (ofList (names.filterMap fun name =>
        (get? name row).map fun value => (name, value))) =
      if wanted ∈ names then get? wanted row else none := by
  induction names with
  | nil => rfl
  | cons name rest inductionHypothesis =>
      by_cases same : wanted = name
      · subst same
        cases found : get? wanted row with
        | none =>
            rw [List.filterMap_cons_none (by rw [found]; rfl), inductionHypothesis, found, ite_self,
              ite_self]
        | some value =>
            rw [List.filterMap_cons_some (by rw [found]; rfl), get?_ofList_cons, inductionHypothesis,
              found, if_pos rfl, if_pos List.mem_cons_self]
            split <;> rfl
      · have elsewhere : (wanted ∈ name :: rest) = (wanted ∈ rest) := by simp [same]
        simp only [elsewhere, ← inductionHypothesis]
        cases found : get? name row with
        | none => rw [List.filterMap_cons_none (by rw [found]; rfl)]
        | some value =>
            rw [List.filterMap_cons_some (by rw [found]; rfl), get?_ofList_cons, if_neg same,
              Option.or_none]

/-- To choose names one after the other, in any order and any number of times, is to keep the entries
under these names. -/
theorem Sorted.choose (sorted : row.Sorted) (names : List String) :
    ofList (names.filterMap fun name => (get? name row).map fun value => (name, value)) =
      row.filter fun pair => pair.1 ∈ names := by
  have isSorted : Sorted (row.filter fun pair => pair.1 ∈ names) := List.Pairwise.filter _ sorted
  refine Sorted.eq_of_mem_iff (sorted_ofList _) isSorted fun (name, value) => ?_
  rw [← (sorted_ofList _).get?_eq_some_iff, get?_choose, List.mem_filter, ← sorted.get?_eq_some_iff]
  by_cases listed : name ∈ names <;> simp [listed]

end Entries

namespace Table

variable {table : Table}

theorem project_eq (sorted : ∀ row ∈ table, Entries.Sorted row) (names : List String) :
    table.project names = table.map fun row => row.filter fun pair => pair.1 ∈ names :=
  List.map_congr_left fun row member => (sorted row member).choose names

end Table

namespace Selection

/-- True when a membership operation says which cells are selected. -/
def isMembership (selection : Selection) : Bool :=
  match selection.value with
  | .operation node => node.name = "IN"
  | _ => false

/-- What is evaluated for a selection: the values of a membership operation, or the whole
expression. -/
def wanted (lookUp : LookUp) (selection : Selection) : Evaluation Value :=
  match selection.value with
  | .operation node =>
      if node.name = "IN" then partValue (Expr.part? lookUp node.values) else node.evaluate lookUp
  | other => other.evaluate lookUp

/-- A row satisfies a selection when it has the column, and its cell is a member of the value or equals
it. -/
def accepts (selection : Selection) (value : Value) (row : Record) : Bool :=
  (Entries.get? selection.name row).any fun cell =>
    if selection.isMembership then cell.isMemberOf value else cell.looseEq value

/-- The filter for the value of a selection. -/
def comparison (selection : Selection) (value : Value) : Filter × Value :=
  if selection.isMembership then (.within, .list value.allowedValues) else (.equal, value)

theorem operand_eq (lookUp : LookUp) (selection : Selection) :
    selection.operand lookUp =
      (do return selection.comparison (← selection.wanted lookUp)) := by
  obtain ⟨name, description, value⟩ := selection
  cases value with
  | operation node =>
      by_cases isIn : node.name = "IN" <;> simp [operand, wanted, comparison, isMembership, isIn]
  | _ => rfl

/-- A table is left with the rows that a selection accepts. -/
theorem filterBy_comparison (selection : Selection) (value : Value) (table : Table) :
    table.filterBy selection.name (selection.comparison value).1.sign (selection.comparison value).2 =
      .ok (table.filter (selection.accepts value)) := by
  have kept (filter : Filter) (operand : Value)
      (tests : ∀ cell, filter.test cell operand =
        if selection.isMembership then cell.isMemberOf value else cell.looseEq value) :
      table.keep selection.name filter operand = table.filter (selection.accepts value) := by
    refine List.filter_congr fun row _ => ?_
    rw [accepts]
    cases Entries.get? selection.name row with
    | none => rfl
    | some cell => exact tests cell
  cases membership : selection.isMembership with
  | true =>
      rw [comparison, membership, if_pos rfl, Table.filterBy, Filter.sign, Filter.parse]
      exact congrArg Except.ok (kept _ _ fun cell => by
        rw [membership, if_pos rfl, Value.within_allowedValues])
  | false =>
      rw [comparison, membership, if_neg Bool.false_ne_true, Table.filterBy, Filter.sign,
        Filter.parse]
      exact congrArg Except.ok (kept _ _ fun cell => by
        rw [membership, if_neg Bool.false_ne_true, Filter.test])

/-- The rows that satisfy every selection, each with its value. -/
def select (conditions : List (Selection × Value)) (table : Table) : Table :=
  table.filter fun row => conditions.all fun condition => condition.1.accepts condition.2 row

theorem select_nil (table : Table) : select [] table = table :=
  List.filter_eq_self.mpr fun _ _ => rfl

theorem select_cons (selection : Selection) (value : Value) (conditions : List (Selection × Value))
    (table : Table) :
    select ((selection, value) :: conditions) table =
      select conditions (table.filter (selection.accepts value)) := by
  rw [select, select, List.filter_filter]
  refine List.filter_congr fun row _ => ?_
  rw [List.all_cons, Bool.and_comm]

/-- All conditions hold of a row or not, in whichever order they are asked. -/
theorem select_perm {first second : List (Selection × Value)} (perm : first.Perm second)
    (table : Table) : select first table = select second table :=
  List.filter_congr fun _ _ => perm.all_eq

variable {lookUp : LookUp} {surroundings : Surroundings}

/-- A stored table is narrowed to what a query selects, also when values are evaluated between the
filters. -/
theorem narrow_stored {selections : List Selection} {values : List Value} {progress after : Progress}
    (evaluated : (runAll (selections.map (wanted lookUp))).runFrom surroundings progress =
      (.ok values, after)) (table : Table) :
    (narrow lookUp selections (.stored table)).runFrom surroundings progress =
      (.ok (.stored (select (selections.zip values) table)), after) := by
  induction selections generalizing values progress table with
  | nil =>
      cases evaluated
      rw [narrow, List.zip_nil_left, select_nil]
      rfl
  | cons selection rest inductionHypothesis =>
      rw [List.map_cons, runAll] at evaluated
      obtain ⟨value, between, isValue, evaluated⟩ := Evaluation.runFrom_bind_ok evaluated
      obtain ⟨others, _, areOthers, collected⟩ := Evaluation.runFrom_bind_ok evaluated
      cases collected
      have compared : (selection.operand lookUp).runFrom surroundings progress =
          (.ok (selection.comparison value), between) := by
        rw [operand_eq, Evaluation.runFrom_bind_of_ok isValue]
        rfl
      have untouched : (touch (.stored table)).runFrom surroundings between = (.ok (), between) := rfl
      rw [narrow, Evaluation.runFrom_bind_of_ok compared, Evaluation.runFrom_bind_of_ok untouched,
        Source.filterBy, filterBy_comparison, List.zip_cons_cons, select_cons]
      exact inductionHypothesis areOthers _

end Selection

namespace SourceReference

/-- The chosen fields of every row, or the cells of one column in the rows that have it, or the whole
rows. -/
def projection (reference : SourceReference) (table : Table) : List Value :=
  match reference.fields, reference.field with
  | some names, _ => table.map fun row => .record (row.filter fun pair => pair.1 ∈ names)
  | none, some name => table.filterMap (Entries.get? name)
  | none, none => table.map .record

theorem valuesOf_stored {table : Table} (sorted : ∀ row ∈ table, Entries.Sorted row)
    (reference : SourceReference) :
    reference.valuesOf (.stored table) = reference.projection table := by
  rw [valuesOf, projection, Source.rows]
  cases reference.fields with
  | some names =>
      dsimp only
      rw [Table.project_eq sorted, List.map_map]
      rfl
  | none => cases reference.field <;> rfl

/-- What a reference means in a table, when the values of its selections are given with them. -/
def meaning (reference : SourceReference) (conditions : List (Selection × Value)) (table : Table) :
    Value :=
  Value.collapse (reference.projection (Selection.select conditions table))

variable {lookUp : LookUp} {surroundings : Surroundings} {table : Table}

theorem resolve_stored (reference : SourceReference) {values : List Value} {progress after : Progress}
    (isTabular : reference.isTabular = true)
    (found : Entries.get? reference.table surroundings.sources = some (.stored table))
    (sorted : ∀ row ∈ table, Entries.Sorted row)
    (evaluated : (runAll (reference.selectOn.map (Selection.wanted lookUp))).runFrom surroundings
      progress = (.ok values, after)) :
    (reference.resolve lookUp).runFrom surroundings progress =
      (.ok (reference.meaning (reference.selectOn.zip values) table), after) := by
  have given : (Evaluation.given fun surroundings =>
      Entries.get? reference.table surroundings.sources).runFrom surroundings progress =
        (.ok (some (.stored table)), progress) := by
    rw [← found]
    rfl
  have stillSorted : ∀ row ∈ Selection.select (reference.selectOn.zip values) table,
      Entries.Sorted row := fun row member => sorted row (List.mem_of_mem_filter member)
  rw [resolve, Evaluation.runFrom_bind_of_ok given]
  dsimp only
  rw [if_pos isTabular, Evaluation.runFrom_bind_of_ok (Selection.narrow_stored evaluated table),
    valuesOf_stored stillSorted]
  rfl

/-- The value of a property in a stored table is the meaning of its reference: of the rows that satisfy
every selection, the chosen part, where no row makes null and a single one stands for itself. Selections
in another order that evaluate to the same values give the same. -/
theorem resolve_relational (reference : SourceReference) {values : List Value}
    {progress after : Progress} (isTabular : reference.isTabular = true)
    (found : Entries.get? reference.table surroundings.sources = some (.stored table))
    (sorted : ∀ row ∈ table, Entries.Sorted row)
    (evaluated : (runAll (reference.selectOn.map (Selection.wanted lookUp))).runFrom surroundings
      progress = (.ok values, after)) :
    (reference.resolve lookUp).runFrom surroundings progress =
      (.ok (reference.meaning (reference.selectOn.zip values) table), after) ∧
    ∀ (selections : List Selection) (others : List Value) (start ended : Progress),
      (selections.zip others).Perm (reference.selectOn.zip values) →
      (runAll (selections.map (Selection.wanted lookUp))).runFrom surroundings start =
        (.ok others, ended) →
      ({ reference with selectOn := selections }.resolve lookUp).runFrom surroundings start =
        (.ok (reference.meaning (reference.selectOn.zip values) table), ended) := by
  refine ⟨resolve_stored reference isTabular found sorted evaluated, ?_⟩
  intro selections others start ended perm evaluatedOthers
  rw [resolve_stored { reference with selectOn := selections } isTabular found sorted evaluatedOthers,
    meaning, meaning, Selection.select_perm perm]
  rfl

/-- Of these houses one lacks its residents, and a single one has an owner. -/
def houses : Table :=
  [[("city", .string "Delft"), ("residents", .string "one")],
    [("city", .string "Delft")],
    [("city", .string "Gouda"), ("residents", .string "one")],
    [("city", .string "Delft"), ("residents", .string "two")],
    [("city", .string "Delft"), ("owner", .string "Anna"), ("residents", .string "three")]]

def inDelft : Selection :=
  ⟨"city", none, .literal (.string "Delft")⟩

def oddNumbers : Value :=
  .list [.string "one", .string "three"]

def withOddResidents : Selection :=
  ⟨"residents", none, .operation { Operation.named "IN" with values := some (.literal oddNumbers) }⟩

/-- No house has a rent. -/
def occupiedHouses (selections : List Selection) : SourceReference :=
  { sourceType := none
    table := "houses"
    field := none
    fields := some ["residents", "owner", "rent"]
    selectOn := selections }

def houseRegister : Surroundings :=
  { Operation.bareSurroundings with sources := [("houses", .stored houses)] }

/-- What a reference to the houses gives at the start of an evaluation. -/
def housesResult (selections : List Selection) : Except EvaluationError Value :=
  (((occupiedHouses selections).resolve Evaluation.valueOf).runFrom houseRegister
    (Progress.start .initial)).1

/-- Two houses are left in both orders of the selections, each with the fields that it has. -/
theorem resolve_relational_houses :
    let left : Value := .list [.record [("residents", .string "one")],
      .record [("owner", .string "Anna"), ("residents", .string "three")]]
    housesResult [inDelft, withOddResidents] = .ok left ∧
      housesResult [withOddResidents, inDelft] = .ok left := by
  intro left
  have sorted : ∀ row ∈ houses, Entries.Sorted row := by
    unfold Entries.Sorted
    decide
  have evaluated : (runAll ([inDelft, withOddResidents].map
      (Selection.wanted Evaluation.valueOf))).runFrom houseRegister (Progress.start .initial) =
        (.ok [.string "Delft", oddNumbers], Progress.start .initial) := rfl
  have evaluatedSwapped : (runAll ([withOddResidents, inDelft].map
      (Selection.wanted Evaluation.valueOf))).runFrom houseRegister (Progress.start .initial) =
        (.ok [oddNumbers, .string "Delft"], Progress.start .initial) := rfl
  obtain ⟨inOrder, reordered⟩ := resolve_relational (occupiedHouses [inDelft, withOddResidents]) rfl
    rfl sorted evaluated
  have swapped := reordered [withOddResidents, inDelft] [oddNumbers, .string "Delft"] _ _
    (.swap _ _ _) evaluatedSwapped
  have isLeft : (occupiedHouses [inDelft, withOddResidents]).meaning
      [(inDelft, .string "Delft"), (withOddResidents, oddNumbers)] houses = left := rfl
  exact ⟨(congrArg Prod.fst inOrder).trans (congrArg Except.ok isLeft),
    (congrArg Prod.fst swapped).trans (congrArg Except.ok isLeft)⟩

end SourceReference

end Statute
