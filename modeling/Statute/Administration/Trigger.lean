/-
This file lets rules react to the events of cases.
-/

import Statute.Administration.Cases
import Statute.Case.Document

namespace Statute

namespace Update

/-- The fields that outputs give. Outputs that are absent or null, and names that are not marked as
references, give none. -/
def fieldsFrom (update : Update) (output : Record) : Record :=
  update.mapping.filterMap fun (field, reference) => do
    let name ← referencePath? reference
    let value ← Entries.get? name output
    if value.isNull then none else some (field, value)

end Update

namespace Administration

/-- The outputs of a rule are written to a case. -/
def applyUpdate (id : CaseId) (output : Record) (update : Update) : Procedure Unit := do
  let fields := update.fieldsFrom output
  match UpdateMethod.parse update.method with
  | .error cause => throw (.rule cause)
  | .ok .objectionStatus => discard (determineObjection id (ObjectionStatus.ofFields fields))
  | .ok .objectionAdmissibility =>
      discard (determineAdmissibility id (flagField? "admissible" fields))
  | .ok .appealStatus => discard (determineAppeal id (AppealStatus.ofFields fields))

/-- Updates are applied from first to last, and counted. -/
def applyUpdates (id : CaseId) (output : Record) : List Update → Procedure Nat
  | [] => pure 0
  | update :: rest => do
      applyUpdate id output update
      let count ← applyUpdates id output rest
      return count + 1

/-- A case as rules see it. Rules see one case at a time, so its time runs with its own events. -/
def shown (administration : Administration) (case : Case) : Value :=
  case.datedValue (administration.clock 0)
    (administration.clock (administration.cases.eventsOf case.id).length)

/-- A rule is evaluated with the case as its only parameter, as of the registry's date. -/
def applyDeclaration (event : Event) (rule : Rule) (declaration : Declaration) : Procedure Nat := do
  let case ← caseOf event.case
  let administration ← get
  let outcome ← evaluate (approvedRequest rule.service rule.law
    [(declaration.name, administration.shown case)] (some administration.registry.rootDate))
  applyUpdates case.id outcome.output declaration.updates

def applyDeclarations (event : Event) : List (Rule × Declaration) → Procedure Nat
  | [] => pure 0
  | (rule, declaration) :: rest => do
      let count ← applyDeclaration event rule declaration
      let others ← applyDeclarations event rest
      return count + others

/-- Every declaration that matches an event is applied. The result is the number of updates. -/
def applyRules (event : Event) : Procedure Nat := do
  let administration ← get
  applyDeclarations event (administration.registry.catalog.matching event.kind.name event.data)

/-- The reaction to an event. Nothing reacts to the events of an administration that is gone. -/
def react (event : Event) : Option Administration → Except CaseError Nat × Option Administration
  | none => (.ok 0, none)
  | some administration =>
      let (result, after) := perform (applyRules event) administration
      (result, some after)

/-- The number of events that the trigger has handled. -/
def handled (administration : Administration) : Nat :=
  administration.processed + administration.failed

/-- The events that the trigger has not handled yet, in the order of their recording. -/
def pending (administration : Administration) : List Event :=
  administration.cases.events.drop administration.handled

/-- The trigger handles one event. A failure is counted, and what was done before it stays done. -/
def handle (event : Event) (administration : Administration) : Administration :=
  match perform (applyRules event) administration with
  | (.ok _, after) => { after with processed := after.processed + 1 }
  | (.error _, after) => { after with failed := after.failed + 1 }

/-- The trigger handles pending events until none is left, or until the fuel is used up. -/
def drain : Nat → Administration → Administration
  | 0, administration => administration
  | fuel + 1, administration =>
      match administration.pending with
      | [] => administration
      | event :: _ => drain fuel (handle event administration)

/-- The number of updates that all rules declare. -/
def declaredUpdates (administration : Administration) : Nat :=
  (administration.registry.catalog.rules.flatMap fun rule =>
    rule.properties.declarations.flatMap Declaration.updates).length

/-- An event causes no more events than there are updates. These are of three kinds, so where no
kind leads back to itself there are three generations of them. Rules that do lead back get further
steps. -/
def drainLimit (administration : Administration) : Nat :=
  administration.pending.length * Nat.pow (administration.declaredUpdates + 1) 4 + 100000

/-- The administration after its trigger has handled all events. -/
def settled (administration : Administration) : Administration :=
  drain administration.drainLimit administration

end Administration

end Statute
