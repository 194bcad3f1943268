/-
This file proves that the reaction to an event depends on nothing but its case, the claims, the rules
and their tables.
-/

import Statute.Proofs.Administration.Reaction
import Statute.Proofs.Administration.WriteBack

namespace Statute

namespace CaseStore

variable {id : CaseId} {kind : EventKind} {update : Case → Except CaseError (Case × Record)}
  {store : CaseStore}

/-- A case that is not there cannot change. -/
theorem change_absent (absent : Association.get? id store.cases = none) :
    store.change id kind update = .error (.caseNotFound id) := by
  simp [change, CaseStore.case, absent, bind, Except.bind]

/-- A change fails when the update of the stored case does. -/
theorem change_of_error {case : Case} {error : CaseError}
    (found : Association.get? id store.cases = some case) (failed : update case = .error error) :
    store.change id kind update = .error error := by
  simp [change, case_eq_ok.mpr found, failed, bind, Except.bind]

end CaseStore

namespace Administration

/-- Two administrations look the same to the rules that react to the events of a case. -/
structure AgreesOn (id : CaseId) (first second : Administration) : Prop where
  registry : first.registry = second.registry
  claims : first.claims = second.claims
  clock : first.clock = second.clock
  case : Association.get? id first.cases.cases = Association.get? id second.cases.cases
  log : first.cases.eventsOf id = second.cases.eventsOf id
  named : ∀ case, Association.get? id first.cases.cases = some case → case.id = id
  firstFollows : first.Follows
  secondFollows : second.Follows

namespace AgreesOn

variable {id : CaseId} {first second third : Administration}

theorem refl (numbered : first.cases.Numbered) (follows : first.Follows) (id : CaseId) :
    AgreesOn id first first :=
  ⟨rfl, rfl, rfl, rfl, rfl, fun case found => (numbered.stored id case found).1, follows, follows⟩

theorem symm (agrees : AgreesOn id first second) : AgreesOn id second first where
  registry := agrees.registry.symm
  claims := agrees.claims.symm
  clock := agrees.clock.symm
  case := agrees.case.symm
  log := agrees.log.symm
  named := fun case found => agrees.named case (agrees.case.trans found)
  firstFollows := agrees.secondFollows
  secondFollows := agrees.firstFollows

theorem trans (agrees : AgreesOn id first second) (further : AgreesOn id second third) :
    AgreesOn id first third where
  registry := agrees.registry.trans further.registry
  claims := agrees.claims.trans further.claims
  clock := agrees.clock.trans further.clock
  case := agrees.case.trans further.case
  log := agrees.log.trans further.log
  named := agrees.named
  firstFollows := agrees.firstFollows
  secondFollows := further.secondFollows

/-- Rules see the case in the same way. -/
theorem shown (agrees : AgreesOn id first second) {case : Case} (named : case.id = id) :
    first.shown case = second.shown case := by
  rw [Administration.shown, Administration.shown, named, agrees.log, agrees.clock]

/-- The same change of the case, with the same event. -/
theorem changed (agrees : AgreesOn id first second) {case : Case} (named : case.id = id)
    (kind : EventKind) (data : Record) :
    AgreesOn id { first with cases := (first.cases.put case).record id kind data }
      { second with cases := (second.cases.put case).record id kind data } where
  registry := agrees.registry
  claims := agrees.claims
  clock := agrees.clock
  case := by rw [CaseStore.get?_put_record _ _ named, CaseStore.get?_put_record _ _ named, if_pos rfl,
    if_pos rfl]
  log := by rw [CaseStore.eventsOf_record, CaseStore.eventsOf_record, CaseStore.eventsOf_put,
    CaseStore.eventsOf_put, agrees.log]
  named := by
    intro there found
    rw [CaseStore.get?_put_record _ _ named, if_pos rfl] at found
    exact Option.some.inj found ▸ named
  firstFollows := agrees.firstFollows
  secondFollows := agrees.secondFollows

end AgreesOn

/-- A procedure that gives the same result and does the same to a case, wherever the case is the
same. -/
def Local {α : Type} (id : CaseId) (procedure : Procedure α) : Prop :=
  ∀ first second, AgreesOn id first second →
    (perform procedure first).1 = (perform procedure second).1 ∧
      AgreesOn id (perform procedure first).2 (perform procedure second).2

namespace Local

variable {id : CaseId} {α β : Type}

theorem pure (value : α) : Local id (pure value) :=
  fun _ _ agrees => ⟨rfl, agrees⟩

theorem throw (error : CaseError) : Local id (throw error : Procedure α) :=
  fun _ _ agrees => ⟨rfl, agrees⟩

theorem bind {procedure : Procedure α} {next : α → Procedure β} (isLocal : Local id procedure)
    (continues : ∀ value, Local id (next value)) : Local id (procedure >>= next) := by
  intro first second agrees
  obtain ⟨same, stillAgrees⟩ := isLocal first second agrees
  rw [perform_bind, perform_bind]
  cases ranFirst : perform procedure first with
  | mk result left =>
      cases ranSecond : perform procedure second with
      | mk other right =>
          rw [ranFirst, ranSecond] at same stillAgrees
          obtain rfl : result = other := same
          cases result with
          | error error => exact ⟨rfl, stillAgrees⟩
          | ok value => exact continues value left right stillAgrees

/-- The rest may rely on the identifier of a case that was looked up. -/
theorem caseOf_bind {next : Case → Procedure β}
    (continues : ∀ case, case.id = id → Local id (next case)) :
    Local id (Administration.caseOf id >>= next) := by
  intro first second agrees
  rw [perform_bind, perform_bind, perform_caseOf, perform_caseOf]
  have sameCase : first.cases.case id = second.cases.case id := by
    rw [CaseStore.case, CaseStore.case, agrees.case]
  rw [← sameCase]
  cases found : first.cases.case id with
  | error error => exact ⟨rfl, agrees⟩
  | ok case =>
      exact continues case (agrees.named case (CaseStore.case_eq_ok.mp found)) first second agrees

/-- The rest may use what looks the same. -/
theorem get_bind {next : Administration → Procedure β}
    (same : ∀ first second, AgreesOn id first second → next first = next second)
    (continues : ∀ administration, Local id (next administration)) : Local id (get >>= next) := by
  intro first second agrees
  rw [perform_bind, perform_bind, perform_get, perform_get]
  dsimp only
  rw [same first second agrees]
  exact continues second first second agrees

/-- A change of the case that keeps its identifier. -/
theorem change {kind : EventKind} {update : Case → Except CaseError (Case × Record)}
    (keepsId : ∀ case changed data, update case = .ok (changed, data) → changed.id = case.id) :
    Local id (onCases (CaseStore.change id kind update)) := by
  intro first second agrees
  rw [perform_onCases, perform_onCases]
  cases found : Association.get? id first.cases.cases with
  | none =>
      rw [CaseStore.change_absent found, CaseStore.change_absent (agrees.case ▸ found)]
      exact ⟨rfl, agrees⟩
  | some case =>
      have foundSecond : Association.get? id second.cases.cases = some case := agrees.case ▸ found
      cases updated : update case with
      | error error =>
          rw [CaseStore.change_of_error found updated, CaseStore.change_of_error foundSecond updated]
          exact ⟨rfl, agrees⟩
      | ok result =>
          obtain ⟨changed, data⟩ := result
          have named := (keepsId case changed data updated).trans (agrees.named case found)
          rw [CaseStore.change_of_ok found updated, CaseStore.change_of_ok foundSecond updated]
          exact ⟨rfl, agrees.changed named kind data⟩

/-- An answer without a flag of cancellation depends on the registry and the claims only. -/
theorem evaluate {request : Request} (unflagged : request.cancellation = .none) :
    Local id (Administration.evaluate request) := by
  intro first second agrees
  have alike : Shared.Alike first.registry.catalog request.cancellation first.shared second.shared :=
    ⟨by rw [unflagged]; rfl, agrees.firstFollows, agrees.registry ▸ agrees.secondFollows⟩
  obtain ⟨sameAnswer, stillAlike⟩ :=
    first.registry.evaluate_steady (some first.claims.lookup) request _ _ alike
  have asked : second.registry.evaluate (some second.claims.lookup) request second.shared =
      first.registry.evaluate (some first.claims.lookup) request second.shared := by
    rw [agrees.registry, agrees.claims]
  rw [perform_evaluate, perform_evaluate, asked]
  exact ⟨congrArg (Except.mapError CaseError.evaluation) sameAnswer, { agrees with
    firstFollows := stillAlike.firstFollows
    secondFollows := agrees.registry ▸ stillAlike.secondFollows }⟩

theorem applyUpdate (output : Record) (update : Update) : Local id (applyUpdate id output update) := by
  unfold Administration.applyUpdate
  dsimp only
  split
  · exact throw _
  · exact (change fun _ _ _ updated => by cases updated; rfl).bind fun _ => pure _
  · exact (change fun _ _ _ updated => by cases updated; rfl).bind fun _ => pure _
  · exact (change fun _ _ _ updated => by cases updated; rfl).bind fun _ => pure _

theorem applyUpdates (output : Record) (updates : List Update) :
    Local id (applyUpdates id output updates) := by
  induction updates with
  | nil => exact pure 0
  | cons update rest inductionHypothesis =>
      exact (applyUpdate output update).bind fun _ => inductionHypothesis.bind fun _ => pure _

theorem applyDeclaration (event : Event) (rule : Rule) (declaration : Declaration) :
    Local event.case (applyDeclaration event rule declaration) := by
  refine caseOf_bind fun case named => ?_
  rw [← named]
  refine get_bind (fun first second agrees => ?_) fun administration => ?_
  · rw [agrees.shown rfl, agrees.registry]
  · exact (evaluate rfl).bind fun outcome => applyUpdates outcome.output declaration.updates

theorem applyDeclarations (event : Event) (declared : List (Rule × Declaration)) :
    Local event.case (applyDeclarations event declared) := by
  induction declared with
  | nil => exact pure 0
  | cons head rest inductionHypothesis =>
      obtain ⟨rule, declaration⟩ := head
      exact (applyDeclaration event rule declaration).bind fun _ =>
        inductionHypothesis.bind fun _ => pure _

/-- The reaction to an event. -/
theorem applyRules (event : Event) : Local event.case (applyRules event) :=
  get_bind (fun _ _ agrees => by rw [agrees.registry]) fun _ => applyDeclarations event _

end Local

/-- The reaction to an event leaves other cases as they look. -/
theorem agreesOn_applyRules {administration : Administration}
    (numbered : administration.cases.Numbered) (follows : administration.Follows) (event : Event)
    {id : CaseId} (other : id ≠ event.case) :
    AgreesOn id administration (perform (applyRules event) administration).2 := by
  obtain ⟨determinations, determines, _⟩ := applyRules_determines numbered event
  have quiet := Quiet.applyRules event administration
  have log := determines.cases.eventsOf id
  rw [if_neg other, List.append_nil] at log
  obtain ⟨shared, isAfter⟩ := determines.others
  exact {
    registry := (congrArg Administration.registry isAfter).symm
    claims := (congrArg Administration.claims isAfter).symm
    clock := (congrArg Administration.clock isAfter).symm
    case := (determines.cases.others id other).symm
    log := log.symm
    named := fun case found => (numbered.stored id case found).1
    firstFollows := follows
    secondFollows := QuietEffects.follows quiet follows }

end Administration

end Statute
