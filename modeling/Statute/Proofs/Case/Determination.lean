/-
This file says what determinations of rules do to a case and to the store that keeps it.
-/

import Statute.Proofs.Case.Integrity

namespace Statute

namespace Entries

variable {α : Type} {name : String} {upper lower both : List (String × Value)}

/-- A field that is set in one of two rows of pairs, the upper one first, joins their overlay. -/
theorem get?_overlay_setField (toValue : α → Value) (update status : Option α)
    (isNew : get? name (ofList upper) = none)
    (overlaid : ∀ wanted, get? wanted (ofList both) =
      (get? wanted (ofList upper)).or (get? wanted (ofList lower))) (wanted : String) :
    get? wanted (ofList (both ++ setField name toValue (update <|> status))) =
      (get? wanted (ofList (upper ++ setField name toValue update))).or
        (get? wanted (ofList (lower ++ setField name toValue status))) := by
  rw [get?_ofList_append_setField, get?_ofList_append_setField, get?_ofList_append_setField]
  by_cases same : wanted = name
  · subst same
    rw [if_pos rfl, if_pos rfl, if_pos rfl, overlaid, isNew]
    cases update <;> cases status <;> rfl
  · rw [if_neg same, if_neg same, if_neg same, overlaid]

theorem get?_setField_overlay (toValue : α → Value) (update status : Option α) (wanted : String) :
    get? wanted (ofList (setField name toValue (update <|> status))) =
      (get? wanted (ofList (setField name toValue update))).or
        (get? wanted (ofList (setField name toValue status))) :=
  @get?_overlay_setField α name [] [] [] toValue update status rfl (fun _ => rfl) wanted

end Entries

/-- The fields of an update go before those of the status that it is laid over. -/
theorem ObjectionStatus.get?_fields_overlay (update status : ObjectionStatus) :
    ∀ name, Entries.get? name (update.overlay status).fields =
      (Entries.get? name update.fields).or (Entries.get? name status.fields) := by
  unfold fields overlay
  repeat' apply Entries.get?_overlay_setField
  case' overlaid.overlaid.overlaid.overlaid.overlaid => apply Entries.get?_setField_overlay
  all_goals
    simp only [Entries.get?_ofList_append_setField, Entries.get?_ofList_setField, String.reduceEq,
      if_false]

theorem AppealStatus.get?_fields_overlay (update status : AppealStatus) :
    ∀ name, Entries.get? name (update.overlay status).fields =
      (Entries.get? name update.fields).or (Entries.get? name status.fields) := by
  unfold fields overlay
  repeat' apply Entries.get?_overlay_setField
  case' overlaid.overlaid.overlaid.overlaid.overlaid.overlaid => apply Entries.get?_setField_overlay
  all_goals
    simp only [Entries.get?_ofList_append_setField, Entries.get?_ofList_setField, String.reduceEq,
      if_false]

/-- What a rule determines about the remedies against a decision. -/
inductive Determination
  | objection (update : ObjectionStatus)
  | admissibility (admissible : Option Bool)
  | appeal (update : AppealStatus)

namespace Determination

/-- The kind of the event that records a determination. -/
def kind : Determination → EventKind
  | objection _ => .objectionStatusDetermined
  | admissibility _ => .objectionAdmissibilityDetermined
  | appeal _ => .appealStatusDetermined

/-- The fields that a determination sets. -/
def fields : Determination → Record
  | objection update => update.withoutAdmissibility.fields
  | admissibility admissible => (ObjectionStatus.admissibility admissible).fields
  | appeal update => update.fields

/-- The event that records a determination about a case. -/
def event (id : CaseId) (determination : Determination) : Event :=
  ⟨id, determination.kind, determination.fields⟩

/-- The case after a determination. -/
def apply (case : Case) : Determination → Case
  | objection update => (case.determineObjection update).1
  | admissibility admissible => (case.determineAdmissibility admissible).1
  | appeal update => (case.determineAppeal update).1

/-- The fields of the status that a determination is about. -/
def about (case : Case) : Determination → Record
  | objection _ => case.objectionStatus.fields
  | admissibility _ => case.objectionStatus.fields
  | appeal _ => case.appealStatus.fields

/-- What a determination may do to a case: it sets the fields that its event lists in the status that
it is about, and leaves everything else as it was. -/
structure Writes (determination : Determination) (case changed : Case) : Prop where
  listed : ∀ name, Entries.get? name (determination.about changed) =
    (Entries.get? name determination.fields).or (Entries.get? name (determination.about case))
  statuses : changed = { case with
    objectionStatus := changed.objectionStatus
    appealStatus := changed.appealStatus }
  objection : determination.kind = .appealStatusDetermined →
    changed.objectionStatus = case.objectionStatus
  appeal : determination.kind ≠ .appealStatusDetermined → changed.appealStatus = case.appealStatus
  admissible : determination.kind ≠ .objectionAdmissibilityDetermined →
    changed.objectionStatus.admissible = case.objectionStatus.admissible

theorem writes (determination : Determination) (case : Case) :
    determination.Writes case (determination.apply case) := by
  cases determination with
  | objection update =>
      exact ⟨ObjectionStatus.get?_fields_overlay _ _, rfl, nofun, fun _ => rfl, fun _ => rfl⟩
  | admissibility admissible =>
      exact ⟨ObjectionStatus.get?_fields_overlay _ _, rfl, nofun, fun _ => rfl,
        fun other => absurd rfl other⟩
  | appeal update =>
      exact ⟨AppealStatus.get?_fields_overlay _ _, rfl, fun _ => rfl, fun other => absurd rfl other,
        fun _ => rfl⟩

/-- The case after a row of determinations. -/
def applyAll (determinations : List Determination) (case : Case) : Case :=
  determinations.foldl apply case

theorem applyAll_append (earlier later : List Determination) (case : Case) :
    applyAll (earlier ++ later) case = applyAll later (applyAll earlier case) :=
  List.foldl_append

theorem id_apply (determination : Determination) (case : Case) :
    (determination.apply case).id = case.id := by
  rw [(determination.writes case).statuses]

/-- Determinations change what is determined about objection and appeal only. -/
theorem applyAll_statuses (determinations : List Determination) (case : Case) :
    applyAll determinations case = { case with
      objectionStatus := (applyAll determinations case).objectionStatus
      appealStatus := (applyAll determinations case).appealStatus } := by
  induction determinations generalizing case with
  | nil => rfl
  | cons determination rest inductionHypothesis =>
      have first := (determination.writes case).statuses
      have others := inductionHypothesis (determination.apply case)
      rw [applyAll, List.foldl_cons, ← applyAll, others, first]

/-- Only determinations of admissibility say whether an objection is admissible. -/
theorem applyAll_admissible {determinations : List Determination}
    (others : ∀ determination ∈ determinations,
      determination.kind ≠ .objectionAdmissibilityDetermined) (case : Case) :
    (applyAll determinations case).objectionStatus.admissible =
      case.objectionStatus.admissible := by
  induction determinations generalizing case with
  | nil => rfl
  | cons determination rest inductionHypothesis =>
      obtain ⟨isOther, rest⟩ := List.forall_mem_cons.mp others
      exact (inductionHypothesis rest _).trans ((determination.writes case).admissible isOther)

end Determination

namespace CaseStore

variable {id : CaseId} {before between after : CaseStore}

/-- Rules have determined something about a case, and nothing else has happened. -/
structure Determines (id : CaseId) (determinations : List Determination) (before after : CaseStore) :
    Prop where
  case : Association.get? id after.cases =
    (Association.get? id before.cases).map (Determination.applyAll determinations)
  others : ∀ other, other ≠ id →
    Association.get? other after.cases = Association.get? other before.cases
  keys : after.cases.map Prod.fst = before.cases.map Prod.fst
  byMatter : after.byMatter = before.byMatter
  events : after.events = before.events ++ determinations.map (Determination.event id)

namespace Determines

variable {earlier later : List Determination}

theorem refl (id : CaseId) (store : CaseStore) : store.Determines id [] store where
  case := Option.map_id'.symm
  others := fun _ _ => rfl
  keys := rfl
  byMatter := rfl
  events := (List.append_nil _).symm

theorem trans (first : before.Determines id earlier between)
    (second : between.Determines id later after) : before.Determines id (earlier ++ later) after where
  case := by
    rw [second.case, first.case, Option.map_map]
    congr 1
    funext case
    exact (Determination.applyAll_append earlier later case).symm
  others := fun other different => (second.others other different).trans (first.others other different)
  keys := second.keys.trans first.keys
  byMatter := second.byMatter.trans first.byMatter
  events := by rw [second.events, first.events, List.append_assoc, List.map_append]

/-- The events of the case grow by those of the determinations, and those of other cases stay. -/
theorem eventsOf {determinations : List Determination}
    (determines : before.Determines id determinations after) (wanted : CaseId) :
    after.eventsOf wanted = before.eventsOf wanted ++
      if wanted = id then determinations.map (Determination.event id) else [] := by
  rw [CaseStore.eventsOf, CaseStore.eventsOf, determines.events, List.filter_append]
  congr 1
  split
  · rename_i same
    rw [same, List.filter_eq_self]
    simp [Determination.event]
  · rename_i different
    rw [List.filter_eq_nil_iff]
    simp [Determination.event, Ne.symm different]

/-- One determination about a stored case. -/
theorem single {case : Case} (named : case.id = id)
    (found : Association.get? id before.cases = some case) (determination : Determination) :
    before.Determines id [determination]
      ((before.put (determination.apply case)).record id determination.kind determination.fields) := by
  have sameId : (determination.apply case).id = id := (determination.id_apply case).trans named
  constructor
  · rw [get?_put_record _ _ sameId, if_pos rfl, found]
    rfl
  · intro other different
    rw [get?_put_record _ _ sameId, if_neg different]
  · rw [record, put, sameId]
    exact Association.map_fst_set found _
  · rfl
  · rfl

end Determines

end CaseStore

end Statute
