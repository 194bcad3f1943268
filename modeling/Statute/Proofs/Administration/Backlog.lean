/-
This file says how the trigger works through the events that wait for it.
-/

import Statute.Proofs.Administration.Submission
import Statute.Proofs.Administration.WriteBack

namespace Statute

namespace Administration

variable {administration : Administration}

/-- Determinations add their events to the log. -/
theorem addedEvents_eq {id : CaseId} {determinations : List Determination}
    {before after : Administration}
    (determines : before.cases.Determines id determinations after.cases) :
    addedEvents before after = determinations.map (Determination.event id) := by
  rw [addedEvents, determines.events, List.drop_left]

/-- The trigger counts the events that it handles. -/
theorem handle_eq (event : Event) (administration : Administration) :
    ∃ processed failed, handle event administration =
        { (perform (applyRules event) administration).2 with processed, failed } ∧
      processed + failed = (perform (applyRules event) administration).2.handled + 1 := by
  unfold handle handled
  cases perform (applyRules event) administration with
  | mk result after =>
      cases result with
      | ok count => exact ⟨_, _, rfl, Nat.add_right_comm _ _ _⟩
      | error error => exact ⟨_, _, rfl, rfl⟩

/-- What the trigger does about an event. -/
theorem handle_determines (numbered : administration.cases.Numbered) (event : Event) :
    ∃ determinations,
      administration.cases.Determines event.case determinations
        (handle event administration).cases ∧
      Update.Applied (administration.reactions event)
        (perform (applyRules event) administration).1 determinations ∧
      (handle event administration).registry = administration.registry ∧
      (handle event administration).handled = administration.handled + 1 := by
  obtain ⟨determinations, determines, applied⟩ := applyRules_determines numbered event
  obtain ⟨processed, failed, isHandled, counted⟩ := handle_eq event administration
  obtain ⟨shared, others⟩ := determines.others
  refine ⟨determinations, ?_, applied, ?_, ?_⟩
  · rw [isHandled]
    exact determines.cases
  · rw [isHandled, others]
  · rw [isHandled, handled]
    dsimp only
    rw [counted, others]
    rfl

theorem handle_numbered (numbered : administration.cases.Numbered) (event : Event) :
    (handle event administration).cases.Numbered :=
  (quietEffects_handle event administration).steps.numbered numbered

end Administration

/-- Events that wait for the trigger, and those that it has handed to the rules with their answers. -/
structure Backlog where
  administration : Administration
  waiting : List Event
  handed : List (Event × Except CaseError Nat)

namespace Backlog

/-- An event is handed to the rules. The events that are recorded meanwhile wait behind the others. -/
def hand (event : Event) (others : List Event) (backlog : Backlog) : Backlog :=
  let after := backlog.administration.handle event
  { administration := after
    waiting := others ++ Administration.addedEvents backlog.administration after
    handed := backlog.handed ++
      [(event, (Administration.perform (Administration.applyRules event) backlog.administration).1)] }

/-- The event that has waited longest is handed to the rules. -/
def next (backlog : Backlog) : Backlog :=
  match backlog.waiting with
  | [] => backlog
  | event :: others => backlog.hand event others

/-- The event of a case that has waited longest is handed to the rules. -/
def serve (backlog : Backlog) (id : CaseId) : Backlog :=
  match backlog.waiting.find? fun event => event.case = id with
  | none => backlog
  | some event => backlog.hand event (backlog.waiting.eraseP fun event => event.case = id)

/-- Cases are served one after the other. -/
def serveAll (backlog : Backlog) (schedule : List CaseId) : Backlog :=
  schedule.foldl serve backlog

/-- The events of a case that wait. -/
def lane (backlog : Backlog) (id : CaseId) : List Event :=
  backlog.waiting.filter fun event => event.case = id

/-- The answers of the rules to the events of a case. -/
def answers (backlog : Backlog) (id : CaseId) : List (Event × Except CaseError Nat) :=
  backlog.handed.filter fun answer => answer.1.case = id

variable {backlog : Backlog} {id : CaseId} {event : Event}

theorem serve_nil (isEmpty : backlog.lane id = []) : backlog.serve id = backlog := by
  have nothing : backlog.waiting.find? (fun event => event.case = id) = none := by
    rw [List.find?_eq_none]
    exact List.filter_eq_nil_iff.mp isEmpty
  rw [serve, nothing]

/-- The first event of a lane is handed to the rules, and the other events keep their order. -/
theorem serve_cons {rest : List Event} (lane : backlog.lane id = event :: rest) :
    ∃ others, backlog.serve id = backlog.hand event others ∧ event.case = id ∧
      (others.filter fun event => event.case = id) = rest ∧
      ∀ other, other ≠ id →
        (others.filter fun event => event.case = other) = backlog.lane other := by
  obtain ⟨earlier, later, waiting, before, isOfCase, isRest⟩ := List.filter_eq_cons_iff.mp lane
  have named : event.case = id := of_decide_eq_true isOfCase
  have first : backlog.waiting.find? (fun event => event.case = id) = some event := by
    rw [waiting, List.find?_append, List.find?_eq_none.mpr before]
    simp [named]
  have erased : (backlog.waiting.eraseP fun event => event.case = id) = earlier ++ later := by
    rw [waiting, List.eraseP_append_right _ before]
    simp [named]
  refine ⟨earlier ++ later, by rw [serve, first, erased], named, ?_, fun other different => ?_⟩
  · rw [List.filter_append, List.filter_eq_nil_iff.mpr before, List.nil_append, isRest]
  · rw [Backlog.lane, waiting, List.filter_append, List.filter_append, List.filter_cons_of_neg]
    simp [named, Ne.symm different]

theorem lane_hand (event : Event) (others : List Event) (backlog : Backlog) (id : CaseId) :
    (backlog.hand event others).lane id = (others.filter fun event => event.case = id) ++
      (Administration.addedEvents backlog.administration
        (backlog.administration.handle event)).filter fun event => event.case = id :=
  List.filter_append _ _

theorem answers_hand (event : Event) (others : List Event) (backlog : Backlog) (id : CaseId) :
    (backlog.hand event others).answers id = backlog.answers id ++
      if event.case = id then
        [(event, (Administration.perform (Administration.applyRules event)
          backlog.administration).1)]
      else [] := by
  rw [answers, hand, List.filter_append]
  split <;> rename_i same <;> simp [same, answers]

/-- To serve a case keeps the cases numbered. -/
theorem serve_numbered (numbered : backlog.administration.cases.Numbered) (id : CaseId) :
    (backlog.serve id).administration.cases.Numbered := by
  unfold serve
  split
  · exact numbered
  · exact Administration.handle_numbered numbered _

end Backlog

end Statute
