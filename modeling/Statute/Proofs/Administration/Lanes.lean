/-
This file proves that it does not matter in which order the events of different cases are handled.
-/

import Statute.Proofs.Administration.Backlog
import Statute.Proofs.Administration.Locality

namespace Statute

namespace Administration

variable {id : CaseId} {first second administration : Administration}

/-- Counts are not seen by rules. -/
theorem AgreesOn.counted (agrees : AgreesOn id first second)
    (processed failed otherProcessed otherFailed : Nat) :
    AgreesOn id { first with processed, failed }
      { second with processed := otherProcessed, failed := otherFailed } :=
  { agrees with }

/-- An event of a case is handled in the same way wherever the case is the same. -/
theorem handle_local (event : Event) (agrees : AgreesOn event.case first second) :
    (perform (applyRules event) first).1 = (perform (applyRules event) second).1 ∧
      AgreesOn event.case (handle event first) (handle event second) := by
  obtain ⟨sameAnswer, stillAgrees⟩ := Local.applyRules event first second agrees
  obtain ⟨processed, failed, isFirst, _⟩ := handle_eq event first
  obtain ⟨otherProcessed, otherFailed, isSecond, _⟩ := handle_eq event second
  rw [isFirst, isSecond]
  exact ⟨sameAnswer, stillAgrees.counted _ _ _ _⟩

/-- The handling of an event leaves other cases as they look. -/
theorem agreesOn_handle (numbered : administration.cases.Numbered)
    (follows : administration.Follows) (event : Event) (other : id ≠ event.case) :
    AgreesOn id administration (handle event administration) := by
  obtain ⟨processed, failed, isHandled, _⟩ := handle_eq event administration
  rw [isHandled]
  exact (agreesOn_applyRules numbered follows event other).counted administration.processed
    administration.failed _ _

/-- The handling of an event adds no event of another case. -/
theorem addedEvents_other (numbered : administration.cases.Numbered) (event : Event)
    (other : id ≠ event.case) :
    ((addedEvents administration (handle event administration)).filter fun event =>
      event.case = id) = [] := by
  obtain ⟨made, determines, _⟩ := handle_determines numbered event
  rw [addedEvents_eq determines, List.filter_eq_nil_iff]
  simp [Determination.event, Ne.symm other]

/-- The same events are added wherever the case is the same. -/
theorem addedEvents_local (firstNumbered : first.cases.Numbered)
    (secondNumbered : second.cases.Numbered) (event : Event)
    (agrees : AgreesOn event.case first second) :
    addedEvents first (handle event first) = addedEvents second (handle event second) := by
  obtain ⟨firstMade, firstDetermines, _⟩ := handle_determines firstNumbered event
  obtain ⟨secondMade, secondDetermines, _⟩ := handle_determines secondNumbered event
  have firstLog := firstDetermines.eventsOf event.case
  have secondLog := secondDetermines.eventsOf event.case
  rw [if_pos rfl] at firstLog secondLog
  have sameLog := (handle_local event agrees).2.log
  rw [firstLog, secondLog, agrees.log] at sameLog
  rw [addedEvents_eq firstDetermines, addedEvents_eq secondDetermines]
  exact List.append_cancel_left sameLog

end Administration

namespace Backlog

/-- Two backlogs have the same to do about a case, and did the same about it. -/
structure AgreesOn (id : CaseId) (first second : Backlog) : Prop where
  administration : first.administration.AgreesOn id second.administration
  lane : first.lane id = second.lane id
  answers : first.answers id = second.answers id

namespace AgreesOn

variable {id : CaseId} {first second third : Backlog}

theorem refl (numbered : first.administration.cases.Numbered)
    (follows : first.administration.Follows) (id : CaseId) : AgreesOn id first first :=
  ⟨.refl numbered follows id, rfl, rfl⟩

theorem symm (agrees : AgreesOn id first second) : AgreesOn id second first :=
  ⟨agrees.administration.symm, agrees.lane.symm, agrees.answers.symm⟩

theorem trans (agrees : AgreesOn id first second) (further : AgreesOn id second third) :
    AgreesOn id first third :=
  ⟨agrees.administration.trans further.administration, agrees.lane.trans further.lane,
    agrees.answers.trans further.answers⟩

end AgreesOn

variable {id : CaseId} {first second backlog : Backlog}

/-- A case is served in the same way wherever there is the same to do about it. -/
theorem serve_local (firstNumbered : first.administration.cases.Numbered)
    (secondNumbered : second.administration.cases.Numbered) (agrees : AgreesOn id first second) :
    AgreesOn id (first.serve id) (second.serve id) := by
  cases lane : first.lane id with
  | nil =>
      rw [serve_nil lane, serve_nil (agrees.lane ▸ lane)]
      exact agrees
  | cons event rest =>
      obtain ⟨others, isFirst, named, restFirst, _⟩ := serve_cons lane
      obtain ⟨more, isSecond, _, restSecond, _⟩ := serve_cons (agrees.lane ▸ lane)
      subst named
      obtain ⟨sameAnswer, handled⟩ := Administration.handle_local event agrees.administration
      have sameEvents := Administration.addedEvents_local firstNumbered secondNumbered event
        agrees.administration
      rw [isFirst, isSecond]
      refine ⟨handled, ?_, ?_⟩
      · rw [lane_hand, lane_hand, restFirst, restSecond, sameEvents]
      · rw [answers_hand, answers_hand, agrees.answers, sameAnswer]

/-- To serve a case leaves other cases as they are. -/
theorem agreesOn_serve (numbered : backlog.administration.cases.Numbered)
    (follows : backlog.administration.Follows) {other : CaseId} (different : id ≠ other) :
    AgreesOn id backlog (backlog.serve other) := by
  cases lane : backlog.lane other with
  | nil =>
      rw [serve_nil lane]
      exact .refl numbered follows id
  | cons event rest =>
      obtain ⟨others, isServed, rfl, _, unserved⟩ := serve_cons lane
      rw [isServed]
      refine ⟨Administration.agreesOn_handle numbered follows event different, ?_, ?_⟩
      · rw [lane_hand, unserved id different, Administration.addedEvents_other numbered event different,
          List.append_nil]
      · rw [answers_hand, if_neg (Ne.symm different), List.append_nil]

/-- What becomes of a case depends on how often it is served, and not on when other cases are. -/
theorem serveAll_lane (schedule : List CaseId) (firstNumbered : first.administration.cases.Numbered)
    (secondNumbered : second.administration.cases.Numbered) (agrees : AgreesOn id first second) :
    AgreesOn id (first.serveAll schedule)
      (second.serveAll (List.replicate (schedule.count id) id)) := by
  induction schedule generalizing first second with
  | nil => exact agrees
  | cons head rest inductionHypothesis =>
      by_cases same : head = id
      · subst same
        rw [List.count_cons_self, List.replicate_succ]
        exact inductionHypothesis (serve_numbered firstNumbered head)
          (serve_numbered secondNumbered head) (serve_local firstNumbered secondNumbered agrees)
      · rw [List.count_cons_of_ne same]
        have left := agreesOn_serve firstNumbered agrees.administration.firstFollows (Ne.symm same)
        exact inductionHypothesis (serve_numbered firstNumbered head) secondNumbered
          (left.symm.trans agrees)

/-- Nothing happens to a case once its lane is empty. -/
theorem serveAll_replicate_nil (isEmpty : backlog.lane id = []) (count : Nat) :
    backlog.serveAll (List.replicate count id) = backlog := by
  induction count with
  | zero => rfl
  | succ count inductionHypothesis =>
      rw [List.replicate_succ, serveAll, List.foldl_cons, serve_nil isEmpty]
      exact inductionHypothesis

theorem serveAll_append (earlier later : List CaseId) (backlog : Backlog) :
    backlog.serveAll (earlier ++ later) = (backlog.serveAll earlier).serveAll later :=
  List.foldl_append

/-- Further turns of a case make no difference once its lane is empty. -/
theorem serveAll_replicate_of_le {few many : Nat} (le : few ≤ many)
    (isEmpty : (backlog.serveAll (List.replicate few id)).lane id = []) :
    backlog.serveAll (List.replicate many id) = backlog.serveAll (List.replicate few id) := by
  obtain ⟨more, rfl⟩ := Nat.exists_eq_add_of_le le
  rw [List.replicate_add, serveAll_append, serveAll_replicate_nil isEmpty]

/-- Two schedules do the same about a case when they serve it equally often, or both until nothing of
it waits. -/
theorem serveAll_agreesOn (numbered : backlog.administration.cases.Numbered)
    (follows : backlog.administration.Follows) {one other : List CaseId}
    (served : one.count id = other.count id ∨
      (backlog.serveAll one).lane id = [] ∧ (backlog.serveAll other).lane id = []) :
    AgreesOn id (backlog.serveAll one) (backlog.serveAll other) := by
  have alone (schedule : List CaseId) : AgreesOn id (backlog.serveAll schedule)
      (backlog.serveAll (List.replicate (schedule.count id) id)) :=
    serveAll_lane schedule numbered numbered (.refl numbered follows id)
  have sameAlone : backlog.serveAll (List.replicate (one.count id) id) =
      backlog.serveAll (List.replicate (other.count id) id) := by
    rcases served with equally | ⟨oneEmpty, otherEmpty⟩
    · rw [equally]
    · rw [(alone one).lane] at oneEmpty
      rw [(alone other).lane] at otherEmpty
      rcases Nat.le_total (one.count id) (other.count id) with fewer | more
      · exact (serveAll_replicate_of_le fewer oneEmpty).symm
      · exact serveAll_replicate_of_le more otherEmpty
  exact (alone one).trans (sameAlone ▸ (alone other).symm)

end Backlog

namespace Administration

variable {id : CaseId} {administration : Administration}

/-- Reactions leave everything else about an administration sound. -/
theorem applyRules_sound (numbered : administration.cases.Numbered)
    (follows : administration.Follows) (event : Event) :
    (perform (applyRules event) administration).2.cases.Numbered ∧
      (perform (applyRules event) administration).2.Follows :=
  ⟨(Quiet.applyRules event administration).steps.numbered numbered,
    (Quiet.applyRules event administration).follows follows⟩

/-- A reaction keeps agreement on every case, on that of the event and on others. -/
theorem applyRules_agreesOn {first second : Administration} (firstNumbered : first.cases.Numbered)
    (secondNumbered : second.cases.Numbered) (agrees : AgreesOn id first second) (event : Event) :
    AgreesOn id (perform (applyRules event) first).2 (perform (applyRules event) second).2 := by
  by_cases own : id = event.case
  · subst own
    exact (Local.applyRules event first second agrees).2
  · have left := agreesOn_applyRules firstNumbered agrees.firstFollows event own
    have right := agreesOn_applyRules secondNumbered agrees.secondFollows event own
    exact left.symm.trans (agrees.trans right)

/-- Once the rules have reacted to an event of another case, their reaction to an event is the same,
and it leads to the same on all cases but that other one. -/
theorem applyRules_after_other (numbered : administration.cases.Numbered)
    (follows : administration.Follows) {event other : Event} (different : event.case ≠ other.case) :
    let before := (perform (applyRules other) administration).2
    (perform (applyRules event) before).1 = (perform (applyRules event) administration).1 ∧
      ∀ id, id ≠ other.case → AgreesOn id (perform (applyRules event) before).2
        (perform (applyRules other) (perform (applyRules event) administration).2).2 := by
  intro before
  obtain ⟨beforeNumbered, _⟩ := applyRules_sound numbered follows other
  obtain ⟨afterNumbered, afterFollows⟩ := applyRules_sound numbered follows event
  have unseen (id : CaseId) (isOther : id ≠ other.case) : AgreesOn id before administration :=
    (agreesOn_applyRules numbered follows other isOther).symm
  refine ⟨(Local.applyRules event _ _ (unseen event.case different)).1, fun id isOther => ?_⟩
  exact (applyRules_agreesOn beforeNumbered numbered (unseen id isOther) event).trans
    (agreesOn_applyRules afterNumbered afterFollows other isOther)

/-- Two reactions to events of different cases lead to the same on every case in either order. -/
theorem applyRules_comm (numbered : administration.cases.Numbered)
    (follows : administration.Follows) {first second : Event} (different : first.case ≠ second.case)
    (id : CaseId) :
    AgreesOn id
      (perform (applyRules second) (perform (applyRules first) administration).2).2
      (perform (applyRules first) (perform (applyRules second) administration).2).2 := by
  by_cases isFirst : id = first.case
  · have isSecond : id ≠ second.case := isFirst ▸ different
    exact ((applyRules_after_other numbered follows different).2 id isSecond).symm
  · exact (applyRules_after_other numbered follows different.symm).2 id isFirst

/-- Reactions change cases in their places. -/
theorem applyRules_keys (numbered : administration.cases.Numbered) (event : Event) :
    (perform (applyRules event) administration).2.cases.cases.map Prod.fst =
      administration.cases.cases.map Prod.fst := by
  obtain ⟨_, determines, _⟩ := applyRules_determines numbered event
  exact determines.cases.keys

/-- Two reactions to events of different cases lead to the same cases in either order. -/
theorem applyRules_comm_cases (reachable : administration.Reachable) {first second : Event}
    (different : first.case ≠ second.case) :
    (perform (applyRules second) (perform (applyRules first) administration).2).2.cases.cases =
      (perform (applyRules first) (perform (applyRules second) administration).2).2.cases.cases := by
  have numbered := reachable.numbered
  have twice (event other : Event) :
      (perform (applyRules event) (perform (applyRules other) administration).2).2.cases.cases.map
        Prod.fst = administration.cases.cases.map Prod.fst :=
    (applyRules_keys (applyRules_sound numbered reachable.follows other).1 event).trans
      (applyRules_keys numbered other)
  apply Association.eq_of_get?
  · rw [twice]
    exact reachable.integrity.distinct
  · rw [twice, twice]
  · exact fun id => (applyRules_comm numbered reachable.follows different id).case

/-- Reactions to events of different cases do not interfere. In either order each gives the same
answer, and the cases and their logs are the same afterwards. And however the handling of waiting
events is scheduled, with the events that are recorded meanwhile waiting behind the others of their
case, what becomes of a case, its log and the answers to its events depend only on how often the case
is served, or not even on that if nothing of the case is left waiting. -/
theorem lanes_commute (catalog : Catalog) (configuration : Configuration) (clock : Nat → Instant)
    (sampler : Nat → Double) (commands : List Command) :
    let administration := (ofCatalog catalog configuration clock sampler).run commands
    (∀ first second : Event, first.case ≠ second.case →
      let one := perform (applyRules first) administration
      let other := perform (applyRules second) administration
      let oneFirst := perform (applyRules second) one.2
      let otherFirst := perform (applyRules first) other.2
      otherFirst.1 = one.1 ∧ oneFirst.1 = other.1 ∧
      oneFirst.2.cases.cases = otherFirst.2.cases.cases ∧
      ∀ id, oneFirst.2.cases.eventsOf id = otherFirst.2.cases.eventsOf id) ∧
    (∀ (waiting : List Event) (schedule otherSchedule : List CaseId) (id : CaseId),
      let start : Backlog := ⟨administration, waiting, []⟩
      let one := start.serveAll schedule
      let other := start.serveAll otherSchedule
      schedule.count id = otherSchedule.count id ∨ one.lane id = [] ∧ other.lane id = [] →
      Association.get? id one.administration.cases.cases =
        Association.get? id other.administration.cases.cases ∧
      one.administration.cases.eventsOf id = other.administration.cases.eventsOf id ∧
      one.answers id = other.answers id) := by
  intro administration
  have reachable : administration.Reachable := ⟨_, _, _, _, commands, rfl⟩
  clear_value administration
  refine ⟨fun first second different => ?_, fun waiting schedule otherSchedule id served => ?_⟩
  · exact ⟨(applyRules_after_other reachable.numbered reachable.follows different).1,
      (applyRules_after_other reachable.numbered reachable.follows different.symm).1,
      applyRules_comm_cases reachable different,
      fun id => (applyRules_comm reachable.numbered reachable.follows different id).log⟩
  · have agrees := Backlog.serveAll_agreesOn reachable.numbered reachable.follows served
    exact ⟨agrees.administration.case, agrees.administration.log, agrees.answers⟩

/-- Two submissions wait, and either may be handled first. -/
example :
    let office := objectionOffice.run [.submit ⟨⟨"222", "JenV", "awb/bezwaar"⟩, [], [], false⟩]
    let start : Backlog := ⟨office, office.pending, []⟩
    let served := fun (schedule : List CaseId) =>
      (start.serveAll schedule).handed.map fun answer => (answer.1.case, answer.2.toOption)
    served [⟨1⟩, ⟨2⟩] = [(⟨1⟩, some 1), (⟨2⟩, some 1)] ∧
      served [⟨2⟩, ⟨1⟩] = [(⟨2⟩, some 1), (⟨1⟩, some 1)] := by
  decide +kernel

end Administration

end Statute
