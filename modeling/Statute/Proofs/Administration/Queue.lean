/-
This file proves that the trigger comes to an end where no kind of event leads back to itself.
-/

import Mathlib.Algebra.Order.Ring.Nat
import Mathlib.Data.List.Flatten
import Mathlib.Logic.Function.Iterate
import Statute.Proofs.Administration.Backlog
import Statute.Proofs.Administration.Reaction
import Statute.Proofs.Rule.EventGraph

namespace Statute

theorem UpdateMethod.kind_determination (fields : Record) (method : UpdateMethod) :
    (method.determination fields).kind = method.eventKind := by
  cases method <;> rfl

/-- A determination is made by a known method, which records its kind of event. -/
theorem Update.Makes.method {update : Update} {determination : Determination}
    (makes : update.Makes determination) :
    ∃ method, UpdateMethod.parse update.method = .ok method ∧
      method.eventKind = determination.kind := by
  obtain ⟨output, given⟩ := makes
  unfold Update.determination at given
  cases parsed : UpdateMethod.parse update.method with
  | error cause => rw [parsed] at given; cases given
  | ok method =>
      rw [parsed] at given
      obtain rfl := Except.ok.inj given
      exact ⟨method, rfl, (method.kind_determination _).symm⟩

/-- A few items that each weigh a small part of a bound weigh less than the bound together. -/
theorem sum_weights_lt {ι : Type} {items : List ι} {weight : ι → Nat} {limit bound : Nat}
    (few : items.length ≤ limit) (light : ∀ item ∈ items, (limit + 1) * weight item ≤ bound)
    (positive : 0 < bound) : (items.map weight).sum < bound := by
  have total : (limit + 1) * (items.map weight).sum ≤ items.length * bound := by
    clear few
    induction items with
    | nil => simp
    | cons item rest inductionHypothesis =>
        obtain ⟨first, others⟩ := List.forall_mem_cons.mp light
        rw [List.map_cons, List.sum_cons, Nat.mul_add, List.length_cons, Nat.succ_mul rest.length,
          Nat.add_comm]
        exact Nat.add_le_add (inductionHypothesis others) first
  apply Nat.lt_of_mul_lt_mul_left (a := limit + 1)
  calc (limit + 1) * (items.map weight).sum ≤ items.length * bound := total
    _ ≤ limit * bound := Nat.mul_le_mul_right bound few
    _ < (limit + 1) * bound := Nat.mul_lt_mul_of_pos_right (Nat.lt_succ_self limit) positive

namespace Administration

variable {administration : Administration} {event : Event}

/-- What an event leads to is what its kind leads to. -/
theorem leadsTo_of_makes {update : Update} (member : update ∈ administration.reactions event)
    {determination : Determination} (makes : update.Makes determination) :
    administration.registry.catalog.LeadsTo event.kind determination.kind := by
  obtain ⟨⟨rule, declaration⟩, matched, isUpdate⟩ := List.mem_flatMap.mp member
  obtain ⟨isRule, isDeclaration, isMatch⟩ := Catalog.mem_matching.mp matched
  obtain ⟨hasAggregate, hasPattern⟩ := (Bool.and_eq_true _ _).mp isMatch
  obtain ⟨pattern, isPattern, fits⟩ := List.any_eq_true.mp hasPattern
  obtain ⟨sameType, _⟩ := (Bool.and_eq_true _ _).mp fits
  exact ⟨rule, isRule, declaration, isDeclaration, bne_iff_ne.mp hasAggregate,
    ⟨pattern, isPattern, beq_iff_eq.mp sameType⟩, update, isUpdate, makes.method⟩

/-- Only declared updates react. -/
theorem length_reactions_le (administration : Administration) (event : Event) :
    (administration.reactions event).length ≤ administration.declaredUpdates := by
  unfold reactions updatesOf Catalog.matching declaredUpdates
  rw [List.flatMap_assoc]
  refine List.Sublist.length_le (List.Sublist.flatMap_right _ fun rule _ => ?_)
  rw [List.flatMap_map]
  exact List.filter_sublist.flatMap _

/-- The events that the handling of an event adds are no more than there are updates, and of kinds
that its own kind leads to. -/
theorem addedEvents_leadsTo (numbered : administration.cases.Numbered) (event : Event) :
    (addedEvents administration (handle event administration)).length ≤
        administration.declaredUpdates ∧
      ∀ added ∈ addedEvents administration (handle event administration),
        administration.registry.catalog.LeadsTo event.kind added.kind := by
  obtain ⟨determinations, determines, applied, _⟩ := handle_determines numbered event
  rw [addedEvents_eq determines]
  constructor
  · rw [List.length_map]
    exact applied.length_le.trans (administration.length_reactions_le event)
  · intro added member
    obtain ⟨determination, isMade, rfl⟩ := List.mem_map.mp member
    obtain ⟨update, isReaction, makes⟩ := applied.exists_makes isMade
    exact leadsTo_of_makes isReaction makes

/-- What an event can still lead to: more than all events together that its handling may add. -/
noncomputable def weight (administration : Administration) (event : Event) : Nat :=
  (administration.declaredUpdates + 1) ^ administration.registry.catalog.rank event.kind

theorem weight_handle (numbered : administration.cases.Numbered) (event : Event) :
    (handle event administration).weight = administration.weight := by
  obtain ⟨_, _, _, sameRegistry, _⟩ := handle_determines numbered event
  funext other
  rw [weight, weight, declaredUpdates, declaredUpdates, sameRegistry]

theorem sum_weight_addedEvents_lt (numbered : administration.cases.Numbered)
    (acyclic : administration.registry.catalog.Acyclic) (event : Event) :
    ((addedEvents administration (handle event administration)).map administration.weight).sum <
      administration.weight event := by
  obtain ⟨few, follow⟩ := addedEvents_leadsTo numbered event
  refine sum_weights_lt few (fun added isAdded => ?_) (Nat.pow_pos (Nat.succ_pos _))
  rw [weight, ← Nat.pow_succ']
  exact Nat.pow_le_pow_right (Nat.succ_pos _) (acyclic.rank_lt (follow added isAdded))

end Administration

namespace Backlog

variable {backlog : Backlog} {event : Event} {others : List Event}

/-- What the waiting events can still lead to. -/
noncomputable def potential (backlog : Backlog) : Nat :=
  (backlog.waiting.map backlog.administration.weight).sum

theorem next_nil (isEmpty : backlog.waiting = []) : backlog.next = backlog := by
  rw [next, isEmpty]

theorem next_cons (waiting : backlog.waiting = event :: others) :
    backlog.next = backlog.hand event others := by
  rw [next, waiting]

theorem next_numbered (numbered : backlog.administration.cases.Numbered) :
    backlog.next.administration.cases.Numbered := by
  unfold next
  split
  · exact numbered
  · exact Administration.handle_numbered numbered _

/-- What waits weighs less after each event that is handed over. -/
theorem potential_next (numbered : backlog.administration.cases.Numbered)
    (acyclic : backlog.administration.registry.catalog.Acyclic)
    (waiting : backlog.waiting = event :: others) : backlog.next.potential < backlog.potential := by
  have lighter := Administration.sum_weight_addedEvents_lt numbered acyclic event
  rw [next_cons waiting, potential, potential, hand, waiting]
  dsimp only
  rw [Administration.weight_handle numbered, List.map_append, List.sum_append, List.map_cons,
    List.sum_cons]
  omega

/-- A backlog that was worked through for a while. Every event that waited at first or was recorded
since was handed over once or waits still, in the order of the recording. -/
structure Continues (administration : Administration) (waiting : List Event) (backlog : Backlog) :
    Prop where
  numbered : backlog.administration.cases.Numbered
  registry : backlog.administration.registry = administration.registry
  log : backlog.administration.cases.events = administration.cases.events ++
    Administration.addedEvents administration backlog.administration
  order : backlog.handed.map Prod.fst ++ backlog.waiting =
    waiting ++ Administration.addedEvents administration backlog.administration
  counted : backlog.administration.handled = administration.handled + backlog.handed.length

theorem Continues.start {administration : Administration}
    (numbered : administration.cases.Numbered) (waiting : List Event) :
    Continues administration waiting ⟨administration, waiting, []⟩ := by
  have nothing : Administration.addedEvents administration administration = [] :=
    List.drop_length
  exact ⟨numbered, rfl, by rw [nothing, List.append_nil], by rw [nothing, List.append_nil]; rfl, rfl⟩

/-- One event is handed over, and those that its handling adds wait behind the others. -/
theorem Continues.next {administration : Administration} {waiting : List Event}
    (continues : Continues administration waiting backlog) :
    Continues administration waiting backlog.next := by
  cases waits : backlog.waiting with
  | nil =>
      rw [next_nil waits]
      exact continues
  | cons event others =>
      obtain ⟨determinations, determines, _, registry, counted⟩ :=
        Administration.handle_determines continues.numbered event
      have before := continues.log
      have added := Administration.addedEvents_eq determines
      have now : Administration.addedEvents administration
            (Administration.handle event backlog.administration) =
          Administration.addedEvents administration backlog.administration ++
            determinations.map (Determination.event event.case) := by
        rw [Administration.addedEvents, determines.events, before, List.append_assoc, List.drop_left]
      rw [next_cons waits]
      constructor
      · exact Administration.handle_numbered continues.numbered event
      · exact registry.trans continues.registry
      · rw [hand]
        dsimp only
        rw [now, determines.events, before, List.append_assoc]
      · have order := continues.order
        rw [waits] at order
        rw [hand]
        dsimp only
        rw [now, added, ← List.append_assoc waiting, ← order]
        simp
      · rw [hand]
        dsimp only
        rw [counted, continues.counted, List.length_append]
        rfl

theorem Continues.iterate {administration : Administration} {waiting : List Event}
    (continues : Continues administration waiting backlog) (steps : Nat) :
    Continues administration waiting (Backlog.next^[steps] backlog) := by
  induction steps generalizing backlog with
  | zero => exact continues
  | succ steps inductionHypothesis => exact inductionHypothesis continues.next

/-- Nothing happens once nothing waits. -/
theorem iterate_next_nil (isEmpty : backlog.waiting = []) (steps : Nat) :
    Backlog.next^[steps] backlog = backlog := by
  induction steps with
  | zero => rfl
  | succ steps inductionHypothesis =>
      rw [Function.iterate_succ_apply, next_nil isEmpty, inductionHypothesis]

/-- What waits is worked off in as many steps as it weighs. -/
theorem exists_drained (numbered : backlog.administration.cases.Numbered)
    (acyclic : backlog.administration.registry.catalog.Acyclic) :
    ∃ steps, steps ≤ backlog.potential ∧ (Backlog.next^[steps] backlog).waiting = [] ∧
      (Backlog.next^[steps] backlog).handed.length = backlog.handed.length + steps := by
  induction weighs : backlog.potential using Nat.strong_induction_on generalizing backlog with
  | _ potential inductionHypothesis =>
      cases waits : backlog.waiting with
      | nil => exact ⟨0, Nat.zero_le _, waits, rfl⟩
      | cons event others =>
          have lighter := potential_next numbered acyclic waits
          have further : backlog.next.administration.registry.catalog.Acyclic := by
            obtain ⟨_, _, _, sameRegistry, _⟩ := Administration.handle_determines numbered event
            rw [next_cons waits, hand]
            dsimp only
            rw [sameRegistry]
            exact acyclic
          obtain ⟨steps, bounded, isEmpty, counted⟩ := inductionHypothesis backlog.next.potential
            (weighs ▸ lighter) (next_numbered numbered) further rfl
          refine ⟨steps + 1, by omega, ?_, ?_⟩
          · rw [Function.iterate_succ_apply]
            exact isEmpty
          · rw [Function.iterate_succ_apply, counted, next_cons waits, hand]
            dsimp only
            rw [List.length_append, List.length_singleton, Nat.add_assoc, Nat.add_comm 1]

/-- Few kinds of events can follow each other, so the weight of what waits is bounded. -/
theorem potential_le (backlog : Backlog) :
    backlog.potential ≤
      backlog.waiting.length * (backlog.administration.declaredUpdates + 1) ^ 3 := by
  unfold potential
  induction backlog.waiting with
  | nil => exact Nat.zero_le _
  | cons event others inductionHypothesis =>
      have light : backlog.administration.weight event ≤
          (backlog.administration.declaredUpdates + 1) ^ 3 :=
        Nat.pow_le_pow_right (Nat.succ_pos _) (Catalog.rank_le _ _)
      rw [List.map_cons, List.sum_cons, List.length_cons, Nat.succ_mul, Nat.add_comm]
      exact Nat.add_le_add inductionHypothesis light

/-- Pending events stay those that wait. -/
theorem pending_next (numbered : backlog.administration.cases.Numbered)
    (pending : backlog.waiting = backlog.administration.pending) :
    backlog.next.waiting = backlog.next.administration.pending := by
  cases waiting : backlog.waiting with
  | nil =>
      rw [next_nil waiting]
      exact pending
  | cons event others =>
      obtain ⟨determinations, determines, _, _, handled⟩ :=
        Administration.handle_determines numbered event
      have isDrop : backlog.administration.cases.events.drop backlog.administration.handled =
          event :: others := pending.symm.trans waiting
      have room : backlog.administration.handled < backlog.administration.cases.events.length := by
        by_contra full
        rw [List.drop_eq_nil_of_le (Nat.not_lt.mp full)] at isDrop
        cases isDrop
      have rest : backlog.administration.cases.events.drop (backlog.administration.handled + 1) =
          others := by
        rw [← List.tail_drop, isDrop, List.tail_cons]
      rw [next_cons waiting, hand]
      dsimp only
      rw [Administration.pending, handled, determines.events,
        Administration.addedEvents_eq determines, List.drop_append_of_le_length room, rest]

theorem pending_iterate (numbered : backlog.administration.cases.Numbered)
    (pending : backlog.waiting = backlog.administration.pending) (steps : Nat) :
    (Backlog.next^[steps] backlog).waiting =
      (Backlog.next^[steps] backlog).administration.pending := by
  induction steps generalizing backlog with
  | zero => exact pending
  | succ steps inductionHypothesis =>
      exact inductionHypothesis (next_numbered numbered) (pending_next numbered pending)

/-- The trigger works through the events that it has not handled yet. -/
theorem drain_eq_next (fuel : Nat) (numbered : backlog.administration.cases.Numbered)
    (pending : backlog.waiting = backlog.administration.pending) :
    Administration.drain fuel backlog.administration =
      (Backlog.next^[fuel] backlog).administration := by
  induction fuel generalizing backlog with
  | zero => rfl
  | succ fuel inductionHypothesis =>
      rw [Administration.drain, ← pending]
      cases waiting : backlog.waiting with
      | nil => rw [iterate_next_nil waiting]
      | cons event others =>
          have further := inductionHypothesis (next_numbered numbered)
            (pending_next numbered pending)
          rw [Function.iterate_succ_apply, ← further, next_cons waiting]
          rfl

/-- Further steps make no difference once nothing waits. -/
theorem iterate_next_of_le {few many : Nat} (le : few ≤ many)
    (isEmpty : (Backlog.next^[few] backlog).waiting = []) :
    Backlog.next^[many] backlog = Backlog.next^[few] backlog := by
  obtain ⟨more, rfl⟩ := Nat.exists_eq_add_of_le le
  rw [Nat.add_comm, Function.iterate_add_apply, iterate_next_nil isEmpty]

end Backlog

namespace Administration

/-- The trigger allows for more steps than what waits can need. -/
theorem le_drainLimit (administration : Administration) :
    administration.pending.length * (administration.declaredUpdates + 1) ^ 3 ≤
      administration.drainLimit :=
  (Nat.mul_le_mul_left _ (Nat.pow_le_pow_right (Nat.succ_pos _) (by decide))).trans
    (Nat.le_add_right _ _)

/-- Where no kind of event leads back to itself, the trigger comes to an end, whatever rules compute
and however often they fail. Worked through in the order of recording, with the events that are
recorded meanwhile at the end, a backlog is empty after a bounded number of steps. Each event that
waited at first or was recorded since was then handed to the rules once, in that order, and counted
as processed or failed. So all recorded events are counted if the backlog held all that were not, and
the trigger itself leaves nothing pending. -/
theorem queue_drains {administration : Administration} (reachable : administration.Reachable)
    (acyclic : administration.registry.catalog.Acyclic) (waiting : List Event) :
    ∃ steps, steps ≤ waiting.length * (administration.declaredUpdates + 1) ^ 3 ∧
      let final := Backlog.next^[steps] ⟨administration, waiting, []⟩
      final.waiting = [] ∧ final.handed.length = steps ∧
      final.handed.map Prod.fst = waiting ++ addedEvents administration final.administration ∧
      final.administration.processed + final.administration.failed =
        administration.processed + administration.failed + steps ∧
      (administration.handled + waiting.length = administration.cases.events.length →
        final.administration.processed + final.administration.failed =
          final.administration.cases.events.length) ∧
      (waiting = administration.pending →
        administration.settled = final.administration ∧ administration.settled.pending = []) := by
  let start : Backlog := ⟨administration, waiting, []⟩
  have numbered : start.administration.cases.Numbered := reachable.numbered
  obtain ⟨steps, bounded, isEmpty, counted⟩ := Backlog.exists_drained numbered acyclic
  have continues := (Backlog.Continues.start reachable.numbered waiting).iterate steps
  have order := continues.order
  rw [isEmpty, List.append_nil] at order
  have handedLength : (Backlog.next^[steps] start).handed.length = steps :=
    counted.trans (Nat.zero_add steps)
  have handledNow := continues.counted
  rw [handedLength] at handledNow
  refine ⟨steps, bounded.trans start.potential_le, isEmpty, handedLength, order, handledNow,
    fun complete => ?_, fun isPending => ?_⟩
  · have handedAll := congrArg List.length order
    have recordedAll := congrArg List.length continues.log
    rw [List.length_map, handedLength, List.length_append] at handedAll
    rw [List.length_append] at recordedAll
    exact handledNow.trans (by omega)
  · have settled : administration.settled = (Backlog.next^[steps] start).administration := by
      have limit := administration.le_drainLimit
      rw [← isPending] at limit
      have enough : steps ≤ administration.drainLimit :=
        (bounded.trans start.potential_le).trans limit
      rw [← Backlog.iterate_next_of_le enough isEmpty]
      exact Backlog.drain_eq_next administration.drainLimit numbered isPending
    refine ⟨settled, ?_⟩
    rw [settled, ← Backlog.pending_iterate numbered isPending, isEmpty]

/-- A submission leads to a determination about objection, and nothing else leads to anything. -/
theorem leadsTo_objectionOffice {kind next : EventKind}
    (leads : objectionOffice.registry.catalog.LeadsTo kind next) :
    kind = .submitted ∧ next = .objectionStatusDetermined := by
  obtain ⟨rule, isRule, declaration, isDeclaration, _, ⟨pattern, isPattern, sameType⟩, update,
    isUpdate, method, parsed, records⟩ := leads
  rw [catalog_objectionOffice] at isRule
  obtain rfl : declaration = objectionDeclaration := by
    obtain rfl | rfl : rule = formerVersion ∨ rule = presentVersion := by
      simpa [Catalog.rules] using isRule
    · exact List.mem_singleton.mp isDeclaration
    · cases isDeclaration
  obtain rfl : pattern = ⟨"Submitted", []⟩ := List.mem_singleton.mp isPattern
  obtain rfl := List.mem_singleton.mp isUpdate
  constructor
  · revert sameType
    cases kind <;> decide +kernel
  · cases parsed
    exact records.symm

theorem acyclic_objectionOffice : objectionOffice.registry.catalog.Acyclic := by
  intro kind cycle
  obtain ⟨next, leads, _⟩ := Relation.TransGen.head'_iff.mp cycle
  obtain ⟨before, _, leadsBack⟩ := Relation.TransGen.tail'_iff.mp cycle
  have isSubmitted := (leadsTo_objectionOffice leads).1
  have isDetermined := (leadsTo_objectionOffice leadsBack).2
  rw [isSubmitted] at isDetermined
  cases isDetermined

theorem queue_drains_objectionOffice :
    objectionOffice.Reachable ∧ objectionOffice.registry.catalog.Acyclic ∧
      ∃ steps, steps ≤ objectionOffice.pending.length * (objectionOffice.declaredUpdates + 1) ^ 3 ∧
        let final := Backlog.next^[steps] ⟨objectionOffice, objectionOffice.pending, []⟩
        final.waiting = [] ∧
        final.handed.map Prod.fst =
          objectionOffice.pending ++ addedEvents objectionOffice final.administration ∧
        objectionOffice.settled = final.administration := by
  have reachable : objectionOffice.Reachable := ⟨_, _, _, _, _, rfl⟩
  obtain ⟨steps, bounded, isEmpty, _, order, _, _, settles⟩ :=
    queue_drains reachable acyclic_objectionOffice objectionOffice.pending
  exact ⟨reachable, acyclic_objectionOffice, steps, bounded, isEmpty, order, (settles rfl).1⟩

end Administration

end Statute
