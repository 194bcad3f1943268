/-
This file proves which output a circular dependency names, and when this output is on a cycle itself.
-/

import Statute.Proofs.Rule.ExecutionOrder

namespace Statute

namespace ActionOrder

section Cycles

variable {α : Type} {needs : α → α → Prop} {place : α}

/-- A place leads to a cycle when it comes, in any number of steps, to one that comes back to itself. -/
def LeadsToCycle (needs : α → α → Prop) (place : α) : Prop :=
  ∃ other, Relation.ReflTransGen needs place other ∧ Relation.TransGen needs other other

theorem LeadsToCycle.of_cycle (cycle : Relation.TransGen needs place place) :
    LeadsToCycle needs place :=
  ⟨place, .refl, cycle⟩

/-- What leads to a cycle needs something that does so as well. -/
theorem LeadsToCycle.next (leads : LeadsToCycle needs place) :
    ∃ other, needs place other ∧ LeadsToCycle needs other := by
  obtain ⟨last, path, cycle⟩ := leads
  rcases path.cases_head with rfl | ⟨other, direct, rest⟩
  · obtain ⟨other, direct, back⟩ := Relation.TransGen.head'_iff.mp cycle
    exact ⟨other, direct, place, back, cycle⟩
  · exact ⟨other, direct, last, rest, cycle⟩

/-- Each of finitely many places that depend on each other without an end leads to a cycle. -/
theorem leadsToCycle_of_stuck {graph : Graph} {left : List Nat} {index : Nat} (member : index ∈ left)
    (stuck : ∀ place ∈ left, ∃ other ∈ left, Depends graph place other) :
    LeadsToCycle (Depends graph) index := by
  classical
  -- The places that the given one leads to depend on each other without an end as well.
  let behind := left.filter (Relation.ReflTransGen (Depends graph) index)
  have mem_behind {place : Nat} :
      place ∈ behind ↔ place ∈ left ∧ Relation.ReflTransGen (Depends graph) index place := by
    simp [behind]
  have stuckBehind : ∀ place ∈ behind, ∃ other ∈ behind, Depends graph place other := by
    intro place isBehind
    obtain ⟨isLeft, path⟩ := mem_behind.mp isBehind
    obtain ⟨other, otherLeft, depends⟩ := stuck place isLeft
    exact ⟨other, mem_behind.mpr ⟨otherLeft, path.tail depends⟩, depends⟩
  obtain ⟨last, isBehind, cycle⟩ := exists_cycle (mem_behind.mpr ⟨member, .refl⟩) stuckBehind
  exact ⟨last, (mem_behind.mp isBehind).2, cycle⟩

end Cycles

section Remainders

variable {graph : Graph} {needed : List Nat} {waiting next : List Waiting}

/-- What the places of a set depend on is in the set. -/
def IsComplete (graph : Graph) (needed : List Nat) : Prop :=
  ∀ place ∈ needed, ∀ other, Depends graph place other → other ∈ needed

/-- What some rounds leave of the needed places. Whatever leads to a cycle still waits. -/
structure IsRemainder (graph : Graph) (needed : List Nat) (waiting : List Waiting) : Prop where
  counted : Counted graph waiting
  ascending : (waitingPlaces waiting).Pairwise (· < ·)
  within : waitingPlaces waiting ⊆ needed
  cyclic : ∀ place ∈ needed, LeadsToCycle (Depends graph) place → place ∈ waitingPlaces waiting

theorem isRemainder_waitingFor (ascending : needed.Pairwise (· < ·)) :
    IsRemainder graph needed (waitingFor graph needed) := by
  have waits := waitingPlaces_waitingFor graph needed
  have distinct : needed.Nodup := ascending.imp Nat.ne_of_lt
  refine ⟨counted_waitingFor distinct, ?_, ?_, ?_⟩
  · rwa [waits]
  · rw [waits]
    exact List.Subset.refl needed
  · intro place isNeeded _
    rwa [waits]

/-- A place without unmet dependencies leads to no cycle, since something that it depends on would
still wait. -/
theorem IsRemainder.next?_not_leads (complete : IsComplete graph needed)
    (remainder : IsRemainder graph needed waiting) {ready : Waiting}
    (found : next? waiting = some ready) :
    ¬ LeadsToCycle (Depends graph) ready.index := by
  intro leads
  have member := mem_of_next? found
  have isNeeded := remainder.within (List.mem_map_of_mem member)
  have isReady := (remainder.counted.ready_iff member).mp (by simpa using List.find?_some found)
  obtain ⟨other, depends, leadsOn⟩ := leads.next
  exact isReady other depends
    (remainder.cyclic other (complete _ isNeeded other depends) leadsOn)

theorem IsRemainder.round (simple : IsSimple graph) (complete : IsComplete graph needed)
    (remainder : IsRemainder graph needed waiting) (round : Round graph waiting next) :
    IsRemainder graph needed next := by
  obtain ⟨ready, found, rfl⟩ := round
  refine ⟨?_, ?_, ?_, ?_⟩
  · exact remainder.counted.release simple (List.mem_map_of_mem (mem_of_next? found))
  · rw [waitingPlaces_release]
    exact remainder.ascending.filter _
  · intro place waits
    exact remainder.within (mem_waitingPlaces_release.mp waits).1
  · intro place isNeeded leads
    refine mem_waitingPlaces_release.mpr ⟨remainder.cyclic place isNeeded leads, ?_⟩
    rintro rfl
    exact remainder.next?_not_leads complete found leads

theorem IsRemainder.rounds (simple : IsSimple graph) (complete : IsComplete graph needed)
    (remainder : IsRemainder graph needed waiting)
    (rounds : Relation.ReflTransGen (Round graph) waiting next) : IsRemainder graph needed next := by
  induction rounds with
  | refl => exact remainder
  | tail _ round stillRemainder => exact stillRemainder.round simple complete round

/-- In a remainder where nothing can come next, exactly what leads to a cycle waits. -/
theorem IsRemainder.waits_iff (remainder : IsRemainder graph needed waiting)
    (nothing : next? waiting = none) {place : Nat} :
    place ∈ waitingPlaces waiting ↔ place ∈ needed ∧ LeadsToCycle (Depends graph) place := by
  constructor
  · intro waits
    exact ⟨remainder.within waits,
      leadsToCycle_of_stuck waits (remainder.counted.stuck nothing)⟩
  · rintro ⟨isNeeded, leads⟩
    exact remainder.cyclic place isNeeded leads

/-- A drain that fails has come to waiting places of which none can come next, and names the first. -/
theorem exists_stuck_of_drain {steps index : Nat} (drained : drain graph steps waiting = .error index) :
    ∃ first rest, Relation.ReflTransGen (Round graph) waiting (first :: rest) ∧
      next? (first :: rest) = none ∧ first.index = index := by
  induction steps generalizing waiting with
  | zero => cases drained
  | succ steps inductionHypothesis =>
      cases waiting with
      | nil => cases drained
      | cons first rest =>
          cases found : next? (first :: rest) with
          | none =>
              rw [drain_stuck found] at drained
              exact ⟨first, rest, .refl, found, Except.error.inj drained⟩
          | some ready =>
              rw [drain_round found] at drained
              cases later : drain graph steps (release graph ready.index (first :: rest)) with
              | ok order =>
                  rw [later] at drained
                  cases drained
              | error named =>
                  rw [later] at drained
                  obtain rfl : named = index := Except.error.inj drained
                  obtain ⟨last, others, rounds, stuck⟩ := inductionHypothesis later
                  exact ⟨last, others, .head ⟨ready, found, rfl⟩ rounds, stuck⟩

end Remainders

section Reports

variable {actions : List Action} {start place : Nat} {output named : String}

/-- Among the places that the action at a place needs, the first one that leads to a cycle. -/
structure IsFirstToCycle (actions : List Action) (start place : Nat) : Prop where
  needed : Relation.ReflTransGen (Requires actions) start place
  leads : LeadsToCycle (Requires actions) place
  least : ∀ other, Relation.ReflTransGen (Requires actions) start other →
    LeadsToCycle (Requires actions) other → place ≤ other

theorem IsFirstToCycle.unique {other : Nat} (first : IsFirstToCycle actions start place)
    (second : IsFirstToCycle actions start other) : place = other :=
  Nat.le_antisymm (first.least other second.needed second.leads)
    (second.least place first.needed first.leads)

theorem isComplete_reachable (stands : StandsFor actions start output) :
    IsComplete (graph actions) (reachable (graph actions) start) := by
  intro place isNeeded other depends
  rw [mem_reachable_iff stands, ← depends_eq_requires] at isNeeded ⊢
  exact isNeeded.tail depends

/-- The drain for an output fails at the first needed place that leads to a cycle. -/
theorem isFirstToCycle_of_drain (stands : StandsFor actions start output) {index : Nat}
    (drained : drain (graph actions) (reachable (graph actions) start).length
      (waitingFor (graph actions) (reachable (graph actions) start)) = .error index) :
    IsFirstToCycle actions start index := by
  obtain ⟨first, rest, rounds, nothing, rfl⟩ := exists_stuck_of_drain drained
  have remainder := (isRemainder_waitingFor (reachable_ascending _ _)).rounds
    (isSimple_graph actions) (isComplete_reachable stands) rounds
  have waits_iff (place : Nat) : place ∈ waitingPlaces (first :: rest) ↔
      Relation.ReflTransGen (Requires actions) start place ∧
        LeadsToCycle (Requires actions) place := by
    rw [remainder.waits_iff nothing, mem_reachable_iff stands, depends_eq_requires]
  obtain ⟨needed, leads⟩ := (waits_iff first.index).mp List.mem_cons_self
  refine ⟨needed, leads, fun other otherNeeded otherLeads => ?_⟩
  rcases List.mem_cons.mp ((waits_iff other).mpr ⟨otherNeeded, otherLeads⟩) with rfl | later
  · exact Nat.le_refl _
  · exact Nat.le_of_lt (List.rel_of_pairwise_cons remainder.ascending later)

theorem StandsFor.unique {other : Nat} (stands : StandsFor actions place output)
    (standsOther : StandsFor actions other output) : place = other := by
  rw [← standing?_eq_some_iff] at stands standsOther
  exact Option.some.inj (stands.symm.trans standsOther)

/-- An action that is needed stands for its own output. -/
theorem standsFor_of_needed (stands : StandsFor actions start output)
    (needed : Relation.ReflTransGen (Requires actions) start place) {action : Action}
    (found : actions[place]? = some action) : StandsFor actions place action.output := by
  have standsForSome : ∃ name, StandsFor actions place name := by
    cases needed with
    | refl => exact ⟨output, stands⟩
    | tail _ requires =>
        obtain ⟨_, _, path, _, standsHere⟩ := requires
        exact ⟨pathRoot path, standsHere⟩
  obtain ⟨name, standsHere⟩ := standsForSome
  obtain ⟨same, sameFound, rfl⟩ := standsHere.produces
  rw [found] at sameFound
  cases sameFound
  exact standsHere

/-- Where the drain fails, the output of the action that it fails at is named. -/
theorem required_of_stuck (stands : StandsFor actions start output)
    (drained : drain (graph actions) (reachable (graph actions) start).length
      (waitingFor (graph actions) (reachable (graph actions) start)) = .error place) :
    ∃ action, actions[place]? = some action ∧
      required actions (some output) = .error (.circularDependency action.output) := by
  have first := isFirstToCycle_of_drain stands drained
  obtain ⟨action, found⟩ := exists_action_of_needed stands first.needed
  have answer := required_eq (standing?_eq_some_iff.mpr stands)
  rw [drained] at answer
  dsimp only at answer
  rw [found] at answer
  exact ⟨action, found, answer⟩

/-- The only error is a circular dependency. It occurs when something that the requested output needs
leads to a cycle, and names the output of the first such action. -/
theorem required_eq_error_iff {requested : Option String} {error : RuleError} :
    required actions requested = .error error ↔
      ∃ output start place action, requested = some output ∧ StandsFor actions start output ∧
        IsFirstToCycle actions start place ∧ actions[place]? = some action ∧
        error = .circularDependency action.output := by
  constructor
  · intro failed
    cases requested with
    | none =>
        rw [required_none] at failed
        cases failed
    | some output =>
        cases isStart : standing? (places actions) output with
        | none =>
            rw [required, indices, isStart] at failed
            cases failed
        | some start =>
            have stands := standing?_eq_some_iff.mp isStart
            cases drained : drain (graph actions) (reachable (graph actions) start).length
                (waitingFor (graph actions) (reachable (graph actions) start)) with
            | ok order =>
                rw [required_eq isStart, drained] at failed
                cases failed
            | error place =>
                obtain ⟨action, found, answer⟩ := required_of_stuck stands drained
                rw [answer] at failed
                exact ⟨output, start, place, action, rfl, stands,
                  isFirstToCycle_of_drain stands drained, found, (Except.error.inj failed).symm⟩
  · rintro ⟨output, start, place, action, rfl, stands, first, found, rfl⟩
    cases drained : drain (graph actions) (reachable (graph actions) start).length
        (waitingFor (graph actions) (reachable (graph actions) start)) with
    | ok order =>
        obtain ⟨last, path, cycle⟩ := first.leads
        exact absurd cycle (acyclic_of_drain stands drained (first.needed.trans path))
    | error index =>
        obtain ⟨same, sameFound, answer⟩ := required_of_stuck stands drained
        obtain rfl := first.unique (isFirstToCycle_of_drain stands drained)
        rw [found] at sameFound
        cases sameFound
        exact answer

/-- Some action for an output depends on itself, directly or through others. -/
def IsOnCycle (actions : List Action) (output : String) : Prop :=
  ∃ place action, actions[place]? = some action ∧ action.output = output ∧
    Relation.TransGen (Requires actions) place place

/-- Only the action that stands for an output can be on a cycle, since no other is depended on. -/
theorem isOnCycle_iff (stands : StandsFor actions place output) :
    IsOnCycle actions output ↔ Relation.TransGen (Requires actions) place place := by
  constructor
  · rintro ⟨other, action, found, rfl, cycle⟩
    obtain ⟨_, _, requires⟩ := Relation.TransGen.tail'_iff.mp cycle
    obtain ⟨_, _, path, _, standsOther⟩ := requires
    obtain ⟨same, sameFound, isRoot⟩ := standsOther.produces
    rw [found] at sameFound
    cases sameFound
    rw [← isRoot] at standsOther
    rwa [stands.unique standsOther]
  · intro cycle
    obtain ⟨action, found, isOutput⟩ := stands.produces
    exact ⟨place, action, found, isOutput, cycle⟩

/-- A place is on a cycle when it can be reached from something that it depends on. -/
theorem cycle_iff_reachable : Relation.TransGen (Requires actions) place place ↔
    ∃ other ∈ dependencies (graph actions) place, place ∈ reachable (graph actions) other := by
  rw [Relation.TransGen.head'_iff, ← depends_eq_requires]
  refine exists_congr fun other => and_congr_right fun depends => ?_
  rw [mem_reachable (isBounded_graph actions) (isBounded_graph actions place other depends)]

/-- A circular dependency names an output that leads to a cycle: the first one in the order of the
actions, among all that the requested output needs. This output is on a cycle itself exactly when, of
the needed actions that lead to a cycle, none comes before all that are on one. -/
theorem circularDependency_names {requested : Option String}
    (failed : required actions requested = .error (.circularDependency named)) :
    ∃ output start place, requested = some output ∧ StandsFor actions start output ∧
      StandsFor actions place named ∧ IsFirstToCycle actions start place ∧
      (IsOnCycle actions named ↔
        ∀ other, Relation.ReflTransGen (Requires actions) start other →
          LeadsToCycle (Requires actions) other →
          ∃ cyclic ≤ other, Relation.ReflTransGen (Requires actions) start cyclic ∧
            Relation.TransGen (Requires actions) cyclic cyclic) := by
  obtain ⟨output, start, place, action, rfl, stands, first, found, isNamed⟩ :=
    required_eq_error_iff.mp failed
  obtain rfl := RuleError.circularDependency.inj isNamed
  have standsNamed := standsFor_of_needed stands first.needed found
  refine ⟨output, start, place, rfl, stands, standsNamed, first, ?_⟩
  rw [isOnCycle_iff standsNamed]
  constructor
  · intro cycle other needed leads
    exact ⟨place, first.least other needed leads, first.needed, cycle⟩
  · intro cyclicBefore
    obtain ⟨cyclic, before, needed, cycle⟩ := cyclicBefore place first.needed first.leads
    have behind := first.least cyclic needed (.of_cycle cycle)
    rwa [Nat.le_antisymm behind before]

/-- The income and the net income need each other, and the allowance needs both. An earlier action for
the income needs nothing, but the later one stands for it. -/
def allowanceActions : List Action :=
  [⟨"income", some (.literal (.int 1200)), none⟩,
    ⟨"net", some (.literal (.string "$income.taxable")), none⟩,
    ⟨"income", some (.literal (.string "$net")), none⟩,
    ⟨"allowance", some (.list [.literal (.string "$income"), .literal (.string "$bonus")]), none⟩,
    ⟨"bonus", some (.literal (.int 5)), none⟩]

theorem circularDependency_names_income :
    required allowanceActions (some "allowance") = .error (.circularDependency "net") ∧
      IsFirstToCycle allowanceActions 3 1 ∧ IsOnCycle allowanceActions "net" := by
  have failed : required allowanceActions (some "allowance") =
      .error (.circularDependency "net") := rfl
  obtain ⟨_, start, place, isRequested, stands, standsNamed, first, onCycle_iff⟩ :=
    circularDependency_names failed
  obtain rfl := Option.some.inj isRequested
  obtain rfl : start = 3 := stands.unique (standing?_eq_some_iff.mp (by decide +kernel))
  obtain rfl : place = 1 := standsNamed.unique (standing?_eq_some_iff.mp (by decide +kernel))
  refine ⟨failed, first, onCycle_iff.mpr fun other needed leads => ?_⟩
  exact ⟨1, first.least other needed leads, first.needed, cycle_iff_reachable.mpr (by decide +kernel)⟩

/-- The total needs the base, and only the base needs itself. -/
def totalActions : List Action :=
  [⟨"total", some (.literal (.string "$base")), none⟩,
    ⟨"base", some (.literal (.string "$base")), none⟩]

/-- A circular dependency can name an output that is on no cycle, here the total. -/
theorem circularDependency_misses_cycle :
    required totalActions (some "total") = .error (.circularDependency "total") ∧
      ¬ IsOnCycle totalActions "total" ∧ IsOnCycle totalActions "base" := by
  have total : StandsFor totalActions 0 "total" := standing?_eq_some_iff.mp (by decide +kernel)
  have base : StandsFor totalActions 1 "base" := standing?_eq_some_iff.mp (by decide +kernel)
  refine ⟨rfl, ?_, ?_⟩
  · rw [isOnCycle_iff total, cycle_iff_reachable]
    decide +kernel
  · rw [isOnCycle_iff base, cycle_iff_reachable]
    decide +kernel

end Reports

end ActionOrder

end Statute
