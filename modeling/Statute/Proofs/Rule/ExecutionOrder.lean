/-
This file proves which order the actions for an output are put in, and that the rounds which find it
end, with counts that never go down from zero.
-/

import Statute.Proofs.Rule.ActionOrder

namespace Statute

namespace ActionOrder

section Places

variable {actions : List Action}

/-- The action at a place stands for an output when it produces it and no later action does. -/
structure StandsFor (actions : List Action) (place : Nat) (output : String) : Prop where
  produces : ∃ action, actions[place]? = some action ∧ action.output = output
  isLast : ∀ later action, place < later → actions[later]? = some action → action.output ≠ output

/-- The action at a place mentions an output that the action at another place stands for. -/
def Requires (actions : List Action) (place other : Nat) : Prop :=
  ∃ action, actions[place]? = some action ∧
    ∃ path ∈ action.references, StandsFor actions other (pathRoot path)

theorem places_descending (actions : List Action) :
    (places actions).Pairwise fun earlier later => later.2 < earlier.2 := by
  rw [places, List.pairwise_reverse, ← List.pairwise_map, List.zipIdx_map_snd]
  exact List.pairwise_lt_range'

theorem standing?_eq_some_iff {output : String} {place : Nat} :
    standing? (places actions) output = some place ↔ StandsFor actions place output := by
  have isLast {other : Nat} (stands : standing? (places actions) output = some other) (later : Nat)
      (action : Action) (after : other < later) (found : actions[later]? = some action) :
      action.output ≠ output := by
    rw [standing?, List.lookup_eq_some_iff] at stands
    obtain ⟨front, back, split, differ⟩ := stands
    -- The places descend: in front of the one that is found stand all later actions.
    rintro rfl
    have listed : (action.output, later) ∈ places actions := mem_places.mpr ⟨action, found, rfl⟩
    have descending := places_descending actions
    rw [split] at listed descending
    rcases List.mem_append.mp listed with inFront | inBack
    · simpa using differ _ inFront
    · rcases List.mem_cons.mp inBack with same | further
      · cases same
        exact Nat.lt_irrefl _ after
      · have before := List.rel_of_pairwise_cons (List.pairwise_append.mp descending).2.1 further
        exact Nat.lt_asymm after before
  refine ⟨fun stands => ⟨standing?_some stands, isLast stands⟩, fun stands => ?_⟩
  obtain ⟨action, found, rfl⟩ := stands.produces
  obtain ⟨other, standsOther⟩ := standing?_isSome (List.mem_of_getElem? found)
  obtain ⟨twin, twinFound, same⟩ := standing?_some standsOther
  rcases Nat.lt_trichotomy place other with before | rfl | behind
  · exact absurd same (stands.isLast other twin before twinFound)
  · exact standsOther
  · exact absurd rfl (isLast standsOther place action behind found)

/-- The places of the graph depend on each other as their actions mention outputs. -/
theorem depends_eq_requires (actions : List Action) : Depends (graph actions) = Requires actions := by
  funext place other
  simp only [depends_graph, standing?_eq_some_iff, Requires]

/-- The action for an output and all that it needs are among the actions. -/
theorem exists_action_of_needed {start place : Nat} {output : String}
    (stands : StandsFor actions start output)
    (needed : Relation.ReflTransGen (Requires actions) start place) :
    ∃ action, actions[place]? = some action := by
  cases needed with
  | refl =>
      obtain ⟨action, found, _⟩ := stands.produces
      exact ⟨action, found⟩
  | tail _ requires =>
      obtain ⟨_, _, _, _, standsOther⟩ := requires
      obtain ⟨action, found, _⟩ := standsOther.produces
      exact ⟨action, found⟩

end Places

section Rounds

variable {graph : Graph} {waiting next : List Waiting} {ready : Waiting}

/-- The waiting place that comes next is the first one without unmet dependencies. -/
def next? (waiting : List Waiting) : Option Waiting :=
  waiting.find? fun place => place.unmet == 0

/-- A round takes the place that comes next away from the waiting ones. -/
def Round (graph : Graph) (waiting next : List Waiting) : Prop :=
  ∃ ready, next? waiting = some ready ∧ next = release graph ready.index waiting

theorem mem_of_next? (found : next? waiting = some ready) : ready ∈ waiting :=
  List.mem_of_find?_eq_some found

/-- The drain is a sequence of rounds. -/
theorem drain_round {steps : Nat} (found : next? waiting = some ready) :
    drain graph (steps + 1) waiting =
      (drain graph steps (release graph ready.index waiting)).map (ready.index :: ·) := by
  cases waiting with
  | nil => cases found
  | cons first rest =>
      rw [next?] at found
      rw [drain, found]

theorem drain_stuck {steps : Nat} {first : Waiting} {rest : List Waiting}
    (nothing : next? (first :: rest) = none) :
    drain graph (steps + 1) (first :: rest) = .error first.index := by
  rw [next?] at nothing
  rw [drain, nothing]

/-- Each round leaves fewer places waiting. -/
theorem length_release_lt (found : next? waiting = some ready) :
    (release graph ready.index waiting).length < waiting.length := by
  rw [release, List.length_map]
  exact List.length_filter_lt_length_iff_exists.mpr ⟨ready, mem_of_next? found, by simp⟩

/-- The drain ends by itself, so more steps than there are waiting places make no difference. -/
theorem drain_of_enough {steps more : Nat} (enough : waiting.length ≤ steps)
    (alsoEnough : waiting.length ≤ more) : drain graph steps waiting = drain graph more waiting := by
  induction steps generalizing waiting more with
  | zero =>
      obtain rfl : waiting = [] := List.eq_nil_of_length_eq_zero (Nat.le_zero.mp enough)
      cases more <;> rfl
  | succ steps inductionHypothesis =>
      cases waiting with
      | nil => cases more <;> rfl
      | cons first rest =>
          obtain ⟨more, rfl⟩ : ∃ less, more = less + 1 :=
            Nat.exists_eq_succ_of_ne_zero (Nat.ne_zero_of_lt alsoEnough)
          cases found : next? (first :: rest) with
          | none => rw [drain_stuck found, drain_stuck found]
          | some ready =>
              let left := release graph ready.index (first :: rest)
              have fewer : left.length < (first :: rest).length := length_release_lt found
              have short : left.length ≤ steps := by omega
              have alsoShort : left.length ≤ more := by omega
              rw [drain_round found, drain_round found, inductionHypothesis short alsoShort]

/-- The closure ends by itself, so more rounds than there are places make no difference. -/
theorem spread_of_enough (bounded : IsBounded graph) {rounds more : Nat} {known latest : List Nat}
    (explored : Explored graph known latest) (enough : graph.size < known.length + rounds)
    (alsoEnough : graph.size < known.length + more) :
    spread graph rounds known latest = spread graph more known latest := by
  have few := explored.length_le
  induction rounds generalizing known latest more with
  | zero => omega
  | succ rounds inductionHypothesis =>
      obtain ⟨more, rfl⟩ : ∃ less, more = less + 1 := ⟨more - 1, by omega⟩
      have isFresh : ((latest.flatMap (dependencies graph)).eraseDups.filter fun place =>
          !known.contains place) = freshPlaces graph known latest := rfl
      rw [spread, spread, isFresh]
      cases found : freshPlaces graph known latest with
      | nil => rfl
      | cons first rest =>
          have further := explored.step bounded
          rw [found] at further
          have grown : (first :: rest ++ known).length = rest.length + 1 + known.length := by
            rw [List.length_append, List.length_cons]
          exact inductionHypothesis further (by omega) (by omega) further.length_le

/-- A count that goes down in a round counts the place that is taken away, so it is not zero. -/
theorem Counted.unmet_pos (counted : Counted graph waiting) (found : next? waiting = some ready)
    {place : Waiting} (member : place ∈ waiting)
    (depends : dependsOn graph place.index ready.index = true) : 0 < place.unmet := by
  rw [Nat.pos_iff_ne_zero]
  intro nothing
  have isReady := (counted.ready_iff member).mp nothing
  exact isReady ready.index (List.contains_iff_mem.mp depends)
    (List.mem_map_of_mem (mem_of_next? found))

/-- Counts stay exact in all rounds. -/
theorem Counted.rounds (simple : IsSimple graph) (counted : Counted graph waiting)
    (rounds : Relation.ReflTransGen (Round graph) waiting next) : Counted graph next := by
  induction rounds with
  | refl => exact counted
  | tail _ round stillCounted =>
      obtain ⟨ready, found, rfl⟩ := round
      exact stillCounted.release simple (List.mem_map_of_mem (mem_of_next? found))

/-- In an order, a place comes behind all that it needs. -/
theorem IsOrder.mem_front {α : Type} {needs : α → α → Prop} {done : α → Prop} {order : List α}
    (ordered : IsOrder needs done order) {front back : List α} {place other : α}
    (split : order = front ++ place :: back) (needed : needs place other) :
    done other ∨ other ∈ front := by
  induction front generalizing done order with
  | nil =>
      subst split
      exact .inl (ordered.1 other needed)
  | cons first rest inductionHypothesis =>
      subst split
      rcases inductionHypothesis ordered.2 rfl with (isFirst | isDone) | isLater
      · exact .inr (List.mem_cons.mpr (.inl isFirst))
      · exact .inl isDone
      · exact .inr (List.mem_cons_of_mem first isLater)

/-- In waiting places of increasing indices, the place that comes next is the least ready one. -/
theorem next?_le (sorted : (waitingPlaces waiting).Pairwise (· < ·)) (found : next? waiting = some ready)
    {place : Waiting} (member : place ∈ waiting) (isReady : place.unmet = 0) :
    ready.index ≤ place.index := by
  obtain ⟨_, front, back, split, waits⟩ := List.find?_eq_some_iff_append.mp found
  rw [split] at member
  rcases List.mem_append.mp member with inFront | inBack
  · have notReady := waits place inFront
    simp [isReady] at notReady
  · rw [split, waitingPlaces, List.map_append, List.map_cons] at sorted
    have behind := (List.pairwise_cons.mp (List.pairwise_append.mp sorted).2.1).1
    rcases List.mem_cons.mp inBack with rfl | further
    · exact Nat.le_refl _
    · exact Nat.le_of_lt (behind _ (List.mem_map_of_mem further))

/-- At each place of the order stands the least of the places that wait for nothing at this time. -/
theorem drain_least (simple : IsSimple graph) {steps : Nat} (counted : Counted graph waiting)
    (sorted : (waitingPlaces waiting).Pairwise (· < ·)) {order : List Nat}
    (drained : drain graph steps waiting = .ok order) {front back : List Nat} {place other : Nat}
    (split : order = front ++ place :: back) (waits : other ∈ waitingPlaces waiting)
    (unplaced : other ∉ front)
    (isReady : ∀ needed, Depends graph other needed → needed ∈ waitingPlaces waiting →
      needed ∈ front) : place ≤ other := by
  -- The first round gives the head of the order. After it, whatever is ready with the head in front
  -- is ready without it.
  induction steps generalizing waiting order front with
  | zero =>
      cases drained
      exact absurd split (by simp)
  | succ steps inductionHypothesis =>
      cases waiting with
      | nil => cases waits
      | cons first rest =>
          cases found : next? (first :: rest) with
          | none =>
              rw [drain_stuck found] at drained
              cases drained
          | some ready =>
              rw [drain_round found] at drained
              cases later : drain graph steps (release graph ready.index (first :: rest)) with
              | error index =>
                  rw [later] at drained
                  cases drained
              | ok places =>
                  rw [later] at drained
                  obtain rfl : ready.index :: places = order := Except.ok.inj drained
                  have isWaiting := List.mem_map_of_mem (f := Waiting.index) (mem_of_next? found)
                  cases front with
                  | nil =>
                      obtain ⟨rfl, _⟩ := List.cons.inj split
                      obtain ⟨ahead, isAhead, rfl⟩ := List.mem_map.mp waits
                      refine next?_le sorted found isAhead ((counted.ready_iff isAhead).mpr ?_)
                      intro needed depends needsWaiting
                      cases isReady needed depends needsWaiting
                  | cons head front =>
                      obtain ⟨rfl, splitLater⟩ := List.cons.inj split
                      have stillWaits : other ≠ ready.index :=
                        fun same => unplaced (same ▸ List.mem_cons_self)
                      refine inductionHypothesis (counted.release simple isWaiting) ?_ later
                        splitLater (mem_waitingPlaces_release.mpr ⟨waits, stillWaits⟩)
                        (fun placed => unplaced (List.mem_cons_of_mem _ placed)) ?_
                      · rw [waitingPlaces_release]
                        exact sorted.filter _
                      · intro needed depends needsWaiting
                        obtain ⟨waited, isOther⟩ := mem_waitingPlaces_release.mp needsWaiting
                        exact (List.mem_cons.mp (isReady needed depends waited)).resolve_left isOther

end Rounds

section Orders

variable {actions : List Action} {start : Nat} {output : String} {order : List Nat}

/-- The places of all actions that the action at a place needs, each once and that place last. Each
comes behind what it mentions, and none comes before a lower place that could have come. -/
structure IsExecutionOrder (actions : List Action) (start : Nat) (order : List Nat) : Prop where
  distinct : order.Nodup
  members : ∀ place, place ∈ order ↔ Relation.ReflTransGen (Requires actions) start place
  endsWith : order.getLast? = some start
  behind : ∀ front place back, order = front ++ place :: back →
    ∀ other, Requires actions place other → other ∈ front
  least : ∀ front place back, order = front ++ place :: back →
    ∀ other, Relation.ReflTransGen (Requires actions) start other → other ∉ front →
      (∀ needed, Requires actions other needed → needed ∈ front) → place ≤ other

theorem lt_size_of_standsFor (stands : StandsFor actions start output) :
    start < (graph actions).size := by
  obtain ⟨_, found, _⟩ := stands.produces
  exact lt_size_graph found

theorem mem_reachable_iff (stands : StandsFor actions start output) {place : Nat} :
    place ∈ reachable (graph actions) start ↔
      Relation.ReflTransGen (Requires actions) start place := by
  rw [mem_reachable (isBounded_graph actions) (lt_size_of_standsFor stands), depends_eq_requires]

theorem reachable_ascending (graph : Graph) (start : Nat) :
    (reachable graph start).Pairwise (· < ·) :=
  List.pairwise_lt_range.filter _

/-- Everything in the order but the last place is needed by the last place, so it comes before. -/
theorem getLast?_of_isOrder (distinct : order.Nodup)
    (members : ∀ place, place ∈ order ↔ Relation.ReflTransGen (Requires actions) start place)
    (ordered : IsOrder (Requires actions) (fun _ => False) order) : order.getLast? = some start := by
  have transitive := ordered.transGen fun _ _ impossible _ => impossible
  obtain ⟨front, back, split⟩ := List.append_of_mem ((members start).mpr .refl)
  -- A place behind the start would be needed by it and so stand in front of it as well.
  cases back with
  | nil => rw [split, List.getLast?_concat]
  | cons place rest =>
      have isOrdered : place ∈ order := by simp [split]
      rw [split] at distinct
      have apart := List.nodup_append.mp distinct
      have isOther : place ≠ start := by
        rintro rfl
        simp at apart
      have needed := (Relation.reflTransGen_iff_eq_or_transGen.mp ((members place).mp isOrdered))
      have inFront := (transitive.mem_front split (needed.resolve_left isOther)).resolve_left id
      exact absurd rfl (apart.2.2 place inFront place (by simp))

/-- What the drain puts in order is an order for the execution. -/
theorem isExecutionOrder_of_drain (stands : StandsFor actions start output)
    (drained : drain (graph actions) (reachable (graph actions) start).length
      (waitingFor (graph actions) (reachable (graph actions) start)) = .ok order) :
    IsExecutionOrder actions start order := by
  have placed := drain_reachable (lt_size_of_standsFor stands)
  rw [drained] at placed
  obtain ⟨permuted, ordered⟩ := placed
  have distinct := permuted.nodup_iff.mpr (nodup_reachable _ _)
  have members (place : Nat) :
      place ∈ order ↔ Relation.ReflTransGen (Requires actions) start place :=
    permuted.mem_iff.trans (mem_reachable_iff stands)
  have inOrder := depends_eq_requires actions ▸ ordered
  have waits := waitingPlaces_waitingFor (graph actions) (reachable (graph actions) start)
  refine ⟨distinct, members, getLast?_of_isOrder distinct members inOrder, ?_, ?_⟩
  · intro front place back split other requires
    exact (inOrder.mem_front split requires).resolve_left id
  · intro front place back split other needed unplaced isReady
    refine drain_least (isSimple_graph actions) (counted_waitingFor (nodup_reachable _ _)) ?_ drained
      split ?_ unplaced fun next depends _ => isReady next (depends_eq_requires actions ▸ depends)
    · rw [waits]
      exact reachable_ascending _ _
    · rw [waits]
      exact (mem_reachable_iff stands).mpr needed

/-- Where the drain is stuck, a needed place leads back to itself. -/
theorem exists_cycle_of_drain (stands : StandsFor actions start output) {index : Nat}
    (drained : drain (graph actions) (reachable (graph actions) start).length
      (waitingFor (graph actions) (reachable (graph actions) start)) = .error index) :
    Relation.ReflTransGen (Requires actions) start index ∧
      ∃ place, Relation.ReflTransGen (Requires actions) start place ∧
        Relation.TransGen (Requires actions) place place := by
  have stuck := drain_reachable (lt_size_of_standsFor stands)
  rw [drained] at stuck
  obtain ⟨left, named, within, leads⟩ := stuck
  obtain ⟨place, isLeft, cycle⟩ := exists_cycle named leads
  rw [depends_eq_requires] at cycle
  exact ⟨(mem_reachable_iff stands).mp (within named), place,
    (mem_reachable_iff stands).mp (within isLeft), cycle⟩

/-- Where the drain gives an order, no needed place leads back to itself. -/
theorem acyclic_of_drain (stands : StandsFor actions start output)
    (drained : drain (graph actions) (reachable (graph actions) start).length
      (waitingFor (graph actions) (reachable (graph actions) start)) = .ok order) {place : Nat}
    (needed : Relation.ReflTransGen (Requires actions) start place) :
    ¬ Relation.TransGen (Requires actions) place place := by
  intro cycle
  have placed := drain_reachable (lt_size_of_standsFor stands)
  rw [drained, depends_eq_requires] at placed
  obtain ⟨permuted, ordered⟩ := placed
  have isPlaced := permuted.mem_iff.mpr ((mem_reachable_iff stands).mpr needed)
  exact (ordered.transGen fun _ _ impossible _ => impossible).before_of_self isPlaced cycle

/-- Places that have actions have the actions that are found at them. -/
theorem map_getElem?_eq (found : ∀ place ∈ order, ∃ action, actions[place]? = some action) :
    order.map (fun place => actions[place]?) =
      (order.filterMap fun place => actions[place]?).map some := by
  induction order with
  | nil => rfl
  | cons place rest inductionHypothesis =>
      obtain ⟨action, isAction⟩ := found place List.mem_cons_self
      rw [List.filterMap_cons_some isAction, List.map_cons, List.map_cons, isAction,
        inductionHypothesis fun other member => found other (List.mem_cons_of_mem place member)]

/-- An output that some action produces is requested. If nothing that the action standing for it needs
leads back to itself, exactly the needed actions run, in the order for the execution. Otherwise the
result is a circular dependency. The closure and the drain end by themselves, each round leaves fewer
places waiting, and a count that goes down in a round is not zero. -/
theorem required_order (produced : output ∈ actions.map Action.output) :
    ∃ start, StandsFor actions start output ∧
      ((∀ place, Relation.ReflTransGen (Requires actions) start place →
          ¬ Relation.TransGen (Requires actions) place place) →
        ∃ order chosen, required actions (some output) = .ok chosen ∧
          order.map (fun place => actions[place]?) = chosen.map some ∧
          IsExecutionOrder actions start order) ∧
      ((∃ place, Relation.ReflTransGen (Requires actions) start place ∧
          Relation.TransGen (Requires actions) place place) →
        ∃ place action, Relation.ReflTransGen (Requires actions) start place ∧
          actions[place]? = some action ∧
          required actions (some output) = .error (.circularDependency action.output)) ∧
      let graph := graph actions
      let needed := reachable graph start
      (∀ rounds, graph.size ≤ rounds →
        spread graph rounds [start] [start] = spread graph graph.size [start] [start]) ∧
      (∀ steps, needed.length ≤ steps → drain graph steps (waitingFor graph needed) =
        drain graph needed.length (waitingFor graph needed)) ∧
      ∀ waiting, Relation.ReflTransGen (Round graph) (waitingFor graph needed) waiting →
        ∀ ready, next? waiting = some ready →
          (release graph ready.index waiting).length < waiting.length ∧
          ∀ place ∈ waiting, dependsOn graph place.index ready.index = true → 0 < place.unmet := by
  obtain ⟨producer, member, rfl⟩ := List.mem_map.mp produced
  obtain ⟨start, isStart⟩ := standing?_isSome member
  have stands := standing?_eq_some_iff.mp isStart
  have answer := required_eq isStart
  refine ⟨start, stands, fun acyclic => ?_, fun cyclic => ?_, fun rounds enough => ?_,
    fun steps enough => ?_, fun waiting rounds ready found => ?_⟩
  · cases drained : drain (graph actions) (reachable (graph actions) start).length
        (waitingFor (graph actions) (reachable (graph actions) start)) with
    | error index =>
        obtain ⟨_, place, needed, cycle⟩ := exists_cycle_of_drain stands drained
        exact absurd cycle (acyclic place needed)
    | ok order =>
        rw [drained] at answer
        have isOrder := isExecutionOrder_of_drain stands drained
        exact ⟨order, _, answer, map_getElem?_eq fun place placed =>
          exists_action_of_needed stands ((isOrder.members place).mp placed), isOrder⟩
  · cases drained : drain (graph actions) (reachable (graph actions) start).length
        (waitingFor (graph actions) (reachable (graph actions) start)) with
    | error index =>
        obtain ⟨named, _⟩ := exists_cycle_of_drain stands drained
        obtain ⟨action, found⟩ := exists_action_of_needed stands named
        rw [drained] at answer
        dsimp only at answer
        rw [found] at answer
        exact ⟨index, action, named, found, answer⟩
    | ok order =>
        obtain ⟨place, needed, cycle⟩ := cyclic
        exact absurd cycle (acyclic_of_drain stands drained needed)
  · have inside := lt_size_of_standsFor stands
    exact spread_of_enough (isBounded_graph actions) (explored_singleton inside)
      (by rw [List.length_singleton]; omega) (by rw [List.length_singleton]; omega)
  · have counts : (waitingFor (graph actions) (reachable (graph actions) start)).length =
        (reachable (graph actions) start).length := List.length_map _
    exact drain_of_enough (counts.trans_le enough) counts.le
  · have counted := (counted_waitingFor (nodup_reachable _ _)).rounds (isSimple_graph actions) rounds
    exact ⟨length_release_lt found, fun place member depends =>
      counted.unmet_pos found member depends⟩

/-- A raised amount needs a bonus, which needs the base. Two actions give the base, and the later one
stands for it. -/
def bonusActions : List Action :=
  [⟨"base", some (.literal (.int 1200)), none⟩,
    ⟨"raised", none, some { Operation.named "ADD" with
      values := some (.list [.literal (.string "$base"), .literal (.string "$bonus.amount")]) }⟩,
    ⟨"bonus", some (.literal (.string "$base")), none⟩,
    ⟨"base", some (.literal (.int 2400)), none⟩]

theorem required_order_bonus :
    "raised" ∈ bonusActions.map Action.output ∧
    (indices bonusActions (some "raised")).toOption = some [3, 2, 1] ∧
    ∃ start, StandsFor bonusActions start "raised" ∧
      (∀ place, Relation.ReflTransGen (Requires bonusActions) start place →
        ¬ Relation.TransGen (Requires bonusActions) place place) ∧
      ∃ order chosen, required bonusActions (some "raised") = .ok chosen ∧
        order.map (fun place => bonusActions[place]?) = chosen.map some ∧
        IsExecutionOrder bonusActions start order := by
  have produced : "raised" ∈ bonusActions.map Action.output := by decide
  have succeeds : (required bonusActions (some "raised")).toOption.isSome = true := by
    decide +kernel
  obtain ⟨start, stands, ordered, fails, _⟩ := required_order produced
  have acyclic : ∀ place, Relation.ReflTransGen (Requires bonusActions) start place →
      ¬ Relation.TransGen (Requires bonusActions) place place := by
    intro place needed cycle
    obtain ⟨_, _, _, _, failed⟩ := fails ⟨place, needed, cycle⟩
    rw [failed] at succeeds
    cases succeeds
  exact ⟨produced, by decide +kernel, start, stands, acyclic, ordered acyclic⟩

end Orders

end ActionOrder

end Statute
