/-
This file proves that the actions for an output are put in an order which respects what they mention.
-/

import Mathlib.Data.Fintype.EquivFin
import Mathlib.Data.Fintype.Sets
import Mathlib.Data.List.Nodup
import Mathlib.Data.List.Perm.Subperm
import Mathlib.Logic.Relation
import Mathlib.Order.WellFounded
import Statute.Proofs.Collections
import Statute.Rule.ActionOrder

namespace Statute

namespace ActionOrder

/-- A place depends on another directly. -/
def Depends (graph : Graph) (place other : Nat) : Prop :=
  other ∈ dependencies graph place

/-- Places only depend on places of the graph. -/
def IsBounded (graph : Graph) : Prop :=
  ∀ place other, Depends graph place other → other < graph.size

/-- No place names a dependency twice. -/
def IsSimple (graph : Graph) : Prop :=
  ∀ place, (dependencies graph place).Nodup

section Standing

variable {actions : List Action}

theorem mem_places {output : String} {place : Nat} :
    (output, place) ∈ places actions ↔
      ∃ action, actions[place]? = some action ∧ action.output = output := by
  rw [places, List.mem_reverse, List.mk_mem_zipIdx_iff_getElem?, List.getElem?_map,
    Option.map_eq_some_iff]

/-- The place that stands for an output is one of an action with this output. -/
theorem standing?_some {output : String} {place : Nat}
    (stands : standing? (places actions) output = some place) :
    ∃ action, actions[place]? = some action ∧ action.output = output := by
  rw [standing?, List.lookup_eq_some_iff] at stands
  obtain ⟨before, after, split, _⟩ := stands
  apply mem_places.mp
  rw [split]
  simp

/-- Some place stands for the output of an action. -/
theorem standing?_isSome {action : Action} (member : action ∈ actions) :
    ∃ place, standing? (places actions) action.output = some place := by
  cases stands : standing? (places actions) action.output with
  | some place => exact ⟨place, rfl⟩
  | none =>
      obtain ⟨place, found⟩ := List.mem_iff_getElem?.mp member
      rw [standing?, List.lookup_eq_none_iff] at stands
      have listed : (action.output, place) ∈ places actions := mem_places.mpr ⟨action, found, rfl⟩
      have differs := stands _ listed
      simp at differs

/-- Without two actions of one output, an action stands for its output. -/
theorem standing?_output (distinct : (actions.map Action.output).Nodup) {action : Action}
    {place : Nat} (found : actions[place]? = some action) :
    standing? (places actions) action.output = some place := by
  obtain ⟨other, stands⟩ := standing?_isSome (List.mem_of_getElem? found)
  obtain ⟨twin, twinFound, same⟩ := standing?_some stands
  have here : (actions.map Action.output)[place]? = some action.output := by
    rw [List.getElem?_map, found, Option.map_some]
  have there : (actions.map Action.output)[other]? = some action.output := by
    rw [List.getElem?_map, twinFound, Option.map_some, same]
  obtain ⟨bound, _⟩ := List.getElem?_eq_some_iff.mp here
  have equal : place = other :=
    (List.getElem?_inj bound distinct).mp (here.trans there.symm)
  rw [stands, equal]

theorem depends_graph {place other : Nat} :
    Depends (graph actions) place other ↔
      ∃ action, actions[place]? = some action ∧
        ∃ path ∈ action.references, standing? (places actions) (pathRoot path) = some other := by
  rw [Depends, dependencies, graph, List.getElem?_toArray, List.getElem?_map]
  cases actions[place]? with
  | none => simp
  | some action => simp [mentioned, List.mem_eraseDups]

theorem size_graph (actions : List Action) : (graph actions).size = actions.length := by
  rw [graph, List.size_toArray, List.length_map]

theorem isBounded_graph (actions : List Action) : IsBounded (graph actions) := by
  intro place other depends
  obtain ⟨_, _, _, _, stands⟩ := depends_graph.mp depends
  obtain ⟨_, found, _⟩ := standing?_some stands
  obtain ⟨bound, _⟩ := List.getElem?_eq_some_iff.mp found
  rw [size_graph]
  exact bound

theorem isSimple_graph (actions : List Action) : IsSimple (graph actions) := by
  intro place
  rw [dependencies, graph, List.getElem?_toArray, List.getElem?_map]
  cases actions[place]? with
  | none => exact List.nodup_nil
  | some action => exact nodup_eraseDups _

end Standing

section Reachability

variable {graph : Graph}

/-- Each place among the known ones that is not among the latest only depends on known places. -/
structure Explored (graph : Graph) (known latest : List Nat) : Prop where
  latestKnown : latest ⊆ known
  closed : ∀ place ∈ known, place ∉ latest → ∀ other, Depends graph place other → other ∈ known
  distinct : known.Nodup
  bounded : ∀ place ∈ known, place < graph.size

/-- The places that a round adds. -/
def freshPlaces (graph : Graph) (known latest : List Nat) : List Nat :=
  (latest.flatMap (dependencies graph)).eraseDups.filter fun place => !known.contains place

theorem mem_freshPlaces {known latest : List Nat} {place : Nat} :
    place ∈ freshPlaces graph known latest ↔
      (∃ source ∈ latest, Depends graph source place) ∧ place ∉ known := by
  simp [freshPlaces, List.mem_eraseDups, Depends]

theorem Explored.step {known latest : List Nat} (bounded : IsBounded graph)
    (explored : Explored graph known latest) :
    Explored graph (freshPlaces graph known latest ++ known) (freshPlaces graph known latest) := by
  refine ⟨List.subset_append_left _ _, ?_, ?_, ?_⟩
  · intro place member old other depends
    have isOld : place ∈ known := (List.mem_append.mp member).resolve_left old
    rw [List.mem_append, mem_freshPlaces]
    by_cases isKnown : other ∈ known
    · exact .inr isKnown
    · by_cases isLatest : place ∈ latest
      · exact .inl ⟨⟨place, isLatest, depends⟩, isKnown⟩
      · exact absurd (explored.closed place isOld isLatest other depends) isKnown
  · refine List.Nodup.append ((nodup_eraseDups _).filter _) explored.distinct ?_
    intro place fresh old
    exact (mem_freshPlaces.mp fresh).2 old
  · intro place member
    rcases List.mem_append.mp member with fresh | old
    · obtain ⟨⟨source, _, depends⟩, _⟩ := mem_freshPlaces.mp fresh
      exact bounded source place depends
    · exact explored.bounded place old

/-- There are at most as many known places as there are places. -/
theorem Explored.length_le {known latest : List Nat} (explored : Explored graph known latest) :
    known.length ≤ graph.size := by
  have within : known ⊆ List.range graph.size :=
    fun place member => List.mem_range.mpr (explored.bounded place member)
  have shorter := (explored.distinct.subperm within).length_le
  rwa [List.length_range] at shorter

/-- With enough rounds, the places that are found in the end depend on each other only, and each of
them can be reached from one that was known before. -/
theorem spread_spec (bounded : IsBounded graph) {rounds : Nat} {known latest : List Nat}
    (explored : Explored graph known latest) (enough : graph.size < known.length + rounds) :
    known ⊆ spread graph rounds known latest ∧
      (∀ place ∈ spread graph rounds known latest, ∀ other, Depends graph place other →
        other ∈ spread graph rounds known latest) ∧
      ∀ place ∈ spread graph rounds known latest, ∃ source ∈ known,
        Relation.ReflTransGen (Depends graph) source place := by
  induction rounds generalizing known latest with
  | zero => exact absurd explored.length_le (by omega)
  | succ rounds inductionHypothesis =>
      have isFresh : ((latest.flatMap (dependencies graph)).eraseDups.filter fun place =>
          !known.contains place) = freshPlaces graph known latest := rfl
      rw [spread, isFresh]
      cases found : freshPlaces graph known latest with
      | nil =>
          refine ⟨List.Subset.refl known, ?_, fun place member => ⟨place, member, .refl⟩⟩
          intro place member other depends
          by_cases isLatest : place ∈ latest
          · by_cases isKnown : other ∈ known
            · exact isKnown
            · have fresh := mem_freshPlaces.mpr ⟨⟨place, isLatest, depends⟩, isKnown⟩
              rw [found] at fresh
              cases fresh
          · exact explored.closed place member isLatest other depends
      | cons first rest =>
          have next := explored.step bounded
          rw [found] at next
          have grown : (first :: rest ++ known).length = rest.length + 1 + known.length := by
            rw [List.length_append, List.length_cons]
          obtain ⟨kept, closed, reached⟩ := inductionHypothesis next (by omega)
          refine ⟨fun place member => kept (List.mem_append_right _ member), closed, ?_⟩
          intro place member
          obtain ⟨source, isSource, path⟩ := reached place member
          rcases List.mem_append.mp isSource with fresh | old
          · rw [← found, mem_freshPlaces] at fresh
            obtain ⟨⟨earlier, isLatest, depends⟩, _⟩ := fresh
            exact ⟨earlier, explored.latestKnown isLatest, .head depends path⟩
          · exact ⟨source, old, path⟩

/-- The closure starts with a place of the graph. -/
theorem explored_singleton {start : Nat} (inside : start < graph.size) :
    Explored graph [start] [start] := by
  refine ⟨List.Subset.refl _, ?_, List.nodup_singleton start, ?_⟩
  · intro place member old
    exact absurd member old
  · intro place member
    rw [List.mem_singleton.mp member]
    exact inside

/-- The reachable places are those that a place depends on through any number of steps. -/
theorem mem_reachable (bounded : IsBounded graph) {start place : Nat} (inside : start < graph.size) :
    place ∈ reachable graph start ↔ Relation.ReflTransGen (Depends graph) start place := by
  have enough : graph.size < [start].length + graph.size := by simp
  obtain ⟨kept, closed, reached⟩ := spread_spec bounded (explored_singleton inside) enough
  rw [reachable, List.mem_filter, List.mem_range, List.contains_iff_mem]
  constructor
  · rintro ⟨_, member⟩
    obtain ⟨source, isStart, path⟩ := reached place member
    rwa [List.mem_singleton.mp isStart] at path
  · intro path
    induction path with
    | refl => exact ⟨inside, kept (List.mem_singleton_self start)⟩
    | tail _ depends inductionHypothesis =>
        exact ⟨bounded _ _ depends, closed _ inductionHypothesis.2 _ depends⟩

theorem nodup_reachable (graph : Graph) (start : Nat) : (reachable graph start).Nodup :=
  List.nodup_range.filter _

end Reachability

section Draining

variable {graph : Graph} {waiting : List Waiting}

/-- The places that wait. -/
def waitingPlaces (waiting : List Waiting) : List Nat :=
  waiting.map Waiting.index

/-- Each waiting place counts the dependencies that wait as well. -/
structure Counted (graph : Graph) (waiting : List Waiting) : Prop where
  distinct : (waitingPlaces waiting).Nodup
  unmet : ∀ place ∈ waiting, place.unmet =
    ((dependencies graph place.index).filter (waitingPlaces waiting).contains).length

theorem waitingPlaces_waitingFor (graph : Graph) (needed : List Nat) :
    waitingPlaces (waitingFor graph needed) = needed := by
  rw [waitingPlaces, waitingFor, List.map_map]
  exact List.map_id needed

theorem counted_waitingFor {needed : List Nat} (distinct : needed.Nodup) :
    Counted graph (waitingFor graph needed) := by
  refine ⟨by rwa [waitingPlaces_waitingFor], ?_⟩
  intro place member
  obtain ⟨index, _, rfl⟩ := List.mem_map.mp member
  rw [waitingPlaces_waitingFor]

/-- A place is ready when nothing that it depends on waits. -/
theorem Counted.ready_iff (counted : Counted graph waiting) {place : Waiting}
    (member : place ∈ waiting) :
    place.unmet = 0 ↔ ∀ other, Depends graph place.index other → other ∉ waitingPlaces waiting := by
  rw [counted.unmet place member, List.length_eq_zero_iff, List.filter_eq_nil_iff]
  simp only [List.contains_iff_mem, Depends]

theorem waitingPlaces_release (graph : Graph) (done : Nat) (waiting : List Waiting) :
    waitingPlaces (release graph done waiting) =
      (waitingPlaces waiting).filter fun place => place != done := by
  have kept : Waiting.index ∘ (fun place : Waiting =>
      if dependsOn graph place.index done then ⟨place.index, place.unmet - 1⟩ else place) =
      Waiting.index := by
    funext place
    simp only [Function.comp_apply]
    split <;> rfl
  rw [waitingPlaces, release, List.map_map, kept, waitingPlaces, List.filter_map]
  rfl

theorem mem_waitingPlaces_release {done place : Nat} :
    place ∈ waitingPlaces (release graph done waiting) ↔
      place ∈ waitingPlaces waiting ∧ place ≠ done := by
  rw [waitingPlaces_release, List.mem_filter, bne_iff_ne]

/-- A release takes one place away. -/
theorem Counted.waitingPlaces_release (counted : Counted graph waiting) (done : Nat) :
    waitingPlaces (ActionOrder.release graph done waiting) = (waitingPlaces waiting).erase done := by
  rw [ActionOrder.waitingPlaces_release, counted.distinct.erase_eq_filter]

/-- A place that a release leaves waiting was waiting before. -/
theorem mem_release {done : Nat} {place : Waiting} :
    place ∈ release graph done waiting ↔ ∃ earlier ∈ waiting, earlier.index ≠ done ∧
      place = if dependsOn graph earlier.index done then ⟨earlier.index, earlier.unmet - 1⟩
        else earlier := by
  simp only [release, List.mem_map, List.mem_filter, bne_iff_ne, ne_eq, and_assoc,
    eq_comm (a := place)]

/-- When a place enters the order, exactly the counts of the places that depend on it go down. -/
theorem Counted.release (simple : IsSimple graph) (counted : Counted graph waiting) {done : Nat}
    (isWaiting : done ∈ waitingPlaces waiting) : Counted graph (release graph done waiting) := by
  refine ⟨?_, ?_⟩
  · rw [counted.waitingPlaces_release]
    exact counted.distinct.erase done
  · intro place member
    obtain ⟨earlier, isEarlier, _, isPlace⟩ := mem_release.mp member
    have same : place.index = earlier.index := by
      rw [isPlace]
      split <;> rfl
    let before := (dependencies graph earlier.index).filter (waitingPlaces waiting).contains
    have counts : earlier.unmet = before.length := counted.unmet earlier isEarlier
    have remaining : (dependencies graph earlier.index).filter
        (waitingPlaces (ActionOrder.release graph done waiting)).contains = before.erase done := by
      rw [((simple earlier.index).filter _).erase_eq_filter, List.filter_filter]
      apply List.filter_congr
      intro other _
      rw [Bool.eq_iff_iff]
      simp only [List.contains_iff_mem, mem_waitingPlaces_release, Bool.and_eq_true, bne_iff_ne,
        and_comm]
    have isMember : dependsOn graph earlier.index done = true ↔ done ∈ before := by
      rw [List.mem_filter, dependsOn, List.contains_iff_mem, List.contains_iff_mem]
      exact (and_iff_left isWaiting).symm
    rw [same, remaining, List.length_erase, ← counts, isPlace]
    by_cases depends : dependsOn graph earlier.index done = true
    · rw [if_pos depends, if_pos (isMember.mp depends)]
    · rw [if_neg depends, if_neg fun listed => depends (isMember.mpr listed)]

/-- When nothing can come next, each waiting place depends on another waiting place. -/
theorem Counted.stuck (counted : Counted graph waiting)
    (nothing : (waiting.find? fun place => place.unmet == 0) = none) :
    ∀ place ∈ waitingPlaces waiting, ∃ other ∈ waitingPlaces waiting, Depends graph place other := by
  intro index member
  obtain ⟨place, isPlace, rfl⟩ := List.mem_map.mp member
  have notReady := List.find?_eq_none.mp nothing place isPlace
  rw [beq_iff_eq, counted.ready_iff isPlace] at notReady
  simp only [not_forall, not_not] at notReady
  obtain ⟨other, depends, isWaiting⟩ := notReady
  exact ⟨other, isWaiting, depends⟩

/-- Each member of an order needs only what is done when its turn comes. -/
def IsOrder {α : Type} (needs : α → α → Prop) : (done : α → Prop) → List α → Prop
  | _, [] => True
  | done, next :: rest =>
      (∀ other, needs next other → done other) ∧
        IsOrder needs (fun other => other = next ∨ done other) rest

theorem IsOrder.mono {α : Type} {needs : α → α → Prop} {done more : α → Prop} {order : List α}
    (ordered : IsOrder needs done order) (grows : ∀ other, done other → more other) :
    IsOrder needs more order := by
  induction order generalizing done more with
  | nil => trivial
  | cons next rest inductionHypothesis =>
      refine ⟨fun other needed => grows other (ordered.1 other needed), ?_⟩
      exact inductionHypothesis ordered.2 fun other => Or.imp_right (grows other)

/-- What is needed through several steps is done as well, given that all that is done needs only
what is done. -/
theorem IsOrder.transGen {α : Type} {needs : α → α → Prop} {done : α → Prop} {order : List α}
    (ordered : IsOrder needs done order) (closed : ∀ place other, done place → needs place other →
      done other) : IsOrder (Relation.TransGen needs) done order := by
  induction order generalizing done with
  | nil => trivial
  | cons next rest inductionHypothesis =>
      have direct := ordered.1
      refine ⟨?_, inductionHypothesis ordered.2 ?_⟩
      · intro other path
        induction path with
        | single needed => exact direct _ needed
        | tail _ needed before => exact closed _ _ before needed
      · intro place other isDone needed
        rcases isDone with rfl | earlier
        · exact .inr (direct other needed)
        · exact .inr (closed place other earlier needed)

/-- An order has all that the places in it need. -/
theorem IsOrder.closed {α : Type} {needs : α → α → Prop} {done : α → Prop} {order : List α}
    (ordered : IsOrder needs done order) {place other : α} (isOrdered : place ∈ order)
    (needed : needs place other) : done other ∨ other ∈ order := by
  induction order generalizing done with
  | nil => cases isOrdered
  | cons next rest inductionHypothesis =>
      rcases List.mem_cons.mp isOrdered with rfl | later
      · exact .inl (ordered.1 other needed)
      · rcases inductionHypothesis ordered.2 later with (isNext | isDone) | isLater
        · exact .inr (List.mem_cons.mpr (.inl isNext))
        · exact .inl isDone
        · exact .inr (List.mem_cons_of_mem _ isLater)

/-- A place in an order that needs itself is done before. -/
theorem IsOrder.before_of_self {α : Type} {needs : α → α → Prop} {done : α → Prop} {order : List α}
    (ordered : IsOrder needs done order) {place : α} (isOrdered : place ∈ order)
    (self : needs place place) : done place := by
  induction order generalizing done with
  | nil => cases isOrdered
  | cons next rest inductionHypothesis =>
      rcases List.mem_cons.mp isOrdered with rfl | later
      · exact ordered.1 place self
      · rcases inductionHypothesis ordered.2 later with rfl | isDone
        · exact ordered.1 place self
        · exact isDone

theorem Counted.length_release (counted : Counted graph waiting) {done : Nat}
    (isWaiting : done ∈ waitingPlaces waiting) :
    (ActionOrder.release graph done waiting).length = waiting.length - 1 := by
  have counts := List.length_erase_of_mem isWaiting
  rw [← counted.waitingPlaces_release, waitingPlaces, waitingPlaces, List.length_map,
    List.length_map] at counts
  exact counts

/-- What waiting places depend on is done or waits as well, also after a release. -/
theorem depends_release {done : Nat → Prop} (next : Nat)
    (known : ∀ place ∈ waitingPlaces waiting, ∀ other, Depends graph place other →
      done other ∨ other ∈ waitingPlaces waiting) :
    ∀ place ∈ waitingPlaces (release graph next waiting), ∀ other, Depends graph place other →
      (other = next ∨ done other) ∨ other ∈ waitingPlaces (release graph next waiting) := by
  intro place member other depends
  rw [mem_waitingPlaces_release] at member ⊢
  by_cases isNext : other = next
  · exact .inl (.inl isNext)
  · rcases known place member.1 other depends with isDone | waits
    · exact .inl (.inr isDone)
    · exact .inr ⟨waits, isNext⟩

/-- The waiting places come in an order in which each of them has all that it depends on. Otherwise
some of them, with the one that is named, depend on each other without an end. -/
theorem drain_spec (simple : IsSimple graph) {steps : Nat} (enough : waiting.length ≤ steps)
    (counted : Counted graph waiting) {done : Nat → Prop}
    (known : ∀ place ∈ waitingPlaces waiting, ∀ other, Depends graph place other →
      done other ∨ other ∈ waitingPlaces waiting) :
    match drain graph steps waiting with
    | .ok order => order.Perm (waitingPlaces waiting) ∧ IsOrder (Depends graph) done order
    | .error index => ∃ left : List Nat, index ∈ left ∧ left ⊆ waitingPlaces waiting ∧
        ∀ place ∈ left, ∃ other ∈ left, Depends graph place other := by
  induction steps generalizing waiting done with
  | zero =>
      obtain rfl : waiting = [] := List.eq_nil_of_length_eq_zero (Nat.le_zero.mp enough)
      exact ⟨.nil, trivial⟩
  | succ steps inductionHypothesis =>
      cases waiting with
      | nil => exact ⟨.nil, trivial⟩
      | cons first rest =>
          rw [drain]
          cases found : (first :: rest).find? fun place => place.unmet == 0 with
          | none =>
              exact ⟨waitingPlaces (first :: rest), List.mem_cons_self, List.Subset.refl _,
                counted.stuck found⟩
          | some ready =>
              have isPlace : ready ∈ first :: rest := List.mem_of_find?_eq_some found
              have isWaiting : ready.index ∈ waitingPlaces (first :: rest) :=
                List.mem_map_of_mem isPlace
              have isReady := (counted.ready_iff isPlace).mp (by simpa using List.find?_some found)
              have others := counted.waitingPlaces_release ready.index
              have shorter : (release graph ready.index (first :: rest)).length ≤ steps := by
                rw [counted.length_release isWaiting]
                exact Nat.sub_le_of_le_add enough
              have later := inductionHypothesis shorter (counted.release simple isWaiting)
                (depends_release ready.index known)
              dsimp only
              cases drained : drain graph steps (release graph ready.index (first :: rest)) with
              | ok order =>
                  rw [drained] at later
                  obtain ⟨permuted, ordered⟩ := later
                  rw [others] at permuted
                  refine ⟨?_, ?_, ordered⟩
                  · exact (permuted.cons ready.index).trans (List.perm_cons_erase isWaiting).symm
                  · intro other depends
                    exact (known _ isWaiting other depends).resolve_right (isReady other depends)
              | error index =>
                  rw [drained] at later
                  obtain ⟨left, named, within, stuck⟩ := later
                  refine ⟨left, named, fun place member => ?_, stuck⟩
                  exact (mem_waitingPlaces_release.mp (within member)).1

end Draining

/-- Among finitely many places that depend on each other without an end, one depends on itself. -/
theorem exists_cycle {graph : Graph} {left : List Nat} {index : Nat} (member : index ∈ left)
    (stuck : ∀ place ∈ left, ∃ other ∈ left, Depends graph place other) :
    ∃ place ∈ left, Relation.TransGen (Depends graph) place place := by
  by_contra none
  let later : { place // place ∈ left.toFinset } → { place // place ∈ left.toFinset } → Prop :=
    fun second first => Relation.TransGen (Depends graph) first.1 second.1
  have transitive : IsTrans _ later := ⟨fun _ _ _ second first => first.trans second⟩
  have irreflexive : Std.Irrefl later :=
    ⟨fun place cycle => none ⟨place.1, List.mem_toFinset.mp place.2, cycle⟩⟩
  have wellFounded := Finite.wellFounded_of_trans_of_irrefl later
  obtain ⟨last, _, isLast⟩ := wellFounded.has_min Set.univ
    ⟨⟨index, List.mem_toFinset.mpr member⟩, trivial⟩
  obtain ⟨other, isLeft, depends⟩ := stuck last.1 (List.mem_toFinset.mp last.2)
  exact isLast ⟨other, List.mem_toFinset.mpr isLeft⟩ trivial (.single depends)

section Required

variable {actions : List Action}

/-- An action mentions the output of another action of the rule. -/
def Mentions (actions : List Action) (action other : Action) : Prop :=
  other ∈ actions ∧ ∃ path ∈ action.references, pathRoot path = other.output

/-- An action needs itself and what it mentions, directly or through others. -/
def Needs (actions : List Action) : Action → Action → Prop :=
  Relation.ReflTransGen (Mentions actions)

theorem Needs.mem {action other : Action} (needs : Needs actions action other)
    (member : action ∈ actions) : other ∈ actions := by
  cases needs with
  | refl => exact member
  | tail _ mentions => exact mentions.1

theorem mentions_of_depends {place other : Nat} {action : Action}
    (found : actions[place]? = some action) (depends : Depends (graph actions) place other) :
    ∃ target, actions[other]? = some target ∧ Mentions actions action target := by
  obtain ⟨same, sameFound, path, mentioned, stands⟩ := depends_graph.mp depends
  rw [found] at sameFound
  cases sameFound
  obtain ⟨target, targetFound, output⟩ := standing?_some stands
  exact ⟨target, targetFound, List.mem_of_getElem? targetFound, path, mentioned, output.symm⟩

theorem depends_of_mentions (distinct : (actions.map Action.output).Nodup) {place : Nat}
    {action target : Action} (found : actions[place]? = some action)
    (mentions : Mentions actions action target) :
    ∃ other, actions[other]? = some target ∧ Depends (graph actions) place other := by
  obtain ⟨member, path, mentioned, output⟩ := mentions
  obtain ⟨other, targetFound⟩ := List.mem_iff_getElem?.mp member
  refine ⟨other, targetFound, depends_graph.mpr ⟨action, found, path, mentioned, ?_⟩⟩
  rw [output]
  exact standing?_output distinct targetFound

theorem mentions_transGen {place other : Nat} {action : Action}
    (found : actions[place]? = some action)
    (path : Relation.TransGen (Depends (graph actions)) place other) :
    ∃ target, actions[other]? = some target ∧
      Relation.TransGen (Mentions actions) action target := by
  induction path with
  | single depends =>
      obtain ⟨target, targetFound, mentions⟩ := mentions_of_depends found depends
      exact ⟨target, targetFound, .single mentions⟩
  | tail _ depends inductionHypothesis =>
      obtain ⟨between, betweenFound, before⟩ := inductionHypothesis
      obtain ⟨target, targetFound, mentions⟩ := mentions_of_depends betweenFound depends
      exact ⟨target, targetFound, before.tail mentions⟩

/-- A place that depends on itself has an action that mentions itself. -/
theorem mentions_cycle {place : Nat}
    (cycle : Relation.TransGen (Depends (graph actions)) place place) :
    ∃ action, actions[place]? = some action ∧
      Relation.TransGen (Mentions actions) action action := by
  obtain ⟨_, depends, _⟩ := Relation.TransGen.head'_iff.mp cycle
  obtain ⟨action, found, _⟩ := depends_graph.mp depends
  obtain ⟨same, sameFound, path⟩ := mentions_transGen found cycle
  rw [found] at sameFound
  cases sameFound
  exact ⟨action, found, path⟩

theorem lt_size_graph {place : Nat} {action : Action} (found : actions[place]? = some action) :
    place < (graph actions).size := by
  rw [size_graph]
  exact (List.getElem?_eq_some_iff.mp found).1

/-- A place that is reachable from another one has an action that the other action needs. -/
theorem needs_of_reachable {start place : Nat} {action other : Action}
    (found : actions[start]? = some action) (inside : start < (graph actions).size)
    (isReached : place ∈ reachable (graph actions) start)
    (otherFound : actions[place]? = some other) : Needs actions action other := by
  rw [mem_reachable (isBounded_graph actions) inside] at isReached
  rcases Relation.reflTransGen_iff_eq_or_transGen.mp isReached with rfl | path
  · rw [found] at otherFound
    cases otherFound
    exact .refl
  · obtain ⟨target, targetFound, mentions⟩ := mentions_transGen found path
    rw [otherFound] at targetFound
    cases targetFound
    exact mentions.to_reflTransGen

/-- An order of places gives an order of their actions. -/
theorem IsOrder.ofPlaces (distinct : (actions.map Action.output).Nodup) {done : Nat → Prop}
    {order : List Nat} (ordered : IsOrder (Depends (graph actions)) done order) :
    IsOrder (Mentions actions) (fun action => ∃ place, done place ∧ actions[place]? = some action)
      (order.filterMap fun place => actions[place]?) := by
  induction order generalizing done with
  | nil => trivial
  | cons next rest inductionHypothesis =>
      obtain ⟨direct, later⟩ := ordered
      have remaining := inductionHypothesis later
      cases found : actions[next]? with
      | none =>
          rw [List.filterMap_cons_none found]
          refine remaining.mono ?_
          rintro action ⟨place, rfl | isDone, actionFound⟩
          · rw [found] at actionFound
            cases actionFound
          · exact ⟨place, isDone, actionFound⟩
      | some action =>
          rw [List.filterMap_cons_some found]
          refine ⟨?_, remaining.mono ?_⟩
          · intro target mentions
            obtain ⟨other, targetFound, depends⟩ := depends_of_mentions distinct found mentions
            exact ⟨other, direct other depends, targetFound⟩
          · rintro other ⟨place, rfl | isDone, otherFound⟩
            · rw [found] at otherFound
              cases otherFound
              exact .inl rfl
            · exact .inr ⟨place, isDone, otherFound⟩

/-- No action mentions itself through others when each action only mentions lower ones. -/
theorem acyclic_of_rank (rank : Action → Nat)
    (lower : ∀ action ∈ actions, ∀ other, Mentions actions action other → rank other < rank action) :
    ∀ action ∈ actions, ¬ Relation.TransGen (Mentions actions) action action := by
  have descends {action other : Action} (member : action ∈ actions)
      (path : Relation.TransGen (Mentions actions) action other) :
      other ∈ actions ∧ rank other < rank action := by
    induction path with
    | single mentions => exact ⟨mentions.1, lower _ member _ mentions⟩
    | tail _ mentions inductionHypothesis =>
        obtain ⟨between, less⟩ := inductionHypothesis
        exact ⟨mentions.1, (lower _ between _ mentions).trans less⟩
  intro action member cycle
  exact Nat.lt_irrefl _ (descends member cycle).2

theorem filterMap_range {α : Type} (items : List α) :
    (List.range items.length).filterMap (fun place => items[place]?) = items := by
  induction items with
  | nil => rfl
  | cons item rest inductionHypothesis =>
      rw [List.length_cons, List.range_succ_eq_map, List.filterMap_cons, List.filterMap_map]
      exact congrArg (item :: ·) inductionHypothesis

/-- Without a request all actions run as they are declared. -/
theorem required_none (actions : List Action) : required actions none = .ok actions := by
  rw [required, indices, Except.map, filterMap_range]

/-- The actions for an output are those of the places that the drain puts in order. -/
theorem required_eq {output : String} {start : Nat}
    (stands : standing? (places actions) output = some start) :
    required actions (some output) =
      match drain (graph actions) (reachable (graph actions) start).length
          (waitingFor (graph actions) (reachable (graph actions) start)) with
      | .ok order => .ok (order.filterMap fun place => actions[place]?)
      | .error index =>
          .error (.circularDependency ((actions[index]?.map Action.output).getD "")) := by
  rw [required, indices, stands]
  dsimp only
  cases drain (graph actions) (reachable (graph actions) start).length
      (waitingFor (graph actions) (reachable (graph actions) start)) with
  | ok order => rfl
  | error index => rfl

/-- The places that a place needs come in an order in which each of them has all that it depends
on. Otherwise some of them, with the one that is named, depend on each other without an end. -/
theorem drain_reachable {start : Nat} (inside : start < (graph actions).size) :
    match drain (graph actions) (reachable (graph actions) start).length
        (waitingFor (graph actions) (reachable (graph actions) start)) with
    | .ok order => order.Perm (reachable (graph actions) start) ∧
        IsOrder (Depends (graph actions)) (fun _ => False) order
    | .error index => ∃ left : List Nat, index ∈ left ∧ left ⊆ reachable (graph actions) start ∧
        ∀ place ∈ left, ∃ other ∈ left, Depends (graph actions) place other := by
  let needed := reachable (graph actions) start
  have waits : waitingPlaces (waitingFor (graph actions) needed) = needed :=
    waitingPlaces_waitingFor _ _
  have counts : (waitingFor (graph actions) needed).length ≤ needed.length := by
    rw [waitingFor, List.length_map]
  have known : ∀ place ∈ waitingPlaces (waitingFor (graph actions) needed), ∀ other,
      Depends (graph actions) place other →
        False ∨ other ∈ waitingPlaces (waitingFor (graph actions) needed) := by
    intro place isNeeded other depends
    rw [waits, mem_reachable (isBounded_graph actions) inside] at isNeeded ⊢
    exact .inr (isNeeded.tail depends)
  have drained := drain_spec (isSimple_graph actions) counts
    (counted_waitingFor (nodup_reachable _ _)) known
  rw [waits] at drained
  exact drained

/-- The actions for an output are those that its action needs, each after all that it mentions. -/
theorem required_ok (distinct : (actions.map Action.output).Nodup) {action : Action}
    (member : action ∈ actions) {order : List Action}
    (ordered : required actions (some action.output) = .ok order) :
    (∀ other, other ∈ order ↔ Needs actions action other) ∧
      IsOrder (Mentions actions) (fun _ => False) order := by
  obtain ⟨start, found⟩ := List.mem_iff_getElem?.mp member
  have inside := lt_size_graph found
  have drained := drain_reachable inside
  rw [required_eq (standing?_output distinct found)] at ordered
  cases result : drain (graph actions) (reachable (graph actions) start).length
      (waitingFor (graph actions) (reachable (graph actions) start)) with
  | error index =>
      rw [result] at ordered
      cases ordered
  | ok places =>
      rw [result] at ordered drained
      cases ordered
      obtain ⟨permuted, isOrder⟩ := drained
      have inOrder : IsOrder (Mentions actions) (fun _ => False)
          (places.filterMap fun place => actions[place]?) :=
        (isOrder.ofPlaces distinct).mono fun _ ⟨_, impossible, _⟩ => impossible
      refine ⟨fun other => ⟨?_, fun needs => ?_⟩, inOrder⟩
      · intro isOrdered
        obtain ⟨place, isPlace, otherFound⟩ := List.mem_filterMap.mp isOrdered
        exact needs_of_reachable found inside (permuted.mem_iff.mp isPlace) otherFound
      · induction needs with
        | refl =>
            have isFirst : start ∈ reachable (graph actions) start :=
              (mem_reachable (isBounded_graph actions) inside).mpr .refl
            exact List.mem_filterMap.mpr ⟨start, permuted.mem_iff.mpr isFirst, found⟩
        | tail _ mentions isOrdered => exact (inOrder.closed isOrdered mentions).resolve_left id

/-- There is an order for an output exactly when nothing that its action needs mentions itself,
directly or through others. -/
theorem required_iff (distinct : (actions.map Action.output).Nodup) {action : Action}
    (member : action ∈ actions) :
    (∃ order, required actions (some action.output) = .ok order) ↔
      ∀ other, Needs actions action other →
        ¬ Relation.TransGen (Mentions actions) other other := by
  constructor
  · rintro ⟨order, ordered⟩ other needs cycle
    obtain ⟨members, isOrder⟩ := required_ok distinct member ordered
    have transitive := isOrder.transGen fun _ _ impossible _ => impossible
    exact transitive.before_of_self ((members other).mpr needs) cycle
  · intro acyclic
    obtain ⟨start, found⟩ := List.mem_iff_getElem?.mp member
    have inside := lt_size_graph found
    have drained := drain_reachable inside
    rw [required_eq (standing?_output distinct found)]
    cases result : drain (graph actions) (reachable (graph actions) start).length
        (waitingFor (graph actions) (reachable (graph actions) start)) with
    | ok order => exact ⟨_, rfl⟩
    | error index =>
        rw [result] at drained
        obtain ⟨left, named, within, stuck⟩ := drained
        obtain ⟨place, isLeft, cycle⟩ := exists_cycle named stuck
        obtain ⟨cyclic, cyclicFound, path⟩ := mentions_cycle cycle
        exact absurd path (acyclic cyclic (needs_of_reachable found inside (within isLeft)
          cyclicFound))

end Required

end ActionOrder

end Statute
