/-
This file ranks names by the relations without cycles that lead from one to the next.
-/

import Mathlib.Data.Finset.Card
import Mathlib.Logic.Relation

namespace Statute.Ranking

/-- No name leads back to itself. -/
def Acyclic (leads : String → String → Prop) : Prop :=
  ∀ name, ¬Relation.TransGen leads name name

/-- What lowers a measure does not lead back. -/
theorem Acyclic.of_measure {leads : String → String → Prop} (measure : String → Nat)
    (lowers : ∀ name next, leads name next → measure next < measure name) : Acyclic leads := by
  intro name cycle
  have lowered {first last : String} (path : Relation.TransGen leads first last) :
      measure last < measure first := by
    induction path with
    | single leadsOn => exact lowers _ _ leadsOn
    | tail _ leadsOn inductionHypothesis => exact (lowers _ _ leadsOn).trans inductionHypothesis
  exact Nat.lt_irrefl _ (lowered cycle)

variable {leads : String → String → Prop} {names : List String} {name next : String}

open Classical in
/-- The names of a list that can be reached from a name, which reaches itself. -/
noncomputable def reached (leads : String → String → Prop) (names : List String) (name : String) :
    Finset String :=
  names.toFinset.filter (Relation.ReflTransGen leads name)

theorem mem_reached {later : String} :
    later ∈ reached leads names name ↔
      later ∈ names ∧ Relation.ReflTransGen leads name later := by
  classical
  simp [reached]

/-- The number of names that a name reaches. -/
noncomputable def rank (leads : String → String → Prop) (names : List String) (name : String) :
    Nat :=
  (reached leads names name).card

theorem rank_le (leads : String → String → Prop) (names : List String) (name : String) :
    rank leads names name ≤ names.length := by
  classical
  calc (reached leads names name).card
      ≤ names.toFinset.card := Finset.card_le_card (Finset.filter_subset _ _)
    _ ≤ names.length := names.toFinset_card_le

/-- A name of the list reaches itself. -/
theorem rank_pos (listed : name ∈ names) : 0 < rank leads names name :=
  Finset.card_pos.mpr ⟨name, mem_reached.mpr ⟨listed, .refl⟩⟩

/-- A name that is not in the list and leads nowhere reaches no name of the list. -/
theorem rank_eq_zero (unlisted : name ∉ names) (final : ∀ next, ¬leads name next) :
    rank leads names name = 0 := by
  apply Finset.card_eq_zero.mpr
  apply Finset.eq_empty_of_forall_notMem
  intro later member
  obtain ⟨listed, reaches⟩ := mem_reached.mp member
  rcases Relation.ReflTransGen.cases_head reaches with rfl | ⟨next, leadsOn, _⟩
  · exact unlisted listed
  · exact final next leadsOn

/-- The next name reaches fewer names, since the one before it is out of its reach. -/
theorem rank_lt (acyclic : Acyclic leads) (listed : name ∈ names) (leadsOn : leads name next) :
    rank leads names next < rank leads names name := by
  have fewer : reached leads names next ⊆ reached leads names name := by
    intro later member
    obtain ⟨among, reaches⟩ := mem_reached.mp member
    exact mem_reached.mpr ⟨among, .head leadsOn reaches⟩
  apply Finset.card_lt_card
  refine (Finset.ssubset_iff_of_subset fewer).mpr ⟨name, mem_reached.mpr ⟨listed, .refl⟩, ?_⟩
  intro member
  exact acyclic name (.head' leadsOn (mem_reached.mp member).2)

end Statute.Ranking
