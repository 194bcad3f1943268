/-
This file says which kinds of events the rules of a catalog let follow each other, and ranks them.
-/

import Mathlib.Data.Finset.Card
import Mathlib.Logic.Relation
import Statute.Case.Event
import Statute.Rule.Catalog

namespace Statute

/-- The kind of the event that a method records. -/
def UpdateMethod.eventKind : UpdateMethod → EventKind
  | objectionStatus => .objectionStatusDetermined
  | objectionAdmissibility => .objectionAdmissibilityDetermined
  | appealStatus => .appealStatusDetermined

/-- The kinds of events that methods record. -/
def EventKind.determined : Finset EventKind :=
  {.objectionStatusDetermined, .objectionAdmissibilityDetermined, .appealStatusDetermined}

theorem UpdateMethod.eventKind_mem (method : UpdateMethod) :
    method.eventKind ∈ EventKind.determined := by
  cases method <;> decide

namespace Catalog

variable {catalog : Catalog} {kind next : EventKind}

/-- Some declaration waits for events of a kind, whatever their data, and has an update whose method
records the next kind. -/
def LeadsTo (catalog : Catalog) (kind next : EventKind) : Prop :=
  ∃ rule ∈ catalog.rules, ∃ declaration ∈ rule.properties.declarations,
    declaration.aggregate ≠ "" ∧
    (∃ pattern ∈ declaration.events,
      pattern.eventType.map Char.toLower = kind.name.map Char.toLower) ∧
    ∃ update ∈ declaration.updates, ∃ method,
      UpdateMethod.parse update.method = .ok method ∧ method.eventKind = next

/-- No kind of event leads back to itself. -/
def Acyclic (catalog : Catalog) : Prop :=
  ∀ kind, ¬Relation.TransGen catalog.LeadsTo kind kind

theorem LeadsTo.mem_determined (leads : catalog.LeadsTo kind next) :
    next ∈ EventKind.determined := by
  obtain ⟨_, _, _, _, _, _, _, _, method, _, rfl⟩ := leads
  exact method.eventKind_mem

open Classical in
/-- The kinds of events that a kind leads to. -/
noncomputable def following (catalog : Catalog) (kind : EventKind) : Finset EventKind :=
  EventKind.determined.filter (Relation.TransGen catalog.LeadsTo kind)

theorem mem_following {later : EventKind} :
    later ∈ catalog.following kind ↔
      later ∈ EventKind.determined ∧ Relation.TransGen catalog.LeadsTo kind later := by
  classical
  exact Finset.mem_filter

/-- The number of kinds that a kind of event leads to. -/
noncomputable def rank (catalog : Catalog) (kind : EventKind) : Nat :=
  (catalog.following kind).card

theorem rank_le (catalog : Catalog) (kind : EventKind) : catalog.rank kind ≤ 3 :=
  Finset.card_le_card fun _ member => (mem_following.mp member).1

/-- What follows leads to fewer kinds, since it does not lead to itself. -/
theorem Acyclic.rank_lt (acyclic : catalog.Acyclic) (leads : catalog.LeadsTo kind next) :
    catalog.rank next < catalog.rank kind := by
  have fewer : catalog.following next ⊆ catalog.following kind := by
    intro later member
    obtain ⟨isDetermined, reached⟩ := mem_following.mp member
    exact mem_following.mpr ⟨isDetermined, .head leads reached⟩
  apply Finset.card_lt_card
  refine (Finset.ssubset_iff_of_subset fewer).mpr ⟨next, ?_, fun member => ?_⟩
  · exact mem_following.mpr ⟨leads.mem_determined, .single leads⟩
  · exact acyclic next (mem_following.mp member).2

end Catalog

end Statute
