/-
This file proves which claims the queries of a store find.
-/

import Mathlib.Data.List.Perm.Basic
import Statute.Proofs.Claim.History

namespace Statute

/-- Filters that keep the same items up to order keep the same items. -/
theorem filter_perm_filter_iff {α : Type} {items : List α} {wide narrow : α → Bool}
    (within : ∀ item ∈ items, narrow item = true → wide item = true) :
    (items.filter wide).Perm (items.filter narrow) ↔
      ∀ item ∈ items, wide item = true → narrow item = true := by
  constructor
  · intro perm item member kept
    have kept := perm.mem_iff.mp (List.mem_filter.mpr ⟨member, kept⟩)
    exact (List.mem_filter.mp kept).2
  · intro back
    have same : items.filter wide = items.filter narrow :=
      List.filter_congr fun item member =>
        Bool.eq_iff_iff.mpr ⟨back item member, within item member⟩
    rw [same]

namespace ClaimStore

/-- The stored claims in the order of their first filing. -/
def stored (store : ClaimStore) : List Claim :=
  Association.values store.claims

/-- True when some version of a claim had what a test asks for. -/
def everHad (versions : List Claim) (test : Claim → Bool) (claim : Claim) : Bool :=
  versions.any fun version => version.id = claim.id && test version

namespace Filed

variable {versions : List Claim} {store : ClaimStore}

theorem mem_stored (filed : store.Filed versions) {claim : Claim} :
    claim ∈ store.stored ↔ Association.get? claim.id store.claims = some claim := by
  rw [Association.get?_eq_some_iff filed.distinct, stored, Association.values, List.mem_map]
  constructor
  · rintro ⟨⟨id, found⟩, member, rfl⟩
    have named := filed.named id found ((Association.get?_eq_some_iff filed.distinct).mpr member)
    rwa [named]
  · exact fun member => ⟨_, member, rfl⟩

/-- Claims are stored under different identifiers. -/
theorem stored_ids (filed : store.Filed versions) :
    store.stored.map Claim.id = store.claims.map Prod.fst := by
  rw [stored, Association.values, List.map_map]
  refine List.map_congr_left fun pair member => ?_
  exact filed.named pair.1 pair.2 ((Association.get?_eq_some_iff filed.distinct).mpr member)

theorem stored_nodup (filed : store.Filed versions) : store.stored.Nodup :=
  .of_map Claim.id (filed.stored_ids ▸ filed.distinct)

/-- A selection of the claims that pass a test keeps the order of their first filing. -/
theorem select_idsWhere (filed : store.Filed versions) (test : Claim → Bool)
    (filter : ClaimFilter) :
    store.select (store.idsWhere test) filter =
      store.stored.filter fun claim => test claim && filter.admits claim.status := by
  have found : (store.idsWhere test).filterMap (fun id => Association.get? id store.claims) =
      store.stored.filter test := by
    rw [idsWhere, List.filterMap_map, stored, Association.values, List.filter_map,
      ← List.filterMap_eq_map]
    refine List.filterMap_congr fun pair member => ?_
    exact (Association.get?_eq_some_iff filed.distinct).mpr (List.mem_of_mem_filter member)
  rw [select, found, List.filter_filter]
  exact List.filter_congr fun claim _ => Bool.and_comm _ _

/-- A selection holds the stored claims of its identifiers, each once. -/
theorem select_perm (filed : store.Filed versions) {ids : List ClaimId} (nodup : ids.Nodup)
    {filter : ClaimFilter} {test : Claim → Bool}
    (isListed : ∀ claim ∈ store.stored, claim.id ∈ ids ↔ test claim = true) :
    (store.select ids filter).Perm
      (store.stored.filter fun claim => test claim && filter.admits claim.status) := by
  have selected : (store.select ids filter).Nodup := by
    refine (nodup.filterMap fun first second claim isFirst isSecond => ?_).filter _
    rw [← filed.named _ _ isFirst, ← filed.named _ _ isSecond]
  refine (List.perm_ext_iff_of_nodup selected (filed.stored_nodup.filter _)).mpr fun claim => ?_
  rw [select, List.mem_filter, List.mem_filterMap, List.mem_filter, Bool.and_eq_true, ← and_assoc]
  refine and_congr_left fun _ => ?_
  constructor
  · rintro ⟨id, listed, there⟩
    obtain rfl : claim.id = id := filed.named id claim there
    have member := filed.mem_stored.mpr there
    exact ⟨member, (isListed claim member).mp listed⟩
  · rintro ⟨member, passes⟩
    exact ⟨claim.id, (isListed claim member).mpr passes, filed.mem_stored.mp member⟩

theorem had_iff {κ : Type} {has : κ → Claim → Prop} [∀ key claim, Decidable (has key claim)]
    (key : κ) (claim : Claim) :
    Had versions has key claim.id ↔ everHad versions (fun version => has key version) claim = true := by
  simp [Had, everHad]

/-- What a stored claim has, a version of it had. -/
theorem everHad_of_has (filed : store.Filed versions) {test : Claim → Bool} :
    ∀ claim ∈ store.stored, test claim = true → everHad versions test claim = true := by
  intro claim member passes
  have latest := filed.latest _ _ (filed.mem_stored.mp member)
  simp only [everHad, List.any_eq_true, Bool.and_eq_true, decide_eq_true_eq]
  exact ⟨claim, latest, rfl, passes⟩

theorem ofService (filed : store.Filed versions) (service : String) (filter : ClaimFilter) :
    store.ofService service filter =
      store.stored.filter fun claim =>
        claim.matter.service = service && filter.admits claim.status := by
  rw [ClaimStore.ofService, filed.byService, filed.select_idsWhere]

theorem ofPerson (filed : store.Filed versions) (person : String) (filter : ClaimFilter) :
    store.ofPerson person filter =
      store.stored.filter fun claim =>
        claim.matter.person = person && filter.admits claim.status := by
  rw [ClaimStore.ofPerson, filed.byPerson, filed.select_idsWhere]

theorem ofCase (filed : store.Filed versions) (case : CaseId) (filter : ClaimFilter) :
    (store.ofCase case filter).Perm (store.stored.filter fun claim =>
      everHad versions (fun version => version.linkedCase = some case) claim &&
        filter.admits claim.status) :=
  filed.select_perm (filed.byCase.nodup case) fun claim _ => by
    rw [filed.byCase.mem, had_iff]

theorem ofClaimant (filed : store.Filed versions) (claimant : String) (filter : ClaimFilter) :
    (store.ofClaimant claimant filter).Perm (store.stored.filter fun claim =>
      everHad versions (fun version => version.claimant = claimant) claim &&
        filter.admits claim.status) :=
  filed.select_perm (filed.byClaimant.nodup claimant) fun claim _ => by
    rw [filed.byClaimant.mem, had_iff]

end Filed

/-- A filter for claims of any status admits every claim. -/
theorem admits_all (status : ClaimStatus) : ClaimFilter.all.admits status = true := by
  cases status <;> rfl

/-- Queries by service and by person find exactly the stored claims with that service or person,
each once. Queries by case and by claimant find the stored claims that ever had that case or
claimant, each once, so they are exact as long as no claim was filed again with another one. -/
theorem run_queries (commands : List ClaimCommand) :
    let store := empty.run commands
    let versions := empty.versions commands
    store.stored.Nodup ∧
    (∀ service, store.ofService service .all =
      store.stored.filter fun claim => claim.matter.service = service) ∧
    (∀ person, store.ofPerson person .all =
      store.stored.filter fun claim => claim.matter.person = person) ∧
    (∀ case,
      (store.ofCase case .all).Perm
        (store.stored.filter (everHad versions fun version => version.linkedCase = some case)) ∧
      ((store.ofCase case .all).Perm
          (store.stored.filter fun claim => claim.linkedCase = some case) ↔
        ∀ claim ∈ store.stored,
          everHad versions (fun version => version.linkedCase = some case) claim = true →
          claim.linkedCase = some case)) ∧
    (∀ claimant,
      (store.ofClaimant claimant .all).Perm
        (store.stored.filter (everHad versions fun version => version.claimant = claimant)) ∧
      ((store.ofClaimant claimant .all).Perm
          (store.stored.filter fun claim => claim.claimant = claimant) ↔
        ∀ claim ∈ store.stored,
          everHad versions (fun version => version.claimant = claimant) claim = true →
          claim.claimant = claimant)) := by
  intro store versions
  have filed : store.Filed versions := Filed.empty.run commands
  have everCase (case : CaseId) : (store.ofCase case .all).Perm
      (store.stored.filter (everHad versions fun version => version.linkedCase = some case)) := by
    simpa only [admits_all, Bool.and_true] using filed.ofCase case .all
  have everClaimant (claimant : String) : (store.ofClaimant claimant .all).Perm
      (store.stored.filter (everHad versions fun version => version.claimant = claimant)) := by
    simpa only [admits_all, Bool.and_true] using filed.ofClaimant claimant .all
  refine ⟨filed.stored_nodup, fun service => ?_, fun person => ?_, fun case => ⟨everCase case, ?_⟩,
    fun claimant => ⟨everClaimant claimant, ?_⟩⟩
  · simpa only [admits_all, Bool.and_true] using filed.ofService service .all
  · simpa only [admits_all, Bool.and_true] using filed.ofPerson person .all
  · rw [(everCase case).congr_left, filter_perm_filter_iff filed.everHad_of_has]
    simp only [decide_eq_true_eq]
  · rw [(everClaimant claimant).congr_left, filter_perm_filter_iff filed.everHad_of_has]
    simp only [decide_eq_true_eq]

/-- An income that is claimed for a case by the person, and again by a guardian without a case. -/
def guardianCommands : List ClaimCommand :=
  let matter : Matter := ⟨"111", "BELASTINGDIENST", "awir"⟩
  [.submit ⟨matter, "income", .int 100, none, "", "111", some ⟨1⟩, none, false⟩,
    .submit ⟨matter, "income", .int 200, none, "", "guardian", none, none, false⟩]

/-- The claim is still found by the person who no longer makes it and by the case that it is no
longer linked to. -/
theorem run_queries_stale :
    let store := empty.run guardianCommands
    ¬(store.ofClaimant "111" .all).Perm
        (store.stored.filter fun claim => claim.claimant = "111") ∧
      ¬(store.ofCase ⟨1⟩ .all).Perm
        (store.stored.filter fun claim => claim.linkedCase = some ⟨1⟩) := by
  refine ⟨fun perm => ?_, fun perm => ?_⟩
  · exact absurd perm.length_eq (by decide)
  · exact absurd perm.length_eq (by decide)

end ClaimStore

end Statute
