/-
This file proves that evaluations see of a store what its claims assert, and nothing else.
-/

import Statute.Proofs.Claim.Queries

namespace Statute

namespace Claim

/-- Approved claims always count, pending ones unless only approved ones do, rejected ones never. -/
def counts (approvedOnly : Bool) (claim : Claim) : Bool :=
  match claim.status with
  | .approved => true
  | .pending => !approvedOnly
  | .rejected => false

/-- The value that evaluations use, with what it is a value of. -/
def assertion (claim : Claim) : Matter × String × Value :=
  (claim.matter, claim.key, claim.effectiveValue)

/-- The filter of evaluations admits the claims that count. -/
theorem admits_status (approvedOnly : Bool) (claim : Claim) :
    ClaimFilter.admits ⟨approvedOnly, false⟩ claim.status = claim.counts approvedOnly := by
  unfold counts
  cases claim.status <;> simp [ClaimFilter.admits]

end Claim

namespace ClaimStore

/-- What the counting claims about a person assert, in the order of their first filing. -/
def assertions (store : ClaimStore) (approvedOnly : Bool) (person : String) :
    List (Matter × String × Value) :=
  (store.stored.filter fun claim =>
    claim.matter.person = person && claim.counts approvedOnly).map Claim.assertion

/-- The counting claims of two stores assert the same about everybody. -/
def AssertsAlike (approvedOnly : Bool) (first second : ClaimStore) : Prop :=
  ∀ person, first.assertions approvedOnly person = second.assertions approvedOnly person

namespace Filed

variable {versions firstVersions secondVersions : List Claim} {store first second : ClaimStore}

/-- A claim of a matter is found under its key when it counts. -/
theorem mem_ofMatter (filed : store.Filed versions) {matter : Matter} {filter : ClaimFilter}
    {key : String} {claim : Claim} :
    (key, claim) ∈ store.ofMatter matter filter ↔
      claim ∈ store.stored ∧ claim.matter = matter ∧ claim.key = key ∧
        filter.admits claim.status = true := by
  simp only [ofMatter, List.mem_filterMap, Prod.exists, filed.mem_stored]
  constructor
  · rintro ⟨other, id, listed, chosen⟩
    obtain ⟨found, there, isMatter, isKey⟩ :=
      (filed.byMatter matter other id).mp ((filed.sorted matter).get?_eq_some_iff.mpr listed)
    simp only [there, Option.ite_none_right_eq_some, Option.some.injEq, Prod.mk.injEq] at chosen
    obtain ⟨admitted, rfl, rfl⟩ := chosen
    rw [filed.named id found there]
    exact ⟨there, isMatter, isKey, admitted⟩
  · rintro ⟨there, isMatter, isKey, admitted⟩
    have listed := (filed.byMatter matter key claim.id).mpr ⟨claim, there, isMatter, isKey⟩
    refine ⟨key, claim.id, (filed.sorted matter).get?_eq_some_iff.mp listed, ?_⟩
    simp [there, admitted]

/-- The values of a matter are what its counting claims assert. -/
theorem mem_ownValues (filed : store.Filed versions) {matter : Matter} {approvedOnly : Bool}
    {pair : String × Value} :
    pair ∈ Entries.mapValues Claim.effectiveValue (store.ofMatter matter ⟨approvedOnly, false⟩) ↔
      (matter, pair) ∈ store.assertions approvedOnly matter.person := by
  obtain ⟨key, value⟩ := pair
  simp only [Entries.mapValues, assertions, Claim.assertion, List.mem_map, Prod.exists,
    filed.mem_ofMatter, Claim.admits_status, List.mem_filter, Bool.and_eq_true, decide_eq_true_eq,
    Prod.mk.injEq]
  constructor
  · rintro ⟨_, claim, ⟨member, rfl, rfl, counted⟩, rfl, rfl⟩
    exact ⟨claim, ⟨member, rfl, counted⟩, rfl, rfl, rfl⟩
  · rintro ⟨claim, ⟨member, _, counted⟩, rfl, rfl, rfl⟩
    exact ⟨_, claim, ⟨member, rfl, rfl, counted⟩, rfl, rfl⟩

theorem sorted_ofMatter (filed : store.Filed versions) (matter : Matter) (filter : ClaimFilter) :
    (store.ofMatter matter filter).Sorted := by
  refine (filed.sorted matter).filterMap ?_
  rintro ⟨key, id⟩ chosen isChosen
  cases found : Association.get? id store.claims with
  | none => simp [found] at isChosen
  | some claim =>
      simp only [found, Option.ite_none_right_eq_some, Option.some.injEq] at isChosen
      rw [← isChosen.2]

/-- Values depend on what counting claims about the person assert. -/
theorem values_congr (isFirst : first.Filed firstVersions) (isSecond : second.Filed secondVersions)
    {matter : Matter} {approvedOnly : Bool}
    (same : first.assertions approvedOnly matter.person =
      second.assertions approvedOnly matter.person) :
    first.values matter approvedOnly = second.values matter approvedOnly := by
  have anywhere {store : ClaimStore} {versions : List Claim} (filed : store.Filed versions) :
      (store.ofPerson matter.person ⟨approvedOnly, false⟩).map
          (fun claim => (claim.key, claim.effectiveValue)) =
        (store.assertions approvedOnly matter.person).map Prod.snd := by
    simp only [filed.ofPerson, Claim.admits_status, assertions, List.map_map]
    rfl
  have own : Entries.mapValues Claim.effectiveValue (first.ofMatter matter ⟨approvedOnly, false⟩) =
      Entries.mapValues Claim.effectiveValue (second.ofMatter matter ⟨approvedOnly, false⟩) := by
    refine ((isFirst.sorted_ofMatter matter _).mapValues _).eq_of_mem_iff
      ((isSecond.sorted_ofMatter matter _).mapValues _) fun pair => ?_
    rw [isFirst.mem_ownValues, isSecond.mem_ownValues, same]
  simp only [values, anywhere isFirst, anywhere isSecond, same, own]

end Filed

/-- Evaluations see the same in reachable stores that assert the same. -/
theorem lookup_congr {first second : ClaimStore} {approvedOnly : Bool} (isFirst : first.Reachable)
    (isSecond : second.Reachable) (same : first.AssertsAlike approvedOnly second)
    (person service law : String) :
    first.lookup person service law approvedOnly = second.lookup person service law approvedOnly := by
  obtain ⟨firstCommands, rfl⟩ := isFirst
  obtain ⟨secondCommands, rfl⟩ := isSecond
  exact (Filed.empty.run firstCommands).values_congr (Filed.empty.run secondCommands) (same person)

end ClaimStore

end Statute
