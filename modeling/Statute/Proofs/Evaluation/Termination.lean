/-
This file proves that evaluations end where neither properties nor laws lead back to themselves.
-/

import Statute.Proofs.Evaluation.Nesting
import Statute.Proofs.Evaluation.Preparation
import Statute.Proofs.Rule.Versions

namespace Statute

namespace Catalog

variable {catalog : Catalog} {law next : String} {rule : Rule}

/-- Some version of a law has a property that takes its value from the next law. -/
def Calls (catalog : Catalog) (law next : String) : Prop :=
  ∃ rule ∈ catalog.versions law, ∃ property ∈ rule.declaredProperties, ∃ reference,
    property.serviceReference = some reference ∧ reference.law = next

/-- Neither the properties of a version nor laws lead back to themselves. -/
structure IsGrounded (catalog : Catalog) : Prop where
  properties : ∀ rule ∈ catalog.rules,
    Ranking.Acyclic (Property.LeadsTo (Rule.propertyTable rule.declaredProperties))
  laws : Ranking.Acyclic catalog.Calls

theorem mem_rules_of_versions (version : rule ∈ catalog.versions law) : rule ∈ catalog.rules := by
  unfold versions at version
  cases found : Entries.get? law catalog with
  | none => simp [found] at version
  | some listed =>
      rw [found] at version
      exact List.mem_flatMap.mpr ⟨_, Entries.mem_of_get? found, version⟩

theorem mem_keys_of_versions (version : rule ∈ catalog.versions law) :
    law ∈ Entries.keys catalog := by
  by_contra unlisted
  rw [versions, Entries.get?_eq_none_iff.mpr unlisted] at version
  cases version

/-- The version that a service selects is one of the law's versions. -/
theorem mem_versions_of_select {date : Date} {service : String}
    (selected : catalog.select law date service = .ok rule) : rule ∈ catalog.versions law := by
  unfold select at selected
  split at selected
  · cases selected
  · rename_i version found
    split at selected <;> cases selected
    exact List.mem_reverse.mp (List.mem_of_find?_eq_some found)

/-- The number of laws with versions that a law reaches by calls. -/
noncomputable def depth (catalog : Catalog) (law : String) : Nat :=
  Ranking.rank catalog.Calls (Entries.keys catalog) law

theorem depth_le (catalog : Catalog) (law : String) : catalog.depth law ≤ catalog.length := by
  have names : (Entries.keys catalog).length = catalog.length := List.length_map Prod.fst
  exact names ▸ Ranking.rank_le _ _ _

theorem depth_lt (acyclic : Ranking.Acyclic catalog.Calls) (calls : catalog.Calls law next) :
    catalog.depth next < catalog.depth law := by
  have ⟨_, version, _⟩ := calls
  exact Ranking.rank_lt acyclic (mem_keys_of_versions version) calls

end Catalog

namespace Registry

variable {registry : Registry} {claims : Option ClaimLookup} {first second : Provider}

theorem isShallow_areClosed : EvaluationError.AreClosed EvaluationError.IsShallow :=
  ⟨fun _ shallow => shallow, fun _ _ _ shallow => shallow⟩

/-- A service answers a request in the same way when the calls of the law are answered so. -/
theorem evaluateLaw_settled (grounded : registry.catalog.IsGrounded) {law : String}
    (answers : ∀ next, registry.catalog.Calls law next → Provider.SettlesLaw
      (Shared.Follows registry.catalog) EvaluationError.IsShallow next first second)
    {request : Request} (requested : request.law = law) (date : Date) {shared : Shared}
    (follows : shared.Follows registry.catalog) :
    registry.evaluateLaw first claims request date shared =
        registry.evaluateLaw second claims request date shared ∧
      Settled (Shared.Follows registry.catalog) EvaluationError.IsShallow
        (registry.evaluateLaw second claims request date shared).1
        (registry.evaluateLaw second claims request date shared).2 := by
  subst requested
  unfold evaluateLaw
  cases selected : registry.catalog.select request.law date request.service with
  | error cause =>
      rw [prepare_error follows selected]
      refine ⟨rfl, follows, ?_⟩
      rintro _ ⟨⟩
      simp
  | ok rule =>
      have version := Catalog.mem_versions_of_select selected
      have still := registry.preparesKeeping_follows request.service request.law date shared follows
      have isRule := prepare_ok follows selected
      cases prepared : registry.prepare request.service request.law date shared with
      | mk result after =>
          rw [prepared] at still isRule
          obtain rfl : result = .ok rule := isRule
          refine Rule.evaluate_settled ?_ still
          refine ⟨Shared.Follows.lasts _, isShallow_areClosed,
            grounded.properties rule (Catalog.mem_rules_of_versions version), ?_⟩
          intro name property reference declared refers
          have isListed := (Property.declared_of_get? declared).1
          exact answers _ ⟨rule, version, property, isListed, reference, refers, rfl⟩

/-- Laws are answered in the same way with any fuel that is more than the laws that they reach. -/
theorem provider_settles (grounded : registry.catalog.IsGrounded) {law : String}
    {fuel larger : Nat} (enough : registry.catalog.depth law < fuel)
    (alsoEnough : registry.catalog.depth law < larger) :
    Provider.SettlesLaw (Shared.Follows registry.catalog) EvaluationError.IsShallow law
      (registry.provider claims fuel) (registry.provider claims larger) := by
  -- The law that is called reaches fewer laws, so one less of either fuel is still enough for it.
  induction fuel generalizing law larger with
  | zero => omega
  | succ fuel inductionHypothesis =>
      obtain ⟨larger, rfl⟩ : ∃ less, larger = less + 1 := ⟨larger - 1, by omega⟩
      intro request shared requested follows
      rw [provider, provider]
      split
      · refine ⟨rfl, follows, ?_⟩
        rintro _ ⟨⟩
        simp
      · split
        · refine evaluateLaw_settled grounded (fun next calls => ?_) requested _ follows
          have fewer := Catalog.depth_lt grounded.laws calls
          exact inductionHypothesis (by omega) (by omega)
        · refine ⟨rfl, follows, ?_⟩
          rintro _ ⟨⟩
          simp

/-- Where neither properties nor laws lead back to themselves, every request is answered without
running out of fuel, and more fuel for calls or for paths gives the same answer. -/
theorem evaluate_terminates (grounded : registry.catalog.IsGrounded) (claims : Option ClaimLookup)
    (request : Request) {shared : Shared} (follows : shared.Follows registry.catalog) :
    (∀ error, (registry.evaluate claims request shared).1 = .error error → error.IsShallow) ∧
    (registry.evaluate claims request shared).2.Follows registry.catalog ∧
    (∀ fuel, registry.catalog.length < fuel →
      registry.provider claims fuel request shared = registry.evaluate claims request shared) ∧
    ∀ rule ∈ registry.catalog.rules, ∀ surroundings : Surroundings,
      surroundings.properties = Rule.propertyTable rule.declaredProperties →
      ∀ fuel, Resolution.nestingLimit surroundings.properties ≤ fuel → ∀ path progress,
        (Resolution.lookUp fuel path).runFrom surroundings progress =
          (Evaluation.valueOf path).runFrom surroundings progress := by
  have limited := registry.catalog.depth_le request.law
  have enough : registry.catalog.depth request.law < registry.nestingLimit + 1 := by
    unfold nestingLimit
    omega
  have settles (fuel : Nat) (more : registry.catalog.length < fuel) :=
    have deep : registry.catalog.depth request.law < fuel := by omega
    @provider_settles registry claims grounded request.law fuel _ deep enough request shared rfl
      follows
  obtain ⟨_, settled⟩ := settles (registry.nestingLimit + 1) (by unfold nestingLimit; omega)
  refine ⟨settled.cause, settled.state, fun fuel more => (settles fuel more).1, ?_⟩
  intro rule version surroundings declared fuel more path progress
  have acyclic := grounded.properties rule version
  rw [← declared] at acyclic
  exact Resolution.lookUp_of_enough acyclic more path progress

end Registry

/-- A supplement to which the income of the partner is added. The tax office is asked for it with a
field of another property, the partner's row in a table. -/
def partnerRule : Rule :=
  { supplementRule with
    properties := { Properties.empty with
      inputs := [⟨"partner", none, none, none, none, none, some ⟨none, "persons", none, none, []⟩,
          false⟩,
        ⟨"partner_income", none, some "amount", none, none,
          some ⟨"BELASTINGDIENST", "income", "awir", [⟨"BSN", .string "$partner.bsn"⟩]⟩, none,
          false⟩] }
    actions := [⟨"amount", none, some { Operation.named "ADD" with
      values := some (.list [.literal (.int 1200), .literal (.string "$partner_income")]) }⟩] }

/-- The services of the income and the supplement with a partner, who is in the table of persons. -/
def partnerRegistry : Registry :=
  ⟨[("awir", [incomeRule]), ("zorgtoeslagwet", [partnerRule])], default,
    [("TOESLAGEN", [("persons", .stored [[("bsn", .string "222")]])])]⟩

/-- The partner has declared an income. -/
def partnerClaims : ClaimLookup :=
  fun person _ _ _ => if person = "222" then [("declared", .int 30000)] else []

/-- The income leads nowhere, and the partner's income leads to the shorter name of the partner. -/
theorem partnerRegistry_isGrounded : partnerRegistry.catalog.IsGrounded := by
  refine ⟨fun rule member => Ranking.Acyclic.of_measure String.length ?_,
    Ranking.Acyclic.of_measure String.length ?_⟩
  · rintro name next ⟨property, found, _, path, mentioned, isNext⟩
    obtain ⟨listed, rfl⟩ := Property.declared_of_get? found
    simp only [partnerRegistry, Catalog.rules, List.flatMap_cons, List.flatMap_nil,
      List.append_nil, List.mem_append, List.mem_singleton] at member
    rcases member with rfl | rfl
    · obtain rfl := List.mem_singleton.mp listed
      cases mentioned
    · rcases List.mem_cons.mp listed with rfl | later
      · cases mentioned
      · obtain rfl := List.mem_singleton.mp later
        obtain rfl : path = "partner.bsn" := List.mem_singleton.mp mentioned
        have short : next.length ≤ "partner.bsn".length := by
          rcases isNext with rfl | ⟨rest, isPath⟩
          · exact Nat.le_refl _
          · rw [isPath, String.length_append, String.length_append]
            omega
        exact Nat.lt_of_le_of_lt short (by decide)
  · rintro law next ⟨rule, version, property, declared, reference, refers, rfl⟩
    simp only [partnerRegistry, Catalog.versions, Entries.get?] at version
    split at version
    · obtain rfl := List.mem_singleton.mp version
      obtain rfl := List.mem_singleton.mp declared
      cases refers
    · split at version
      · rename_i isLaw
        obtain rfl := List.mem_singleton.mp version
        rcases List.mem_cons.mp declared with rfl | later
        · cases refers
        · obtain rfl := List.mem_singleton.mp later
          cases refers
          subst isLaw
          decide
      · cases version

/-- Fuel for the two laws, one behind the other, is enough for the supplement. -/
theorem Registry.evaluate_terminates_partner :
    partnerRegistry.catalog.IsGrounded ∧ Shared.initial.Follows partnerRegistry.catalog ∧
    ∀ fuel, 2 < fuel →
      (partnerRegistry.provider (some partnerClaims) fuel (supplementRequest true)
        .initial).1.toOption.map (fun outcome => outcome.output.map fun pair =>
          (pair.1, pair.2.text)) = some [("amount", "31200")] := by
  have follows : Shared.initial.Follows partnerRegistry.catalog := by
    simp [Shared.Follows, Shared.initial]
  obtain ⟨_, _, same, _⟩ := evaluate_terminates partnerRegistry_isGrounded (some partnerClaims)
    (supplementRequest true) follows
  have laws : partnerRegistry.catalog.length = 2 := rfl
  rw [laws] at same
  refine ⟨partnerRegistry_isGrounded, follows, fun fuel more => ?_⟩
  rw [same fuel more, ← same 3 (by decide)]
  decide +kernel

end Statute
