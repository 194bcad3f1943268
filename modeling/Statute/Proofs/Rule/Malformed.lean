/-
This file proves that requirements always hold which are written as operations or groups without being
well formed.
-/

import Statute.Proofs.Evaluation.Outcome
import Statute.Proofs.Rule.Reading
import Statute.Service.Registry

namespace Statute

open Document (object array)

namespace Requirement

variable {members : List (String × Document)}

/-- An object that names an operation or a group, but is neither. -/
structure IsMalformed (members : List (String × Document)) : Prop where
  meant : (∃ name, Entries.get? "operation" members = some (.string name)) ∨
    (Entries.get? "all" members).isSome ∨ (Entries.get? "or" members).isSome
  noGroup : ¬IsGroup members
  noOperation : ¬Operation.IsWritten members

/-- A malformed requirement tests its own record. -/
theorem ofDocument_malformed (malformed : IsMalformed members) :
    ofDocument (object members) = .test (.literal (Value.ofDocument (object members))) := by
  rw [ofDocument_test malformed.noGroup, Expr.ofDocument_object,
    Operation.ofMembers?_eq_none malformed.noOperation]

/-- The record of a malformed requirement has a field at least, so it counts as true. -/
theorem IsMalformed.isTruthy (malformed : IsMalformed members) :
    (Value.ofDocument (object members)).isTruthy = true := by
  cases members with
  | nil => simpa [Entries.get?] using malformed.meant
  | cons head rest => rfl

/-- A malformed requirement holds, whatever else it says, and leaves only its node. -/
theorem runFrom_check_malformed (malformed : IsMalformed members) (lookUp : LookUp)
    (surroundings : Surroundings) (progress : Progress) :
    ((ofDocument (object members)).check lookUp).runFrom surroundings progress =
      (.ok true,
        (progress.inside (TraceNode.fresh .requirement "Test condition")).outside (.bool true)) := by
  have resolved : (Value.ofDocument (object members)).resolve lookUp =
      pure (Value.ofDocument (object members)) := by
    rw [Value.ofDocument]
    rfl
  rw [ofDocument_malformed malformed, check, checked, Evaluation.runFrom_inNode, Expr.evaluate,
    resolved]
  simp [malformed.isTruthy, label]

/-- So do any number of them, unless the evaluation is cancelled. -/
theorem runFrom_checkEach_malformed {documents : List Document}
    (malformed : ∀ document ∈ documents, ∃ members, document = object members ∧
      IsMalformed members)
    {surroundings : Surroundings} {progress : Progress} (lookUp : LookUp)
    (runs : surroundings.cancellation.isRaised progress.shared = false) :
    ∃ after, (checkEach lookUp (documents.map ofDocument)).runFrom surroundings progress =
      (.ok true, after) ∧ after.missingRequired = progress.missingRequired := by
  induction documents generalizing progress with
  | nil => exact ⟨progress, rfl, rfl⟩
  | cons document rest inductionHypothesis =>
      obtain ⟨members, rfl, isMalformed⟩ := malformed document List.mem_cons_self
      have unraised : Evaluation.checkCancelled.runFrom surroundings progress =
          (.ok (), progress) := by
        rw [Evaluation.runFrom_checkCancelled, runs]
        rfl
      rw [List.map_cons, checkEach, Evaluation.runFrom_bind_of_ok unraised,
        Evaluation.runFrom_bind_of_ok (runFrom_check_malformed isMalformed lookUp _ _)]
      exact inductionHypothesis
        (fun other isOther => malformed other (List.mem_cons_of_mem _ isOther)) runs

theorem checkRequirements_malformed {rule : Rule} {documents : List Document}
    (malformed : ∀ document ∈ documents, ∃ members, document = object members ∧
      IsMalformed members)
    (isRead : rule.requirements = documents.map ofDocument) {surroundings : Surroundings}
    {progress : Progress} (runs : surroundings.cancellation.isRaised progress.shared = false)
    (complete : progress.missingRequired = false) :
    (rule.checkRequirements.runFrom surroundings progress).1 = .ok true := by
  obtain ⟨after, held, unnoted⟩ := @runFrom_checkEach_malformed documents malformed surroundings
    (progress.inside (TraceNode.fresh .requirements "Check all requirements")) Evaluation.valueOf runs
  rw [Rule.checkRequirements, Evaluation.runFrom_inNode, isRead, Evaluation.runFrom_bind_of_ok held,
    Evaluation.runFrom_bind_of_ok (Evaluation.runFrom_isMissing _ _)]
  have unmissed : after.missingRequired = false := unnoted.trans complete
  simp [unmissed]

/-- An object is an operation exactly when its name is a text, its conditions are a list of conditions
and its combination and unit are texts, where the last three may be left out. Every other object is
a literal record. An object with an array of all members, or else of alternatives, is a group, and every
other object a test. So a requirement that names an operation or a group and is malformed holds,
whatever its other members are, and a rule with no other requirements has its requirements met. -/
theorem malformed_holds (members : List (String × Document)) :
    (Operation.IsWritten members → ∃ node, Expr.ofDocument (object members) = .operation node ∧
      Entries.get? "operation" members = some (.string node.name)) ∧
    (¬Operation.IsWritten members →
      Expr.ofDocument (object members) = .literal (Value.ofDocument (object members))) ∧
    (∀ items, Entries.get? "all" members = some (array items) →
      ofDocument (object members) = .all (items.map ofDocument)) ∧
    (∀ items, (∀ others, Entries.get? "all" members ≠ some (array others)) →
      Entries.get? "or" members = some (array items) →
      ofDocument (object members) = .any (items.map ofDocument)) ∧
    (¬IsGroup members → ofDocument (object members) = .test (Expr.ofDocument (object members))) ∧
    (IsMalformed members → ∀ lookUp surroundings progress,
      ((ofDocument (object members)).check lookUp).runFrom surroundings progress =
        (.ok true,
          (progress.inside (TraceNode.fresh .requirement "Test condition")).outside
            (.bool true))) ∧
    ∀ (rule : Rule) (documents : List Document) (surroundings : Surroundings)
      (progress : Progress),
      (∀ document ∈ documents, ∃ members, document = object members ∧ IsMalformed members) →
      rule.requirements = documents.map ofDocument →
      surroundings.cancellation.isRaised progress.shared = false →
      progress.missingRequired = false →
      (rule.checkRequirements.runFrom surroundings progress).1 = .ok true := by
  refine ⟨?_, ?_, ?_, ?_, ?_, ?_, ?_⟩
  · intro written
    obtain ⟨node, isNode, named⟩ := Operation.ofMembers?_of_isWritten written
    exact ⟨node, by rw [Expr.ofDocument_object, isNode], named⟩
  · intro unwritten
    rw [Expr.ofDocument_object, Operation.ofMembers?_eq_none unwritten]
  · intro items listed
    exact ofDocument_all listed
  · intro items noAll listed
    exact ofDocument_any noAll listed
  · intro noGroup
    exact ofDocument_test noGroup
  · intro malformed lookUp surroundings progress
    exact runFrom_check_malformed malformed lookUp surroundings progress
  · intro rule documents surroundings progress malformed isRead runs complete
    exact checkRequirements_malformed malformed isRead runs complete

/-- The test for adults. -/
def adultTest : List (String × Document) :=
  [("operation", .string "GREATER_OR_EQUAL"), ("subject", .string "$age"), ("value", .integer 18)]

/-- A group has a list of members, but here the test stands where the list should be. -/
def adultRequirement : List (String × Document) :=
  [("all", object adultTest)]

/-- A rule for adults with the malformed requirement. -/
def adultDocument : Document :=
  object [("actions", array [object [("output", .string "allowed"), ("value", .bool true)]]),
    ("law", .string "adult"), ("name", .string "Adult"),
    ("requirements", array [object adultRequirement]), ("service", .string "A"),
    ("uuid", .string "adult-2025"), ("valid_from", .string "2025-01-01")]

def adultRule : Rule :=
  (Rule.ofDocument? adultDocument).getD default

def adultRegistry : Registry :=
  Registry.ofCatalog (Catalog.ofRules [adultRule]) adultRule.validFrom

/-- A child of five years asks. -/
def childRequest : Request :=
  ⟨"A", "adult", [("age", .int 5)], none, [], none, true, .none⟩

theorem adultRequirement_isMalformed : IsMalformed adultRequirement where
  meant := .inr (.inl rfl)
  noGroup := by
    simp [IsGroup, adultRequirement, Entries.get?]
  noOperation := by
    rintro ⟨⟨name, ⟨⟩⟩, -, -, -⟩

/-- The test itself is an operation, a list of it is a group, and the malformed group holds. -/
theorem malformed_holds_adult :
    (∃ node, Expr.ofDocument (object adultTest) = .operation node ∧
      Entries.get? "operation" adultTest = some (.string node.name)) ∧
    Expr.ofDocument (object adultRequirement) =
      .literal (Value.ofDocument (object adultRequirement)) ∧
    ofDocument (object [("all", array [object adultTest])]) =
      .all ([object adultTest].map ofDocument) ∧
    ofDocument (object [("or", array [object adultTest])]) =
      .any ([object adultTest].map ofDocument) ∧
    ofDocument (object adultTest) = .test (Expr.ofDocument (object adultTest)) ∧
    IsMalformed adultRequirement ∧
    (∀ lookUp surroundings progress,
      ((ofDocument (object adultRequirement)).check lookUp).runFrom surroundings progress =
        (.ok true,
          (progress.inside (TraceNode.fresh .requirement "Test condition")).outside
            (.bool true))) ∧
    ∀ surroundings : Surroundings,
      surroundings.cancellation.isRaised (Progress.start .initial).shared = false →
      (adultRule.checkRequirements.runFrom surroundings (Progress.start .initial)).1 =
        .ok true := by
  obtain ⟨written, -, -, -, test, -, -⟩ := malformed_holds adultTest
  obtain ⟨-, unwritten, -, -, -, check, rules⟩ := malformed_holds adultRequirement
  obtain ⟨-, -, all, -, -, -, -⟩ := malformed_holds [("all", array [object adultTest])]
  obtain ⟨-, -, -, any, -, -, -⟩ := malformed_holds [("or", array [object adultTest])]
  have isWritten : Operation.IsWritten adultTest :=
    ⟨⟨_, rfl⟩, trivial, trivial, trivial⟩
  have noGroup : ¬IsGroup adultTest := by
    simp [IsGroup, adultTest, Entries.get?]
  have noAll (others : List Document) :
      Entries.get? "all" [("or", array [object adultTest])] ≠ some (array others) := by
    simp [Entries.get?]
  have isMalformed := adultRequirement_isMalformed
  have requires : adultRule.requirements = [object adultRequirement].map ofDocument := rfl
  refine ⟨written isWritten, unwritten isMalformed.noOperation, all _ rfl, any _ noAll rfl,
    test noGroup, isMalformed, check isMalformed, ?_⟩
  intro surroundings runs
  refine rules adultRule [object adultRequirement] surroundings (Progress.start .initial) ?_ requires
    runs rfl
  intro document isOnly
  exact ⟨_, List.mem_singleton.mp isOnly, isMalformed⟩

/-- A rule for adults whose group has no list is read, its requirements are met for a child, and the
child gets the output. -/
theorem malformed_admits_child :
    ∃ (outcome : Outcome) (after : Shared),
      (Entries.get? "all" adultRequirement).isSome = true ∧
      ofDocument (object adultRequirement) =
        .test (.literal (Value.ofDocument (object adultRequirement))) ∧
      Rule.ofDocument? adultDocument = some adultRule ∧
      adultRegistry.evaluate none childRequest .initial = (.ok outcome, after) ∧
      outcome.requirementsMet = true ∧ outcome.output.map Prod.fst = ["allowed"] := by
  have isRead : Rule.ofDocument? adultDocument = some adultRule := by
    obtain ⟨rule, isRule⟩ := Option.isSome_iff_exists.mp
      (show (Rule.ofDocument? adultDocument).isSome = true by decide +kernel)
    rw [adultRule, isRule, Option.getD_some]
  have shown : (adultRegistry.evaluate none childRequest .initial).1.toOption.map (fun outcome =>
      (outcome.requirementsMet, outcome.output.map Prod.fst)) = some (true, ["allowed"]) := by
    decide +kernel
  obtain ⟨outcome, after, answered, isShown⟩ := Outcome.of_shown shown
  obtain ⟨met, output⟩ := Prod.mk.inj isShown
  exact ⟨outcome, after, rfl, ofDocument_malformed adultRequirement_isMalformed, isRead, answered, met,
    output⟩

end Requirement

end Statute
