/-
This file proves that requirements are evaluated as the formulas that they denote, wherever their
checks end early.
-/

import Statute.Proofs.Evaluation.Visibility

namespace Statute

namespace Evaluation

/-- From all that looks like the start an evaluation gives the value, unless a required value turns
out to be missing. -/
structure Yields (surroundings : Surroundings) (start : Progress) {α : Type} (value : α)
    (evaluation : Evaluation α) : Prop where
  bounded : Bounded evaluation
  gives : ∀ progress, start.LooksLike surroundings progress →
    (evaluation.runFrom surroundings progress).2.missingRequired = false →
    (evaluation.runFrom surroundings progress).1 = .ok value

namespace Yields

variable {surroundings : Surroundings} {start : Progress} {α β : Type}

theorem pure (value : α) : (Pure.pure value : Evaluation α).Yields surroundings start value :=
  ⟨.pure value, fun _ _ _ => rfl⟩

/-- An expression has the same value wherever its start is seen. -/
theorem evaluateExpr {expr : Expr} {value : Value}
    (evaluated : ((expr.evaluate valueOf).runFrom surroundings start).1 = .ok value) :
    (expr.evaluate valueOf).Yields surroundings start value := by
  refine ⟨.evaluateExpr expr, fun progress alike _ => ?_⟩
  obtain ⟨same, _⟩ := Unswayed.congruence.evaluateExpr expr start progress alike
  rw [same, evaluated]

theorem inNode (node : TraceNode) (shown : α → Value) {body : Evaluation α} {value : α}
    (plain : node.IsPlain) (yields : body.Yields surroundings start value) :
    (Evaluation.inNode node shown body).Yields surroundings start value := by
  refine ⟨.inNode shown plain.silent plain.noCall yields.bounded, fun progress alike complete => ?_⟩
  have given := yields.gives (progress.inside node)
    ⟨alike.scope, alike.outputs, alike.missing, alike.calls⟩
  rw [runFrom_inNode] at complete ⊢
  cases ran : body.runFrom surroundings (progress.inside node) with
  | mk result between =>
      rw [ran] at given complete
      cases result with
      | error cause => exact given complete
      | ok found =>
          cases given complete
          rfl

theorem checkCancelled (isClosed : surroundings.IsClosed) :
    Evaluation.checkCancelled.Yields surroundings start () := by
  refine ⟨.checkCancelled, fun progress _ _ => ?_⟩
  rw [runFrom_checkCancelled, isClosed.uncancelled]
  rfl

/-- An evaluation goes on from what looks like the start, as long as no required value is missing. -/
theorem bind (isClosed : surroundings.IsClosed) (complete : start.missingRequired = false)
    {first : Evaluation α} {next : α → Evaluation β} {value : α} {result : β}
    (yields : first.Yields surroundings start value) (bounded : ∀ value, Bounded (next value))
    (continues : (next value).Yields surroundings start result) :
    (first >>= next).Yields surroundings start result := by
  refine ⟨.bind yields.bounded bounded, fun progress alike ended => ?_⟩
  have given := yields.gives progress alike
  have grown := yields.bounded.grows surroundings progress
  cases ran : first.runFrom surroundings progress with
  | mk outcome between =>
      rw [ran] at given grown
      cases outcome with
      | error cause =>
          rw [runFrom_bind_of_error ran] at ended
          cases given ended
      | ok reached =>
          rw [runFrom_bind_of_ok ran] at ended ⊢
          have rest := (bounded reached).grows surroundings between
          have stillComplete : between.missingRequired = false :=
            Bool.eq_false_iff.mpr fun missing =>
              Bool.false_ne_true (ended.symm.trans (rest.missing missing))
          cases given stillComplete
          refine continues.gives between (alike.trans (.ofExtends isClosed grown ?_)) ended
          rw [stillComplete, alike.missing, complete]

/-- A check goes on as its verdict says. -/
theorem branch (isClosed : surroundings.IsClosed) (complete : start.missingRequired = false)
    {check : Evaluation Bool} {met unmet : Evaluation β} {verdict : Bool} {result : β}
    (yields : check.Yields surroundings start verdict) (boundedMet : Bounded met)
    (boundedUnmet : Bounded unmet)
    (continues : (if verdict then met else unmet).Yields surroundings start result) :
    (do if ← check then met else unmet).Yields surroundings start result := by
  refine yields.bind isClosed complete (fun held => ?_) continues
  split
  · exact boundedMet
  · exact boundedUnmet

/-- An evaluation that ends as soon as a required value is missing does not end early if none is. -/
theorem unlessMissing (isClosed : surroundings.IsClosed) (complete : start.missingRequired = false)
    {rest : Evaluation β} {result : β} (stopped : β) (yields : rest.Yields surroundings start result) :
    (do if ← isMissing then return stopped else rest).Yields surroundings start result := by
  have noticed : isMissing.Yields surroundings start false :=
    ⟨.isMissing, fun progress alike _ => congrArg Except.ok (alike.missing.trans complete)⟩
  exact noticed.branch isClosed complete (.pure stopped) yields.bounded yields

end Yields

end Evaluation

/-- The value of an expression in a context. One that fails counts as null. -/
def Expr.valueIn (surroundings : Surroundings) (start : Progress) (expr : Expr) : Value :=
  match ((expr.evaluate Evaluation.valueOf).runFrom surroundings start).1 with
  | .ok value => value
  | .error _ => .null

namespace Requirement

mutual

/-- A requirement as a formula over the truth of its tests. A group of alternatives without members
is true. -/
def formula (truth : Expr → Bool) : Requirement → Bool
  | all members => conjunction truth members
  | any members => members.isEmpty || disjunction truth members
  | test expr => truth expr

def conjunction (truth : Expr → Bool) : List Requirement → Bool
  | [] => true
  | member :: rest => member.formula truth && conjunction truth rest

def disjunction (truth : Expr → Bool) : List Requirement → Bool
  | [] => false
  | member :: rest => member.formula truth || disjunction truth rest

end

mutual

/-- The expressions that a requirement tests, at any depth. -/
def tests : Requirement → List Expr
  | all members => memberTests members
  | any members => memberTests members
  | test expr => [expr]

def memberTests : List Requirement → List Expr
  | [] => []
  | member :: rest => member.tests ++ memberTests rest

end

theorem mem_memberTests {expr : Expr} {members : List Requirement} :
    expr ∈ memberTests members ↔ ∃ member ∈ members, expr ∈ member.tests := by
  induction members with
  | nil => simp [memberTests]
  | cons member rest inductionHypothesis =>
      rw [memberTests, List.mem_append, inductionHypothesis, List.exists_mem_cons_iff]

section

variable (truth : Expr → Bool)

theorem conjunction_eq_all (members : List Requirement) :
    conjunction truth members = members.all fun member => member.formula truth := by
  induction members with
  | nil => rfl
  | cons member rest inductionHypothesis =>
      rw [conjunction, inductionHypothesis, List.all_cons]

theorem disjunction_eq_any (members : List Requirement) :
    disjunction truth members = members.any fun member => member.formula truth := by
  induction members with
  | nil => rfl
  | cons member rest inductionHypothesis =>
      rw [disjunction, inductionHypothesis, List.any_cons]

end

section

open Evaluation (valueOf)

variable {surroundings : Surroundings} {start : Progress} {values : Expr → Value}

theorem checked_yields (label : String) {body : Evaluation Bool} {verdict : Bool}
    (yields : body.Yields surroundings start verdict) :
    (checked label body).Yields surroundings start verdict :=
  yields.inNode _ Value.bool (TraceNode.isPlain_fresh label (by decide) (by decide) (by decide))

variable (isClosed : surroundings.IsClosed) (complete : start.missingRequired = false)

include isClosed complete

mutual

/-- The check of a requirement gives what its formula says. -/
theorem check_yields : (requirement : Requirement) →
    (∀ expr ∈ requirement.tests,
      (expr.evaluate valueOf).Yields surroundings start (values expr)) →
    (requirement.check valueOf).Yields surroundings start
      (requirement.formula fun expr => (values expr).isTruthy)
  | .all members, evaluated => by
      rw [tests] at evaluated
      rw [check, formula]
      exact checked_yields _ (checkAll_yields members evaluated)
  | .any members, evaluated => by
      rw [tests] at evaluated
      rw [check, formula]
      refine checked_yields _ ?_
      cases members with
      | nil => exact .pure true
      | cons member rest => exact checkAny_yields (member :: rest) evaluated
  | .test expr, evaluated => by
      rw [tests] at evaluated
      rw [check, formula]
      exact checked_yields _ ((evaluated expr (List.mem_singleton_self expr)).bind isClosed complete
        (fun value => .pure value.isTruthy) (.pure (values expr).isTruthy))

/-- Members behind one that fails do not matter for the conjunction. -/
theorem checkAll_yields : (members : List Requirement) →
    (∀ expr ∈ memberTests members,
      (expr.evaluate valueOf).Yields surroundings start (values expr)) →
    (checkAll valueOf members).Yields surroundings start
      (conjunction (fun expr => (values expr).isTruthy) members)
  | [], _ => by
      rw [checkAll, conjunction]
      exact .pure true
  | member :: rest, evaluated => by
      simp only [memberTests, List.mem_append, or_imp, forall_and] at evaluated
      have others := (checkAll_yields rest evaluated.2).unlessMissing isClosed complete true
      rw [checkAll, conjunction]
      refine (check_yields member evaluated.1).branch isClosed complete others.bounded (.pure false) ?_
      cases member.formula fun expr => (values expr).isTruthy with
      | true => exact others
      | false => exact .pure false

/-- Alternatives behind one that holds do not matter for the disjunction. -/
theorem checkAny_yields : (members : List Requirement) →
    (∀ expr ∈ memberTests members,
      (expr.evaluate valueOf).Yields surroundings start (values expr)) →
    (checkAny valueOf members).Yields surroundings start
      (disjunction (fun expr => (values expr).isTruthy) members)
  | [], _ => by
      rw [checkAny, disjunction]
      exact .pure false
  | member :: rest, evaluated => by
      simp only [memberTests, List.mem_append, or_imp, forall_and] at evaluated
      have others := (checkAny_yields rest evaluated.2).unlessMissing isClosed complete false
      rw [checkAny, disjunction]
      refine (check_yields member evaluated.1).branch isClosed complete (.pure true) others.bounded ?_
      cases member.formula fun expr => (values expr).isTruthy with
      | true => exact .pure true
      | false => exact others

end

/-- A list of requirements is checked like the members of one group. -/
theorem checkEach_yields (requirements : List Requirement)
    (evaluated : ∀ expr ∈ memberTests requirements,
      (expr.evaluate valueOf).Yields surroundings start (values expr)) :
    (checkEach valueOf requirements).Yields surroundings start
      (conjunction (fun expr => (values expr).isTruthy) requirements) := by
  induction requirements with
  | nil => exact .pure true
  | cons requirement rest inductionHypothesis =>
      simp only [memberTests, List.mem_append, or_imp, forall_and] at evaluated
      have others := inductionHypothesis evaluated.2
      have verdict : (do
          if ← requirement.check valueOf then checkEach valueOf rest
          else return false : Evaluation Bool).Yields surroundings start
            (conjunction (fun expr => (values expr).isTruthy) (requirement :: rest)) := by
        refine (check_yields isClosed complete requirement evaluated.1).branch isClosed complete
          others.bounded (.pure false) ?_
        rw [conjunction]
        cases requirement.formula fun expr => (values expr).isTruthy with
        | true => exact others
        | false => exact .pure false
      rw [checkEach]
      exact (Evaluation.Yields.checkCancelled isClosed).bind isClosed complete
        (fun _ => verdict.bounded) verdict

end

/-- Without calls and without a flag of cancellation, requirements hold exactly where the formula holds
that they denote, with the values that the tests have before anything was checked. A group of all is
the conjunction of its members, a group of alternatives is their disjunction, or true without any. -/
theorem checkEach_formula {surroundings : Surroundings} {start : Progress}
    {requirements : List Requirement} (isClosed : surroundings.IsClosed)
    (begins : start.missingRequired = false)
    (evaluates : ∀ requirement ∈ requirements, ∀ expr ∈ requirement.tests, ∃ value,
      ((expr.evaluate Evaluation.valueOf).runFrom surroundings start).1 = .ok value)
    (complete : ((checkEach Evaluation.valueOf requirements).runFrom surroundings
      start).2.missingRequired = false) :
    let truth := fun expr : Expr => (expr.valueIn surroundings start).isTruthy
    ((checkEach Evaluation.valueOf requirements).runFrom surroundings start).1 =
      .ok (requirements.all fun requirement => requirement.formula truth) ∧
    (∀ expr, (test expr).formula truth = truth expr) ∧
    (∀ members, (all members).formula truth =
      members.all fun member => member.formula truth) ∧
    ∀ members, (any members).formula truth =
      (members.isEmpty || members.any fun member => member.formula truth) := by
  intro truth
  refine ⟨?_, fun expr => ?_, fun members => ?_, fun members => ?_⟩
  · have evaluated : ∀ expr ∈ memberTests requirements,
        (expr.evaluate Evaluation.valueOf).Yields surroundings start
          (expr.valueIn surroundings start) := by
      intro expr member
      obtain ⟨requirement, isListed, isTest⟩ := mem_memberTests.mp member
      obtain ⟨value, ran⟩ := evaluates requirement isListed expr isTest
      refine .evaluateExpr ?_
      rw [Expr.valueIn, ran]
    have yields := checkEach_yields isClosed begins requirements evaluated
    rw [yields.gives start (.refl start) complete, conjunction_eq_all]
  · rw [formula]
  · rw [formula, conjunction_eq_all]
  · rw [formula, disjunction_eq_any]

/-- A household of which the age is known, and no income. -/
def householdSurroundings : Surroundings :=
  { provider := Provider.empty
    service := "TOESLAGEN"
    date := default
    definitions := []
    parameters := [("age", .int 30)]
    claims := []
    properties := [("income", ⟨"income", none, some "amount", none, none, none, none, false⟩)]
    sources := []
    overwrite := []
    approved := true
    cancellation := .none }

/-- A household has an income, or an age with nothing else to show. -/
def householdRequirements : List Requirement :=
  [.any [.all [.test (.literal (.string "$income")), .test (.literal (.string "$age"))],
    .all [.test (.literal (.string "$age")), .any []]]]

/-- The start of what is known about the household. -/
def householdStart : Progress :=
  Progress.start .initial

theorem householdSurroundings_isClosed : householdSurroundings.IsClosed := by
  refine ⟨rfl, fun name property declared => ?_⟩
  have member := Entries.mem_of_get? declared
  cases List.mem_singleton.mp member
  rfl

/-- The tests of the household evaluate without an error. -/
theorem household_evaluates : ∀ requirement ∈ householdRequirements, ∀ expr ∈ requirement.tests,
    ∃ value, ((expr.evaluate Evaluation.valueOf).runFrom householdSurroundings
      householdStart).1 = .ok value := by
  have answered (expr : Expr) (shown : ((expr.evaluate Evaluation.valueOf).runFrom
      householdSurroundings householdStart).1.toOption.isSome = true) : ∃ value,
        ((expr.evaluate Evaluation.valueOf).runFrom householdSurroundings householdStart).1 =
          .ok value := by
    cases ran : ((expr.evaluate Evaluation.valueOf).runFrom householdSurroundings
        householdStart).1 with
    | ok value => exact ⟨value, rfl⟩
    | error cause =>
        rw [ran] at shown
        cases shown
  intro requirement listed expr isTest
  cases List.mem_singleton.mp listed
  simp only [tests, memberTests, List.append_nil, List.cons_append, List.nil_append,
    List.mem_cons, List.not_mem_nil, or_false] at isTest
  apply answered
  rcases isTest with rfl | rfl | rfl <;> decide +kernel

/-- The first group fails at the income, and the second one holds. -/
theorem checkEach_formula_household :
    householdSurroundings.IsClosed ∧
    ((checkEach Evaluation.valueOf householdRequirements).runFrom householdSurroundings
      householdStart).2.missingRequired = false ∧
    ((checkEach Evaluation.valueOf householdRequirements).runFrom householdSurroundings
      householdStart).1 = .ok true ∧
    householdRequirements.all (fun requirement => requirement.formula fun expr =>
      (expr.valueIn householdSurroundings householdStart).isTruthy) = true := by
  have complete : ((checkEach Evaluation.valueOf householdRequirements).runFrom
      householdSurroundings householdStart).2.missingRequired = false := by decide +kernel
  have holds : householdRequirements.all (fun requirement => requirement.formula fun expr =>
      (expr.valueIn householdSurroundings householdStart).isTruthy) = true := by decide +kernel
  obtain ⟨verdict, -⟩ := checkEach_formula householdSurroundings_isClosed rfl household_evaluates
    complete
  refine ⟨householdSurroundings_isClosed, complete, ?_, holds⟩
  rw [verdict, holds]

end Requirement

end Statute
