/-
This file proves when remembering the values of calls changes nothing.
-/

import Mathlib.Data.List.Nodup
import Statute.Proofs.Evaluation.Simulation

namespace Statute

namespace Progress

/-- The calls of the trace. -/
def calls (progress : Progress) : List CallRecord :=
  progress.notes.filterMap fun note =>
    match note with
    | .call record => some record
    | .read _ => none

theorem mem_calls {progress : Progress} {call : CallRecord} :
    call ∈ progress.calls ↔ .call call ∈ progress.notes := by
  rw [calls, List.mem_filterMap]
  constructor
  · rintro ⟨note, member, shown⟩
    cases note with
    | read name => cases shown
    | call record =>
        cases shown
        exact member
  · intro member
    exact ⟨_, member, rfl⟩

/-- Calls that are kept under one key ask for the same value. -/
def ToldApart (progress : Progress) : Prop :=
  ∀ first ∈ progress.calls, ∀ second ∈ progress.calls, first.key = second.key →
    first.AsksSame second

/-- Calls are told apart when their keys are different. -/
theorem toldApart_of_nodup {progress : Progress}
    (different : (progress.calls.map CallRecord.key).Nodup) : progress.ToldApart := by
  intro first firstMember second secondMember same
  have equal : first = second := List.inj_on_of_nodup_map different firstMember secondMember same
  rw [equal, CallRecord.AsksSame]

/-- The progress with another memo. -/
def withMemo (memo : Option (Entries Value)) (progress : Progress) : Progress :=
  { progress with memo }

end Progress

namespace Evaluation

/-- Expressions are evaluated one after the other, also after one that failed. -/
def runEach (surroundings : Surroundings) :
    List Expr → Progress → List (Except EvaluationError Value) × Progress
  | [], progress => ([], progress)
  | expr :: rest, progress =>
      let (result, between) := (expr.evaluate valueOf).runFrom surroundings progress
      let (results, after) := runEach surroundings rest between
      (result :: results, after)

variable {surroundings : Surroundings}

theorem runEach_extends (surroundings : Surroundings) (exprs : List Expr) (progress : Progress) :
    progress.Extends (runEach surroundings exprs progress).2 := by
  induction exprs generalizing progress with
  | nil => exact .refl progress
  | cons expr rest inductionHypothesis =>
      exact ((Bounded.evaluateExpr expr).grows surroundings progress).trans
        (inductionHypothesis _)

/-- A run over expressions that remembers the values of calls follows one that makes every call. -/
theorem runEach_agrees {allowed : Note → Prop} (functional : surroundings.provider.IsFunction)
    (quiet : surroundings.cancellation = .none) (apart : Follows.TellsApart allowed)
    (readsAll : ∀ name, allowed (.read name)) (exprs : List Expr) {plain follower : Progress}
    (agree : Agree surroundings allowed plain follower)
    (noted : ∀ note ∈ (runEach surroundings exprs plain).2.notes, allowed note) :
    (runEach surroundings exprs follower).1 = (runEach surroundings exprs plain).1 ∧
      Agree surroundings allowed (runEach surroundings exprs plain).2
        (runEach surroundings exprs follower).2 := by
  induction exprs generalizing plain follower with
  | nil => exact ⟨rfl, agree⟩
  | cons expr rest inductionHypothesis =>
      have later := runEach_extends surroundings rest
        ((expr.evaluate valueOf).runFrom surroundings plain).2
      have follows := (Follows.congruence functional quiet apart).evaluateExpr expr
      obtain ⟨same, kept⟩ := follows.agrees plain follower agree
        ⟨fun note member => noted note (later.notes member), .inr readsAll⟩
      obtain ⟨others, keptOn⟩ := inductionHypothesis kept noted
      refine ⟨?_, keptOn⟩
      simp only [runEach]
      rw [same, others]

/-- Evaluations that remember the values of calls give the same values, errors and missing flag as
those that make every call, if no two different calls are kept under one key. -/
theorem runEach_remembering (functional : surroundings.provider.IsFunction)
    (quiet : surroundings.cancellation = .none) (exprs : List Expr) (progress : Progress)
    (apart : (runEach surroundings exprs (progress.withMemo none)).2.ToldApart) :
    let plain := runEach surroundings exprs (progress.withMemo none)
    let remembering := runEach surroundings exprs (progress.withMemo (some []))
    remembering.1 = plain.1 ∧ remembering.2.missingRequired = plain.2.missingRequired := by
  intro plain remembering
  let allowed : Note → Prop := fun note =>
    match note with
    | .read _ => True
    | .call call => call ∈ plain.2.calls
  have tellsApart : Follows.TellsApart allowed :=
    fun first second firstCall secondCall same => apart first firstCall second secondCall same
  have agree : Agree surroundings allowed (progress.withMemo none) (progress.withMemo (some [])) :=
    ⟨rfl, rfl, fun _ _ => rfl, rfl, fun _ _ remembered => nomatch remembered⟩
  have noted : ∀ note ∈ plain.2.notes, allowed note := by
    intro note member
    cases note with
    | read name => trivial
    | call call => exact Progress.mem_calls.mpr member
  obtain ⟨same, kept⟩ := runEach_agrees functional quiet tellsApart (fun _ => trivial) exprs agree
    noted
  exact ⟨same, kept.missing⟩

/-- A call takes the value of the first call that was kept under its key, whatever it asks for. -/
theorem obtain_sameKey {question other : Call.Question} {progress after : Progress}
    {outcome : Outcome} {shared : Shared} (keeps : progress.memo.isSome)
    (grown : (question.afterAnswer outcome shared progress).Extends after)
    (same : other.key = question.key) :
    ((Call.obtain other.path other.property other.reference other.parameters
      other.date).runFrom surroundings after).1 = .ok (question.valueIn outcome) := by
  obtain ⟨memo, kept⟩ := Option.isSome_iff_exists.mp keeps
  have remembered : after.remembered? other.key = some (question.valueIn outcome) := by
    apply grown.remembered
    rw [Call.Question.remembered_afterAnswer, if_pos same, kept]
    rfl
  rw [Call.runFrom_obtain_some remembered]
  rfl

/-- A service that tells whether its parameter is the number one. -/
def comparingProvider : Provider := fun request shared =>
  (.ok
    { output :=
        [("is_one", .bool ((Entries.get? "x" request.parameters).bind Value.int? == some 1))]
      requirementsMet := true
      missingRequired := false
      input := []
      ruleId := "one"
      trace := none }, shared)

/-- A rule with one property, which asks that service about the item of an iteration. -/
def comparingSurroundings : Surroundings :=
  { provider := comparingProvider
    service := "A"
    date := default
    definitions := []
    parameters := []
    claims := []
    properties := [("answer", ⟨"answer", none, none, none, none,
      some ⟨"B", "is_one", "one", [⟨"x", .string "$value"⟩]⟩, none, false⟩)]
    sources := []
    overwrite := []
    approved := false
    cancellation := .none }

theorem comparing_isFunction : comparingSurroundings.provider.IsFunction :=
  fun _ _ _ => rfl

/-- The answers about all items of a list, one after the other. -/
def comparisonOf (items : List Value) : Expr :=
  .operation { Operation.named "FOREACH" with
    subject := some (.list (items.map .literal))
    value := some (.literal (.string "$answer"))
    combine := some "CONCAT" }

/-- The texts of the values that expressions have. -/
def shownResults (results : List (Except EvaluationError Value)) : List (Option String) :=
  results.map fun result => result.toOption.map Value.text

/-- The comparisons of two numbers that are written differently. -/
def comparisons : List Expr :=
  [comparisonOf [.int 1, .int 2]]

theorem comparisons_toldApart :
    (runEach comparingSurroundings comparisons
      ((Progress.start Shared.initial).withMemo none)).2.ToldApart :=
  Progress.toldApart_of_nodup (by decide +kernel)

theorem runEach_remembering_comparisons :
    comparingSurroundings.provider.IsFunction ∧ comparingSurroundings.cancellation = .none ∧
      (runEach comparingSurroundings comparisons
        ((Progress.start Shared.initial).withMemo none)).2.ToldApart ∧
      let plain := runEach comparingSurroundings comparisons
        ((Progress.start Shared.initial).withMemo none)
      let remembering := runEach comparingSurroundings comparisons
        ((Progress.start Shared.initial).withMemo (some []))
      remembering.1 = plain.1 ∧ remembering.2.missingRequired = plain.2.missingRequired :=
  ⟨comparing_isFunction, rfl, comparisons_toldApart,
    runEach_remembering comparing_isFunction rfl comparisons (Progress.start Shared.initial)
      comparisons_toldApart⟩

/-- A text and a number that are written alike have the same key, so the answer about the text is
also given about the number. -/
theorem runEach_remembering_mistakes_number :
    let exprs := [comparisonOf [.string "1", .int 1]]
    let plain := runEach comparingSurroundings exprs
      ((Progress.start Shared.initial).withMemo none)
    let remembering := runEach comparingSurroundings exprs
      ((Progress.start Shared.initial).withMemo (some []))
    comparingSurroundings.provider.IsFunction ∧ comparingSurroundings.cancellation = .none ∧
      shownResults plain.1 = [some "falsetrue"] ∧
      shownResults remembering.1 = [some "falsefalse"] := by
  refine ⟨comparing_isFunction, rfl, ?_, ?_⟩
  · decide +kernel
  · decide +kernel

end Evaluation

end Statute
