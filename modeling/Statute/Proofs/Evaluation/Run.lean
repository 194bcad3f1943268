/-
This file computes the runs of evaluations step by step.
-/

import Statute.Evaluation.Rule

namespace Statute

namespace Progress

/-- The progress inside a new node. -/
def inside (node : TraceNode) (progress : Progress) : Progress :=
  { progress with openNodes := node :: progress.openNodes }

/-- The progress after the innermost node ended with a result. -/
def outside (result : Value) (progress : Progress) : Progress :=
  { progress with openNodes := Evaluation.closeNode result progress.openNodes }

end Progress

namespace Evaluation

variable {α β : Type} {surroundings : Surroundings} {progress after : Progress}

@[simp]
theorem runFrom_pure (value : α) (surroundings : Surroundings) (progress : Progress) :
    (pure value : Evaluation α).runFrom surroundings progress = (.ok value, progress) :=
  rfl

@[simp]
theorem runFrom_throw (error : EvaluationError) (surroundings : Surroundings) (progress : Progress) :
    (throw error : Evaluation α).runFrom surroundings progress = (.error error, progress) :=
  rfl

@[simp]
theorem runFrom_get (surroundings : Surroundings) (progress : Progress) :
    (get : Evaluation Progress).runFrom surroundings progress = (.ok progress, progress) :=
  rfl

@[simp]
theorem runFrom_set (next : Progress) (surroundings : Surroundings) (progress : Progress) :
    (set next : Evaluation Unit).runFrom surroundings progress = (.ok (), next) :=
  rfl

@[simp]
theorem runFrom_modify (change : Progress → Progress) (surroundings : Surroundings)
    (progress : Progress) :
    (modify change : Evaluation Unit).runFrom surroundings progress = (.ok (), change progress) :=
  rfl

@[simp]
theorem runFrom_read (surroundings : Surroundings) (progress : Progress) :
    (read : Evaluation Surroundings).runFrom surroundings progress = (.ok surroundings, progress) :=
  rfl

@[simp]
theorem runFrom_today (surroundings : Surroundings) (progress : Progress) :
    today.runFrom surroundings progress = (.ok surroundings.date, progress) :=
  rfl

@[simp]
theorem runFrom_isMissing (surroundings : Surroundings) (progress : Progress) :
    isMissing.runFrom surroundings progress = (.ok progress.missingRequired, progress) :=
  rfl

/-- An evaluation goes on where the one before it ended, and an error ends it. -/
theorem runFrom_bind (first : Evaluation α) (next : α → Evaluation β) (surroundings : Surroundings)
    (progress : Progress) :
    (first >>= next).runFrom surroundings progress =
      match first.runFrom surroundings progress with
      | (.ok value, between) => (next value).runFrom surroundings between
      | (.error error, between) => (.error error, between) := by
  simp only [runFrom, ReaderT.run_bind, ExceptT.run_bind, StateT.run_bind]
  cases (StateT.run (ExceptT.run (first.run surroundings)) progress) with
  | mk result between => cases result <;> rfl

theorem runFrom_bind_of_ok {first : Evaluation α} {next : α → Evaluation β} {value : α}
    {between : Progress} (ran : first.runFrom surroundings progress = (.ok value, between)) :
    (first >>= next).runFrom surroundings progress = (next value).runFrom surroundings between := by
  rw [runFrom_bind, ran]

theorem runFrom_bind_of_error {first : Evaluation α} {next : α → Evaluation β}
    {error : EvaluationError} {between : Progress}
    (ran : first.runFrom surroundings progress = (.error error, between)) :
    (first >>= next).runFrom surroundings progress = (.error error, between) := by
  rw [runFrom_bind, ran]

/-- Both parts of an evaluation that gives a value give one. -/
theorem runFrom_bind_ok {first : Evaluation α} {next : α → Evaluation β} {result : β}
    (ran : (first >>= next).runFrom surroundings progress = (.ok result, after)) :
    ∃ value between, first.runFrom surroundings progress = (.ok value, between) ∧
      (next value).runFrom surroundings between = (.ok result, after) := by
  cases begun : first.runFrom surroundings progress with
  | mk outcome between =>
      cases outcome with
      | error error =>
          rw [runFrom_bind_of_error begun] at ran
          cases ran
      | ok value =>
          rw [runFrom_bind_of_ok begun] at ran
          exact ⟨value, between, rfl, ran⟩

/-- A handler goes on where the error stopped an evaluation. -/
theorem runFrom_tryCatch (evaluation : Evaluation α) (handler : EvaluationError → Evaluation α)
    (surroundings : Surroundings) (progress : Progress) :
    (tryCatch evaluation handler).runFrom surroundings progress =
      match evaluation.runFrom surroundings progress with
      | (.ok value, after) => (.ok value, after)
      | (.error error, after) => (handler error).runFrom surroundings after := by
  cases ran : evaluation.runFrom surroundings progress with
  | mk result after =>
      have begun : StateT.run (evaluation surroundings) progress = (result, after) := ran
      simp only [runFrom, tryCatch, tryCatchThe, MonadExceptOf.tryCatch, ReaderT.run,
        ExceptT.tryCatch, ExceptT.run_mk, StateT.run_bind]
      rw [begun]
      cases result <;> rfl

theorem runFrom_observing (evaluation : Evaluation α) (surroundings : Surroundings)
    (progress : Progress) :
    (observing evaluation : Evaluation (Except EvaluationError α)).runFrom surroundings progress =
      (.ok (evaluation.runFrom surroundings progress).1,
        (evaluation.runFrom surroundings progress).2) := by
  rw [observing, runFrom_tryCatch, runFrom_bind]
  cases evaluation.runFrom surroundings progress with
  | mk result after => cases result <;> rfl

/-- A raised flag of cancellation stops the evaluation, and nothing else changes. -/
theorem runFrom_checkCancelled (surroundings : Surroundings) (progress : Progress) :
    checkCancelled.runFrom surroundings progress =
      (if surroundings.cancellation.isRaised progress.shared then .error .cancelled else .ok (),
        progress) := by
  rw [checkCancelled, runFrom_bind, runFrom_read]
  dsimp only
  rw [runFrom_bind, runFrom_get]
  dsimp only
  split <;> rfl

theorem runFrom_inNode (node : TraceNode) (shown : α → Value) (body : Evaluation α)
    (surroundings : Surroundings) (progress : Progress) :
    (inNode node shown body).runFrom surroundings progress =
      match body.runFrom surroundings (progress.inside node) with
      | (.ok value, between) => (.ok value, between.outside (shown value))
      | (.error error, between) => (.error error, between) := by
  have entered : (enter node).runFrom surroundings progress = (.ok (), progress.inside node) := rfl
  rw [inNode, runFrom_bind_of_ok entered]
  cases ran : body.runFrom surroundings (progress.inside node) with
  | mk result between =>
      cases result with
      | error error => rw [runFrom_bind_of_error ran]
      | ok value =>
          rw [runFrom_bind_of_ok ran]
          rfl

/-- The scope is there inside only. -/
theorem runFrom_within (scope : Record) (body : Evaluation α) (surroundings : Surroundings)
    (progress : Progress) :
    (within scope body).runFrom surroundings progress =
      ((body.runFrom surroundings { progress with scope }).1,
        { (body.runFrom surroundings { progress with scope }).2 with scope := progress.scope }) :=
  rfl

end Evaluation

end Statute
