/-
This file proves what becomes of the things that all evaluations share: the flag of cancellation and
the prepared versions.
-/

import Statute.Proofs.Evaluation.RuleCongruence
import Statute.Service.Registry

namespace Statute

/-- A property of what all evaluations share, which tables that raise the flag do not take away. -/
def Shared.Lasts (holds : Shared → Prop) : Prop :=
  ∀ shared : Shared, holds shared → holds { shared with interrupted := true }

/-- Answers keep a property of what all evaluations share. -/
def Provider.Keeps (holds : Shared → Prop) (provider : Provider) : Prop :=
  ∀ request shared, holds shared → holds (provider request shared).2

/-- An evaluation keeps a property of what all evaluations share, also when it fails, if the answers
to its calls keep it. -/
def Evaluation.Keeps (holds : Shared → Prop) {α : Type} (evaluation : Evaluation α) : Prop :=
  ∀ surroundings progress, surroundings.provider.Keeps holds → holds progress.shared →
    holds (evaluation.runFrom surroundings progress).2.shared

namespace Evaluation.Keeps

variable {holds : Shared → Prop} {α β : Type}

/-- Most steps do not touch what is shared. -/
theorem ofSame {evaluation : Evaluation α}
    (same : ∀ surroundings progress,
      (evaluation.runFrom surroundings progress).2.shared = progress.shared) :
    evaluation.Keeps holds := by
  intro surroundings progress _ kept
  rw [same]
  exact kept

theorem bind {first : Evaluation α} {next : α → Evaluation β} (keeps : first.Keeps holds)
    (continues : ∀ value, (next value).Keeps holds) : (first >>= next).Keeps holds := by
  intro surroundings progress provided kept
  have begun := keeps surroundings progress provided kept
  rw [runFrom_bind]
  cases ran : first.runFrom surroundings progress with
  | mk result between =>
      rw [ran] at begun
      cases result with
      | error cause => exact begun
      | ok value => exact continues value surroundings between provided begun

theorem checkCancelled : Evaluation.checkCancelled.Keeps holds :=
  ofSame fun _ _ => by rw [runFrom_checkCancelled]

theorem raiseFlag (lasts : Shared.Lasts holds) : Evaluation.raiseFlag.Keeps holds :=
  fun _ progress _ kept => lasts progress.shared kept

theorem inNode (node : TraceNode) (shown : α → Value) {body : Evaluation α}
    (keeps : body.Keeps holds) : (Evaluation.inNode node shown body).Keeps holds := by
  intro surroundings progress provided kept
  have ended := keeps surroundings (progress.inside node) provided kept
  rw [runFrom_inNode]
  cases ran : body.runFrom surroundings (progress.inside node) with
  | mk result between =>
      rw [ran] at ended
      cases result <;> exact ended

theorem within (scope : Record) {body : Evaluation α} (keeps : body.Keeps holds) :
    (Evaluation.within scope body).Keeps holds :=
  fun surroundings progress provided kept => keeps surroundings { progress with scope } provided kept

/-- A call leaves what its answer leaves. -/
theorem obtain (question : Call.Question) :
    (Call.obtain question.path question.property question.reference question.parameters
      question.date).Keeps holds := by
  intro surroundings progress provided kept
  cases remembered : progress.remembered? question.key with
  | some value =>
      rw [Call.runFrom_obtain_some remembered]
      exact kept
  | none =>
      rw [Call.runFrom_obtain_none remembered]
      have left := provided (question.request surroundings) progress.shared kept
      cases asked : surroundings.provider (question.request surroundings) progress.shared with
      | mk result shared =>
          rw [asked] at left
          cases result with
          | error cause =>
              rw [Call.runFrom_perform_error asked]
              exact left
          | ok outcome =>
              rw [Call.runFrom_perform_ok asked]
              exact left

theorem recorded (path : String) {body : Evaluation Resolution.Found} (keeps : body.Keeps holds) :
    (Resolution.recorded path body).Keeps holds := by
  intro surroundings progress provided kept
  have ended := keeps surroundings
    ((progress.withAccess path).inside (TraceNode.resolving path)) provided kept
  rw [Resolution.runFrom_recorded]
  cases ran : body.runFrom surroundings
      ((progress.withAccess path).inside (TraceNode.resolving path)) with
  | mk result between =>
      rw [ran] at ended
      cases result <;> exact ended

theorem resolveName {lookUp : LookUp} {name : String}
    (keeps : ∀ property, (Resolution.resolveProperty lookUp name property).Keeps holds) :
    (Resolution.resolveName lookUp name).Keeps holds := by
  intro surroundings progress
  rw [Resolution.runFrom_resolveName_chosen]
  have kept : (Resolution.chosen lookUp surroundings progress name).Keeps holds :=
    Resolution.chosen_related (fun evaluation _ => evaluation.Keeps holds) lookUp lookUp
      (fun _ => ofSame fun _ _ => rfl)
      (fun _ _ => bind (ofSame fun _ _ => rfl) fun _ => ofSame fun _ _ => rfl) surroundings progress
      fun property _ => keeps property
  exact kept surroundings progress

theorem steps (lasts : Shared.Lasts holds) :
    StepCongruence fun _ evaluation _ => evaluation.Keeps holds where
  pure := fun _ => ofSame fun _ _ => rfl
  throw := fun _ => ofSame fun _ _ => rfl
  tooDeep := ofSame fun _ _ => rfl
  bind := bind
  given := fun _ => ofSame fun _ _ => rfl
  isMissing := ofSame fun _ _ => rfl
  checkCancelled := checkCancelled
  raiseFlag := raiseFlag lasts
  detail := fun _ _ => ofSame fun _ _ => rfl
  inNode := fun shown _ _ _ keeps => inNode _ shown keeps
  within := fun scope _ _ keeps => within scope keeps
  obtain := fun path property reference parameters date =>
    obtain ⟨path, property, reference, parameters, date⟩
  annotateProperty := fun _ => ofSame fun _ _ => rfl
  noteMissing := fun _ _ => ofSame fun _ _ => rfl
  recorded := fun path _ _ keeps => recorded path keeps
  recordedName := fun name _ _ keeps => recorded name (resolveName keeps)

/-- Rules keep what the answers to their calls keep. -/
theorem congruence (lasts : Shared.Lasts holds) :
    RuleCongruence fun _ evaluation _ => evaluation.Keeps holds where
  toValueCongruence := (steps lasts).lookups.values
  gathered := fun _ => ofSame fun _ _ => rfl
  setOutput := fun _ _ => ofSame fun _ _ => rfl
  outermost := fun _ _ shown _ _ keeps => inNode _ shown keeps

end Evaluation.Keeps

namespace Registry

variable {holds : Shared → Prop}

/-- Versions that services prepare keep a property of what all evaluations share. -/
def PreparesKeeping (holds : Shared → Prop) (registry : Registry) : Prop :=
  ∀ service law date shared, holds shared → holds (registry.prepare service law date shared).2

/-- However deep calls are nested, answers keep what prepared versions and raised flags keep. -/
theorem provider_keeps {registry : Registry} (lasts : Shared.Lasts holds)
    (prepares : registry.PreparesKeeping holds) (claims : Option ClaimLookup) (fuel : Nat) :
    (registry.provider claims fuel).Keeps holds := by
  induction fuel with
  | zero => exact fun _ _ kept => kept
  | succ fuel inductionHypothesis =>
      intro request shared kept
      rw [provider]
      split
      · exact kept
      · split
        · have prepared := prepares request.service request.law
            (request.date.getD registry.rootDate) shared kept
          unfold evaluateLaw
          split
          · rename_i between selected
            rw [selected] at prepared
            exact prepared
          · rename_i rule between selected
            rw [selected] at prepared
            exact (Evaluation.Keeps.congruence lasts).run rule request.requested
              (rule.surroundings _ claims _ request _) (Progress.start between)
              inductionHypothesis prepared
        · exact kept

end Registry

end Statute
