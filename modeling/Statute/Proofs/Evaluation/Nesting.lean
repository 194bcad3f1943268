/-
This file proves that evaluations do not depend on how deep paths may be nested where no property
leads back to itself.
-/

import Statute.Proofs.Collections
import Statute.Proofs.Evaluation.Delegation
import Statute.Proofs.Evaluation.Sharing
import Statute.Proofs.Ranking
import Statute.Proofs.Rule.Path

namespace Statute

/-- The declaration of a property refers to another declared property, alone or with fields behind
it. -/
def Property.LeadsTo (properties : Entries Property) (name next : String) : Prop :=
  ∃ property, Entries.get? name properties = some property ∧ Entries.contains next properties ∧
    ∃ path ∈ property.references, path = next ∨ ∃ rest, path = next ++ "." ++ rest

namespace Property

variable {properties : Entries Property} {name path : String} {property : Property}

/-- A property in the table of declarations is one of them, under its own name. -/
theorem declared_of_get? {declarations : List Property}
    (found : Entries.get? name (Rule.propertyTable declarations) = some property) :
    property ∈ declarations ∧ property.name = name := by
  have member := Entries.mem_ofList (Entries.mem_of_get? found)
  obtain ⟨listed, isListed, same⟩ := List.mem_map.mp member
  obtain ⟨rfl, rfl⟩ := Prod.mk.inj same
  exact ⟨isListed, rfl⟩

/-- The number of declared properties that the declaration of a property reaches. -/
noncomputable def rank (properties : Entries Property) (name : String) : Nat :=
  Ranking.rank (LeadsTo properties) properties.keys name

theorem rank_le (properties : Entries Property) (name : String) :
    rank properties name ≤ properties.length := by
  rw [← properties.length_map Prod.fst]
  exact Ranking.rank_le _ _ _

theorem mem_keys (declared : Entries.get? name properties = some property) :
    name ∈ properties.keys :=
  List.mem_map_of_mem (Entries.mem_of_get? declared)

/-- What a declaration mentions reaches fewer properties. -/
theorem rank_lt (acyclic : Ranking.Acyclic (LeadsTo properties))
    (declared : Entries.get? name properties = some property) (mentioned : path ∈ property.references) :
    rank properties (pathRoot path) < rank properties name := by
  cases found : Entries.get? (pathRoot path) properties with
  | some other =>
      have known : Entries.contains (pathRoot path) properties := by simp [Entries.contains, found]
      exact Ranking.rank_lt acyclic (mem_keys declared)
        ⟨property, declared, known, path, mentioned, eq_pathRoot_or path⟩
  | none =>
      have nothing : rank properties (pathRoot path) = 0 := by
        apply Ranking.rank_eq_zero (Entries.get?_eq_none_iff.mp found)
        · rintro next ⟨other, isOther, _⟩
          rw [found] at isOther
          cases isOther
      rw [nothing]
      exact Ranking.rank_pos (mem_keys declared)

end Property

/-- Something is known of the result of an evaluation and of what is shared after it. -/
structure Settled (holds : Shared → Prop) (allowed : EvaluationError → Prop) {α : Type}
    (result : Except EvaluationError α) (shared : Shared) : Prop where
  state : holds shared
  cause : ∀ error, result = .error error → allowed error

/-- Two evaluations run the same, one with each of two providers, and keep what is known. -/
def RunsSettled (holds : Shared → Prop) (allowed : EvaluationError → Prop)
    (surroundings : Surroundings) (first second : Provider) {α : Type}
    (evaluation other : Evaluation α) : Prop :=
  ∀ progress, holds progress.shared → ∃ result after,
    evaluation.runFrom (surroundings.withProvider first) progress = (result, after) ∧
    other.runFrom (surroundings.withProvider second) progress = (result, after) ∧
    Settled holds allowed result after.shared

/-- Two providers answer the requests for a law in the same way, and keep what is known. -/
def Provider.SettlesLaw (holds : Shared → Prop) (allowed : EvaluationError → Prop) (law : String)
    (first second : Provider) : Prop :=
  ∀ request shared, request.law = law → holds shared →
    first request shared = second request shared ∧
    Settled holds allowed (second request shared).1 (second request shared).2

/-- Errors that are not about nesting, and those that calls hand on, stay among the allowed ones. -/
structure EvaluationError.AreClosed (allowed : EvaluationError → Prop) : Prop where
  shallow : ∀ error : EvaluationError, error.IsShallow → allowed error
  handedOn : ∀ service law cause, allowed cause → allowed (.serviceCall service law cause)

/-- The value of a path is looked up with the fuel that all properties could need. -/
theorem Evaluation.runFrom_valueOf (path : String) (surroundings : Surroundings)
    (progress : Progress) :
    (valueOf path).runFrom surroundings progress =
      (Resolution.lookUp (Resolution.nestingLimit surroundings.properties) path).runFrom
        surroundings progress := by
  have limited : (given fun surroundings => Resolution.nestingLimit surroundings.properties).runFrom
      surroundings progress = (.ok (Resolution.nestingLimit surroundings.properties), progress) :=
    rfl
  rw [valueOf, runFrom_bind_of_ok limited]

namespace RunsSettled

variable {holds : Shared → Prop} {allowed : EvaluationError → Prop} {surroundings : Surroundings}
  {first second : Provider} {α β : Type}

/-- A step that does not touch what is shared. -/
theorem ofSame {evaluation : Evaluation α} (same : ∀ progress : Progress, ∃ value after,
    (∀ provider, evaluation.runFrom (surroundings.withProvider provider) progress =
      (.ok value, after)) ∧ after.shared = progress.shared) :
    RunsSettled holds allowed surroundings first second evaluation evaluation := by
  intro progress known
  obtain ⟨value, after, ran, kept⟩ := same progress
  exact ⟨.ok value, after, ran first, ran second, kept ▸ known, nofun⟩

theorem throw {error : EvaluationError} (isAllowed : allowed error) :
    RunsSettled holds allowed surroundings first second (throw error : Evaluation α)
      (throw error : Evaluation α) := by
  intro progress known
  refine ⟨.error error, progress, rfl, rfl, known, ?_⟩
  rintro _ ⟨⟩
  exact isAllowed

theorem bind {evaluation other : Evaluation α} {next following : α → Evaluation β}
    (settled : RunsSettled holds allowed surroundings first second evaluation other)
    (continues : ∀ value,
      RunsSettled holds allowed surroundings first second (next value) (following value)) :
    RunsSettled holds allowed surroundings first second (evaluation >>= next)
      (other >>= following) := by
  intro progress known
  obtain ⟨result, between, ran, otherRan, settles⟩ := settled progress known
  rw [Evaluation.runFrom_bind, Evaluation.runFrom_bind, ran, otherRan]
  cases result with
  | ok value => exact continues value between settles.state
  | error cause =>
      refine ⟨.error cause, between, rfl, rfl, settles.state, ?_⟩
      rintro _ ⟨⟩
      exact settles.cause cause rfl

/-- The surroundings show the same except for the provider. -/
theorem given {view : Surroundings → α} (plain : IsPlainView view) :
    RunsSettled holds allowed surroundings first second (Evaluation.given view)
      (Evaluation.given view) :=
  ofSame fun progress => ⟨view surroundings, progress, fun provider =>
    congrArg (fun shown => (Except.ok shown, progress))
      (plain surroundings provider surroundings.cancellation), rfl⟩

theorem checkCancelled (cancels : allowed .cancelled) :
    RunsSettled holds allowed surroundings first second Evaluation.checkCancelled
      Evaluation.checkCancelled := by
  intro progress known
  rw [Evaluation.runFrom_checkCancelled, Evaluation.runFrom_checkCancelled]
  refine ⟨_, progress, rfl, rfl, known, ?_⟩
  intro error failed
  split at failed <;> cases failed
  exact cancels

theorem inNode (node : TraceNode) (shown : α → Value) {body other : Evaluation α}
    (settled : RunsSettled holds allowed surroundings first second body other) :
    RunsSettled holds allowed surroundings first second (Evaluation.inNode node shown body)
      (Evaluation.inNode node shown other) := by
  intro progress known
  obtain ⟨result, between, ran, otherRan, settles⟩ := settled (progress.inside node) known
  rw [Evaluation.runFrom_inNode, Evaluation.runFrom_inNode, ran, otherRan]
  cases result with
  | ok value => exact ⟨.ok value, _, rfl, rfl, settles.state, nofun⟩
  | error cause => exact ⟨.error cause, between, rfl, rfl, settles⟩

theorem within (scope : Record) {body other : Evaluation α}
    (settled : RunsSettled holds allowed surroundings first second body other) :
    RunsSettled holds allowed surroundings first second (Evaluation.within scope body)
      (Evaluation.within scope other) := by
  intro progress known
  obtain ⟨result, between, ran, otherRan, settles⟩ := settled { progress with scope } known
  rw [Evaluation.runFrom_within, Evaluation.runFrom_within, ran, otherRan]
  exact ⟨result, _, rfl, rfl, settles⟩

theorem recorded (path : String) {body other : Evaluation Resolution.Found}
    (settled : RunsSettled holds allowed surroundings first second body other) :
    RunsSettled holds allowed surroundings first second (Resolution.recorded path body)
      (Resolution.recorded path other) := by
  intro progress known
  obtain ⟨result, between, ran, otherRan, settles⟩ :=
    settled ((progress.withAccess path).inside (TraceNode.resolving path)) known
  rw [Resolution.runFrom_recorded, Resolution.runFrom_recorded, ran, otherRan]
  cases result with
  | ok found => exact ⟨.ok found.value, _, rfl, rfl, settles.state, nofun⟩
  | error cause =>
      refine ⟨.error cause, between, rfl, rfl, settles.state, ?_⟩
      rintro _ ⟨⟩
      exact settles.cause cause rfl

/-- A call has the same end where the called law is answered in the same way. -/
theorem obtain (closed : EvaluationError.AreClosed allowed) (question : Call.Question)
    (answers : Provider.SettlesLaw holds allowed question.reference.law first second) :
    RunsSettled holds allowed surroundings first second
      (Call.obtain question.path question.property question.reference question.parameters
        question.date)
      (Call.obtain question.path question.property question.reference question.parameters
        question.date) := by
  intro progress known
  cases remembered : progress.remembered? question.key with
  | some value =>
      rw [Call.runFrom_obtain_some remembered, Call.runFrom_obtain_some remembered]
      exact ⟨.ok value, _, rfl, rfl, known, nofun⟩
  | none =>
      rw [Call.runFrom_obtain_none remembered, Call.runFrom_obtain_none remembered]
      obtain ⟨same, settles⟩ :=
        answers (question.request surroundings) progress.shared rfl known
      cases asked : second (question.request surroundings) progress.shared with
      | mk result shared =>
          rw [asked] at same settles
          have askedFirst : (surroundings.withProvider first).provider
              (question.request (surroundings.withProvider first)) progress.shared =
                (result, shared) := same
          have askedSecond : (surroundings.withProvider second).provider
              (question.request (surroundings.withProvider second)) progress.shared =
                (result, shared) := asked
          cases result with
          | error cause =>
              rw [Call.runFrom_perform_error askedFirst, Call.runFrom_perform_error askedSecond]
              refine ⟨_, _, rfl, rfl, settles.state, ?_⟩
              rintro _ ⟨⟩
              exact closed.handedOn _ _ _ (settles.cause cause rfl)
          | ok outcome =>
              rw [Call.runFrom_perform_ok askedFirst, Call.runFrom_perform_ok askedSecond]
              exact ⟨_, _, rfl, rfl, settles.state, nofun⟩

theorem congruence (lasts : Shared.Lasts holds) (closed : EvaluationError.AreClosed allowed) :
    Congruence fun _ evaluation other =>
      RunsSettled holds allowed surroundings first second evaluation other where
  pure := fun value => ofSame fun progress => ⟨value, progress, fun _ => rfl, rfl⟩
  throw := fun shallow => throw (closed.shallow _ shallow)
  bind := bind
  given := given
  isMissing := ofSame fun progress => ⟨progress.missingRequired, progress, fun _ => rfl, rfl⟩
  checkCancelled := checkCancelled (closed.shallow _ (by simp))
  raiseFlag := fun _ known => ⟨.ok (), _, rfl, rfl, lasts _ known, nofun⟩
  detail := fun _ _ => ofSame fun _ => ⟨(), _, fun _ => rfl, rfl⟩
  inNode := fun shown _ _ _ settled => inNode _ shown settled
  within := fun scope _ _ settled => within scope settled

/-- Names are found in the same way, as far as the properties that they may stand for are. -/
theorem resolveName (closed : EvaluationError.AreClosed allowed) (lasts : Shared.Lasts holds)
    {lookUp other : LookUp} {name : String}
    (settled : ∀ property, Entries.get? name surroundings.properties = some property →
      RunsSettled holds allowed surroundings first second
        (Resolution.resolveProperty lookUp name property)
        (Resolution.resolveProperty other name property)) :
    RunsSettled holds allowed surroundings first second (Resolution.resolveName lookUp name)
      (Resolution.resolveName other name) := by
  intro progress known
  have sameChoice (provider : Provider) (lookUp : LookUp) :
      Resolution.chosen lookUp (surroundings.withProvider provider) progress name =
        Resolution.chosen lookUp surroundings progress name := rfl
  have steps : Congruence fun _ evaluation other =>
      RunsSettled holds allowed surroundings first second evaluation other := congruence lasts closed
  have annotates (property : Property) : RunsSettled holds allowed surroundings first second
      (Resolution.annotateProperty property) (Resolution.annotateProperty property) :=
    ofSame fun _ => ⟨(), _, fun _ => rfl, rfl⟩
  have chosen : RunsSettled holds allowed surroundings first second
      (Resolution.chosen lookUp surroundings progress name)
      (Resolution.chosen other surroundings progress name) :=
    Resolution.chosen_related (RunsSettled holds allowed surroundings first second) lookUp other
      steps.pure (fun declared found => bind (annotates declared) fun _ => steps.pure found)
      surroundings progress settled
  rw [Resolution.runFrom_resolveName_chosen, Resolution.runFrom_resolveName_chosen, sameChoice,
    sameChoice]
  exact chosen progress known

end RunsSettled

/-- No property leads back to itself, and the laws that properties call are answered in the same way
by both providers. -/
structure Surroundings.Grounded (holds : Shared → Prop) (allowed : EvaluationError → Prop)
    (surroundings : Surroundings) (first second : Provider) : Prop where
  lasts : Shared.Lasts holds
  closed : EvaluationError.AreClosed allowed
  acyclic : Ranking.Acyclic (Property.LeadsTo surroundings.properties)
  answers : ∀ name property reference,
    Entries.get? name surroundings.properties = some property →
    property.serviceReference = some reference →
    Provider.SettlesLaw holds allowed reference.law first second

/-- The nesting that the lookup of a path may need: two levels for each property that it reaches,
since each may be mentioned with fields behind it. -/
noncomputable def Property.depth (properties : Entries Property) (path : String) : Nat :=
  2 * Property.rank properties (pathRoot path) + if pathTail path = [] then 1 else 2

theorem Property.depth_le (properties : Entries Property) (path : String) :
    Property.depth properties path ≤ Resolution.nestingLimit properties := by
  have limited := Property.rank_le properties (pathRoot path)
  unfold depth Resolution.nestingLimit
  split <;> omega

namespace Surroundings.Grounded

variable {holds : Shared → Prop} {allowed : EvaluationError → Prop} {surroundings : Surroundings}
  {first second : Provider}

/-- One level of a lookup needs the levels of what the declaration of a property mentions, or of the
first name of a path. -/
theorem lookUp_succ (grounded : surroundings.Grounded holds allowed first second) {path : String}
    {fuel larger : Nat}
    (names : pathTail path = [] → ∀ property,
      Entries.get? path surroundings.properties = some property →
      ∀ mentioned ∈ property.references, RunsSettled holds allowed surroundings first second
        (Resolution.lookUp fuel mentioned) (Resolution.lookUp larger mentioned))
    (root : pathTail path ≠ [] → RunsSettled holds allowed surroundings first second
      (Resolution.lookUp fuel (pathRoot path)) (Resolution.lookUp larger (pathRoot path))) :
    RunsSettled holds allowed surroundings first second (Resolution.lookUp (fuel + 1) path)
      (Resolution.lookUp (larger + 1) path) := by
  have steps : Congruence fun _ evaluation other =>
      RunsSettled holds allowed surroundings first second evaluation other :=
    RunsSettled.congruence grounded.lasts grounded.closed
  apply steps.lookUp_succ
  · exact fun value => RunsSettled.recorded path (steps.pure _)
  · intro undotted
    refine RunsSettled.recorded path (RunsSettled.resolveName grounded.closed grounded.lasts ?_)
    intro property declared
    have value := steps.propertyValue path property
      (fun reference refers parameters date =>
        RunsSettled.obtain grounded.closed ⟨path, property, reference, parameters, date⟩
          (grounded.answers path property reference declared refers))
      (names undotted property declared)
    refine steps.bind (RunsSettled.ofSame fun _ => ⟨(), _, fun _ => rfl, rfl⟩) fun _ => ?_
    refine steps.bind value fun found => ?_
    refine steps.bind (RunsSettled.ofSame fun _ => ⟨(), _, fun _ => rfl, rfl⟩) fun _ => ?_
    exact steps.pure _
  · exact fun dotted =>
      RunsSettled.recorded path (steps.bind (root dotted) fun base => steps.pure _)

/-- Lookups run the same with any fuel that is enough for their path. -/
theorem lookUp (grounded : surroundings.Grounded holds allowed first second) {path : String}
    {fuel larger : Nat} (enough : Property.depth surroundings.properties path ≤ fuel)
    (alsoEnough : Property.depth surroundings.properties path ≤ larger) :
    RunsSettled holds allowed surroundings first second (Resolution.lookUp fuel path)
      (Resolution.lookUp larger path) := by
  -- A level goes on to what a declaration mentions or to the first name of a path, and both are less deep.
  induction fuel generalizing path larger with
  | zero =>
      unfold Property.depth at enough
      split at enough <;> omega
  | succ fuel inductionHypothesis =>
      obtain ⟨larger, rfl⟩ : ∃ less, larger = less + 1 := by
        refine Nat.exists_eq_succ_of_ne_zero ?_
        unfold Property.depth at alsoEnough
        split at alsoEnough <;> omega
      apply grounded.lookUp_succ
      · intro undotted property declared mentioned member
        have fewer := Property.rank_lt grounded.acyclic declared member
        have bound : Property.depth surroundings.properties mentioned + 1 ≤
            Property.depth surroundings.properties path := by
          unfold Property.depth
          rw [pathRoot_eq_self undotted, if_pos undotted]
          split <;> omega
        exact inductionHypothesis (by omega) (by omega)
      · intro dotted
        have bound : Property.depth surroundings.properties (pathRoot path) + 1 ≤
            Property.depth surroundings.properties path := by
          unfold Property.depth
          rw [pathRoot_pathRoot, if_pos (pathTail_pathRoot path), if_neg dotted]
        exact inductionHypothesis (by omega) (by omega)

theorem congruence (grounded : surroundings.Grounded holds allowed first second) :
    RuleCongruence fun _ evaluation other =>
      RunsSettled holds allowed surroundings first second evaluation other where
  toCongruence := RunsSettled.congruence grounded.lasts grounded.closed
  valueOf := fun path progress known => by
    have limited := Property.depth_le surroundings.properties path
    have looked := grounded.lookUp limited limited progress known
    rw [Evaluation.runFrom_valueOf, Evaluation.runFrom_valueOf]
    exact looked
  gathered := fun {_ view} _ =>
    RunsSettled.ofSame fun progress => ⟨view progress, progress, fun _ => rfl, rfl⟩
  setOutput := fun _ _ => RunsSettled.ofSame fun _ => ⟨(), _, fun _ => rfl, rfl⟩
  outermost := fun _ _ shown _ _ settled => RunsSettled.inNode _ shown settled

end Surroundings.Grounded

/-- More fuel than all properties could need changes no lookup, whatever calls are answered. -/
theorem Resolution.lookUp_of_enough {surroundings : Surroundings}
    (acyclic : Ranking.Acyclic (Property.LeadsTo surroundings.properties)) {fuel : Nat}
    (enough : nestingLimit surroundings.properties ≤ fuel) (path : String) (progress : Progress) :
    (lookUp fuel path).runFrom surroundings progress =
      (Evaluation.valueOf path).runFrom surroundings progress := by
  have grounded : surroundings.Grounded (fun _ => True) (fun _ => True) surroundings.provider
      surroundings.provider :=
    { lasts := fun _ _ => trivial
      closed := ⟨fun _ _ => trivial, fun _ _ _ _ => trivial⟩
      acyclic
      answers := fun _ _ _ _ _ _ _ _ _ => ⟨rfl, trivial, fun _ _ => trivial⟩ }
  have limited := Property.depth_le surroundings.properties path
  obtain ⟨result, after, ran, otherRan, _⟩ :=
    grounded.lookUp (limited.trans enough) limited progress trivial
  have same : surroundings.withProvider surroundings.provider = surroundings := rfl
  rw [same] at ran otherRan
  rw [Evaluation.runFrom_valueOf, ran, otherRan]

/-- A rule is evaluated in the same way when its calls are, whatever is claimed. -/
theorem Rule.evaluate_settled {rule : Rule} {holds : Shared → Prop}
    {allowed : EvaluationError → Prop} {first second : Provider} {claims : Option ClaimLookup}
    {sources : Entries Source} {request : Request} {date : Date} {shared : Shared}
    (grounded : (rule.surroundings second claims sources request date).Grounded holds allowed first
      second) (known : holds shared) :
    rule.evaluate first claims sources request date shared =
        rule.evaluate second claims sources request date shared ∧
      Settled holds allowed (rule.evaluate second claims sources request date shared).1
        (rule.evaluate second claims sources request date shared).2 := by
  obtain ⟨result, after, ran, otherRan, settles⟩ :=
    grounded.congruence.run rule request.requested (Progress.start shared) known
  have surrounded (provider : Provider) : rule.surroundings provider claims sources request date =
      (rule.surroundings second claims sources request date).withProvider provider := rfl
  rw [evaluate, evaluate, surrounded first, ran]
  rw [surrounded second, otherRan]
  exact ⟨rfl, settles⟩

end Statute
