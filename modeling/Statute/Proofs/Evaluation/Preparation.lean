/-
This file proves that it makes no difference to an answer which versions of laws were prepared before.
-/

import Statute.Proofs.Evaluation.Sharing

namespace Statute

/-- Every version that a service has prepared is the one that the catalog selects. -/
def Shared.Follows (catalog : Catalog) (shared : Shared) : Prop :=
  ∀ entry ∈ shared.prepared, catalog.select entry.law entry.date entry.service = .ok entry.rule

theorem Shared.Follows.lasts (catalog : Catalog) : Shared.Lasts (Shared.Follows catalog) :=
  fun _ follows => follows

namespace Registry

variable {registry : Registry} {shared : Shared} {service law : String} {date : Date}

theorem prepared?_select (follows : shared.Follows registry.catalog) {rule : Rule}
    (prepared : shared.prepared? service law date = some rule) :
    registry.catalog.select law date service = .ok rule := by
  unfold Shared.prepared? at prepared
  obtain ⟨entry, found, rfl⟩ := Option.map_eq_some_iff.mp prepared
  obtain ⟨rfl, rfl, rfl⟩ : entry.service = service ∧ entry.law = law ∧ entry.date = date := by
    simpa using List.find?_some found
  exact follows entry (List.mem_of_find?_eq_some found)

/-- Where no version is selected none is prepared. -/
theorem prepare_error (follows : shared.Follows registry.catalog) {cause : RuleError}
    (failed : registry.catalog.select law date service = .error cause) :
    registry.prepare service law date shared = (.error (.rule cause), shared) := by
  unfold prepare
  split
  · rename_i rule prepared
    rw [prepared?_select follows prepared] at failed
    cases failed
  · rw [version, failed]
    rfl

/-- A version is prepared if it is the one that is selected, whether it was kept or not. -/
theorem prepare_ok (follows : shared.Follows registry.catalog) {rule : Rule}
    (selected : registry.catalog.select law date service = .ok rule) :
    (registry.prepare service law date shared).1 = .ok rule := by
  unfold prepare
  split
  · rename_i other prepared
    rw [prepared?_select follows prepared] at selected
    cases selected
    rfl
  · rw [version, selected]
    rfl

theorem preparesKeeping_follows (registry : Registry) :
    registry.PreparesKeeping (Shared.Follows registry.catalog) := by
  intro service law date shared follows
  unfold prepare
  split
  · exact follows
  · split
    · rename_i rule selected
      intro entry member
      rcases List.mem_cons.mp member with rfl | earlier
      · unfold version at selected
        cases found : registry.catalog.select law date service with
        | error cause => rw [found] at selected; cases selected
        | ok version => rw [found] at selected; cases selected; rfl
      · exact follows entry earlier
    · exact follows

/-- Versions are prepared without a look at the flag. -/
theorem prepare_interrupted (registry : Registry) (service law : String) (date : Date)
    (shared : Shared) :
    (registry.prepare service law date shared).2.interrupted = shared.interrupted := by
  unfold prepare
  split
  · rfl
  · split <;> rfl

theorem isRaised_prepare (cancellation : Cancellation) (registry : Registry) (service law : String)
    (date : Date) (shared : Shared) :
    cancellation.isRaised (registry.prepare service law date shared).2 =
      cancellation.isRaised shared := by
  cases cancellation with
  | none => rfl
  | own raised => rfl
  | shared => exact prepare_interrupted registry service law date shared

end Registry

/-- Two states of what evaluations share that no answer tells apart: all prepared versions are the
selected ones, and the flag that counts is up in both or in neither. -/
structure Shared.Alike (catalog : Catalog) (cancellation : Cancellation) (first second : Shared) :
    Prop where
  raised : cancellation.isRaised first = cancellation.isRaised second
  firstFollows : first.Follows catalog
  secondFollows : second.Follows catalog

/-- The progress with another state of what all evaluations share. -/
def Progress.sharing (shared : Shared) (progress : Progress) : Progress :=
  { progress with shared }

/-- The runs of an evaluation from two states of what is shared end with the same result, and differ
in nothing but what is shared. -/
def EndAlike {α : Type} (catalog : Catalog) (cancellation : Cancellation)
    (one other : Except EvaluationError α × Progress) : Prop :=
  ∃ (result : Except EvaluationError α) (progress : Progress) (first second : Shared),
    one = (result, progress.sharing first) ∧ other = (result, progress.sharing second) ∧
    Shared.Alike catalog cancellation first second

/-- A provider does not tell apart what is alike. -/
def Provider.Steady (catalog : Catalog) (provider : Provider) : Prop :=
  ∀ request first second, Shared.Alike catalog request.cancellation first second →
    (provider request first).1 = (provider request second).1 ∧
    Shared.Alike catalog request.cancellation (provider request first).2
      (provider request second).2

/-- An evaluation does not tell apart what is alike, if its provider does not. -/
def Evaluation.Steady (catalog : Catalog) {α : Type} (evaluation : Evaluation α) : Prop :=
  ∀ (surroundings : Surroundings) (progress : Progress) (first second : Shared),
    surroundings.provider.Steady catalog →
    Shared.Alike catalog surroundings.cancellation first second →
    EndAlike catalog surroundings.cancellation
      (evaluation.runFrom surroundings (progress.sharing first))
      (evaluation.runFrom surroundings (progress.sharing second))

namespace Evaluation.Steady

variable {catalog : Catalog} {α β : Type}

/-- Most steps work on what the evaluation has gathered by itself. -/
theorem ofOwn {evaluation : Evaluation α}
    (own : ∀ (surroundings : Surroundings) (progress : Progress), ∃ result, ∃ after : Progress,
      ∀ shared, evaluation.runFrom surroundings (progress.sharing shared) =
        (result, after.sharing shared)) : evaluation.Steady catalog := by
  intro surroundings progress first second _ alike
  obtain ⟨result, after, ran⟩ := own surroundings progress
  exact ⟨result, after, first, second, ran first, ran second, alike⟩

theorem pure (value : α) : (pure value : Evaluation α).Steady catalog :=
  ofOwn fun _ progress => ⟨.ok value, progress, fun _ => rfl⟩

theorem throw (error : EvaluationError) : (throw error : Evaluation α).Steady catalog :=
  ofOwn fun _ progress => ⟨.error error, progress, fun _ => rfl⟩

theorem gathered {view : Progress → α} (own : IsOwnView view) :
    (Evaluation.gathered view).Steady catalog := by
  refine ofOwn fun _ progress => ⟨.ok (view progress), progress, fun shared => ?_⟩
  exact congrArg (fun shown => (Except.ok shown, progress.sharing shared)) (own progress shared)

/-- A change of what the evaluation has gathered by itself. -/
theorem modify {change : Progress → Progress}
    (own : ∀ (progress : Progress) (shared : Shared),
      change (progress.sharing shared) = (change progress).sharing shared) :
    (modify change : Evaluation Unit).Steady catalog := by
  refine ofOwn fun _ progress => ⟨.ok (), change progress, fun shared => ?_⟩
  rw [runFrom_modify, own]

theorem bind {first : Evaluation α} {next : α → Evaluation β} (steady : first.Steady catalog)
    (continues : ∀ value, (next value).Steady catalog) : (first >>= next).Steady catalog := by
  intro surroundings progress one other provided alike
  obtain ⟨result, between, left, right, ranOne, ranOther, stillAlike⟩ :=
    steady surroundings progress one other provided alike
  rw [runFrom_bind, runFrom_bind, ranOne, ranOther]
  cases result with
  | error cause => exact ⟨.error cause, between, left, right, rfl, rfl, stillAlike⟩
  | ok value => exact continues value surroundings between left right provided stillAlike

/-- The flag is up in both states or in neither. -/
theorem checkCancelled : Evaluation.checkCancelled.Steady catalog := by
  intro surroundings progress first second _ alike
  have raised : surroundings.cancellation.isRaised (progress.sharing first).shared =
      surroundings.cancellation.isRaised (progress.sharing second).shared := alike.raised
  rw [runFrom_checkCancelled, runFrom_checkCancelled, raised]
  exact ⟨_, progress, first, second, rfl, rfl, alike⟩

theorem raiseFlag : Evaluation.raiseFlag.Steady catalog := by
  intro surroundings progress first second _ alike
  refine ⟨.ok (), progress, { first with interrupted := true }, { second with interrupted := true },
    rfl, rfl, ?_, alike.firstFollows, alike.secondFollows⟩
  have raised := alike.raised
  cases cancelled : surroundings.cancellation with
  | none => rfl
  | own flag => rfl
  | shared => rfl

theorem inNode (node : TraceNode) (shown : α → Value) {body : Evaluation α}
    (steady : body.Steady catalog) : (Evaluation.inNode node shown body).Steady catalog := by
  intro surroundings progress first second provided alike
  obtain ⟨result, between, left, right, ranFirst, ranSecond, stillAlike⟩ :=
    steady surroundings (progress.inside node) first second provided alike
  have entered (shared : Shared) :
      (progress.sharing shared).inside node = (progress.inside node).sharing shared := rfl
  rw [runFrom_inNode, runFrom_inNode, entered, entered, ranFirst, ranSecond]
  cases result with
  | error cause => exact ⟨.error cause, between, left, right, rfl, rfl, stillAlike⟩
  | ok value => exact ⟨.ok value, between.outside (shown value), left, right, rfl, rfl, stillAlike⟩

theorem within (scope : Record) {body : Evaluation α} (steady : body.Steady catalog) :
    (Evaluation.within scope body).Steady catalog := by
  intro surroundings progress first second provided alike
  obtain ⟨result, between, left, right, ranFirst, ranSecond, stillAlike⟩ :=
    steady surroundings { progress with scope } first second provided alike
  have entered (shared : Shared) : { progress.sharing shared with scope } =
      ({ progress with scope } : Progress).sharing shared := rfl
  rw [runFrom_within, runFrom_within, entered, entered, ranFirst, ranSecond]
  exact ⟨result, { between with scope := progress.scope }, left, right, rfl, rfl, stillAlike⟩

/-- A call hands the flag on, so the called law does not tell apart what is alike either. -/
theorem obtain (question : Call.Question) :
    (Call.obtain question.path question.property question.reference question.parameters
      question.date).Steady catalog := by
  intro surroundings progress first second provided alike
  cases remembered : progress.remembered? question.key with
  | some value =>
      have rememberedWith (shared : Shared) :
          (progress.sharing shared).remembered? question.key = some value := remembered
      rw [Call.runFrom_obtain_some (rememberedWith first),
        Call.runFrom_obtain_some (rememberedWith second)]
      exact bind (modify fun _ _ => rfl) (fun _ => pure value) surroundings progress first second
        provided alike
  | none =>
      have forgotten (shared : Shared) :
          (progress.sharing shared).remembered? question.key = none := remembered
      obtain ⟨sameAnswer, stillAlike⟩ := provided (question.request surroundings) first second alike
      rw [Call.runFrom_obtain_none (forgotten first), Call.runFrom_obtain_none (forgotten second)]
      cases askedFirst : surroundings.provider (question.request surroundings) first with
      | mk answer left =>
          cases askedSecond : surroundings.provider (question.request surroundings) second with
          | mk otherAnswer right =>
              rw [askedFirst, askedSecond] at sameAnswer stillAlike
              obtain rfl : answer = otherAnswer := sameAnswer
              cases answer with
              | error cause =>
                  rw [Call.runFrom_perform_error askedFirst, Call.runFrom_perform_error askedSecond]
                  exact ⟨_, question.afterFailure left progress, left, right, rfl, rfl, stillAlike⟩
              | ok outcome =>
                  rw [Call.runFrom_perform_ok askedFirst, Call.runFrom_perform_ok askedSecond]
                  exact ⟨_, question.afterAnswer outcome left progress, left, right, rfl, rfl,
                    stillAlike⟩

theorem recorded (path : String) {body : Evaluation Resolution.Found}
    (steady : body.Steady catalog) : (Resolution.recorded path body).Steady catalog := by
  intro surroundings progress first second provided alike
  obtain ⟨result, between, left, right, ranFirst, ranSecond, stillAlike⟩ :=
    steady surroundings ((progress.withAccess path).inside (TraceNode.resolving path)) first second
      provided alike
  have entered (shared : Shared) :
      ((progress.sharing shared).withAccess path).inside (TraceNode.resolving path) =
        ((progress.withAccess path).inside (TraceNode.resolving path)).sharing shared := rfl
  rw [Resolution.runFrom_recorded, Resolution.runFrom_recorded, entered, entered, ranFirst, ranSecond]
  cases result with
  | error cause => exact ⟨.error cause, between, left, right, rfl, rfl, stillAlike⟩
  | ok found =>
      exact ⟨.ok found.value, (between.withFound path found).outside found.value, left, right, rfl,
        rfl, stillAlike⟩

theorem resolveName {lookUp : LookUp} {name : String}
    (steady : ∀ property, (Resolution.resolveProperty lookUp name property).Steady catalog) :
    (Resolution.resolveName lookUp name).Steady catalog := by
  intro surroundings progress first second provided alike
  have sameChoice (shared : Shared) :
      Resolution.chosen lookUp surroundings (progress.sharing shared) name =
        Resolution.chosen lookUp surroundings progress name := rfl
  rw [Resolution.runFrom_resolveName_chosen, Resolution.runFrom_resolveName_chosen, sameChoice,
    sameChoice]
  have chosen : (Resolution.chosen lookUp surroundings progress name).Steady catalog :=
    Resolution.chosen_related (fun evaluation _ => evaluation.Steady catalog) lookUp lookUp pure
      (fun _ _ => bind (modify fun _ _ => rfl) fun _ => pure _) surroundings progress
      fun property _ => steady property
  exact chosen surroundings progress first second provided alike

theorem steps : StepCongruence fun _ evaluation _ => evaluation.Steady catalog where
  pure := pure
  throw := fun _ => throw _
  tooDeep := throw _
  bind := bind
  given := fun {_ view} _ => ofOwn fun surroundings progress =>
    ⟨.ok (view surroundings), progress, fun _ => rfl⟩
  isMissing := gathered fun _ _ => rfl
  checkCancelled := checkCancelled
  raiseFlag := raiseFlag
  detail := fun _ _ => modify fun _ _ => rfl
  inNode := fun shown _ _ _ steady => inNode _ shown steady
  within := fun scope _ _ steady => within scope steady
  obtain := fun path property reference parameters date =>
    obtain ⟨path, property, reference, parameters, date⟩
  annotateProperty := fun _ => modify fun _ _ => rfl
  noteMissing := fun _ _ => modify fun _ _ => rfl
  recorded := fun path _ _ steady => recorded path steady
  recordedName := fun name _ _ steady => recorded name (resolveName steady)

/-- Rules do not tell apart what is alike, if the answers to their calls do not. -/
theorem congruence : RuleCongruence fun _ evaluation _ => evaluation.Steady catalog where
  toValueCongruence := steps.lookups.values
  gathered := gathered
  setOutput := fun _ _ => modify fun _ _ => rfl
  outermost := fun _ _ shown _ _ steady => inNode _ shown steady

end Evaluation.Steady

/-- A rule is evaluated alike for states that are alike. -/
theorem Rule.evaluate_steady (rule : Rule) {catalog : Catalog} {provider : Provider}
    (steady : provider.Steady catalog) (claims : Option ClaimLookup) (sources : Entries Source)
    (request : Request) (date : Date) {first second : Shared}
    (alike : Shared.Alike catalog request.cancellation first second) :
    (rule.evaluate provider claims sources request date first).1 =
        (rule.evaluate provider claims sources request date second).1 ∧
      Shared.Alike catalog request.cancellation
        (rule.evaluate provider claims sources request date first).2
        (rule.evaluate provider claims sources request date second).2 := by
  obtain ⟨result, after, left, right, ranFirst, ranSecond, stillAlike⟩ :=
    Evaluation.Steady.congruence.run rule request.requested
      (rule.surroundings provider claims sources request date) (Progress.start first) first second
      steady alike
  have started (shared : Shared) :
      Progress.start shared = (Progress.start first).sharing shared := rfl
  rw [evaluate, evaluate, started first, started second, ranFirst, ranSecond]
  exact ⟨rfl, stillAlike⟩

namespace Registry

variable {registry : Registry} {first second : Shared} {cancellation : Cancellation}

/-- The same version is prepared, and what is shared stays alike. -/
theorem prepare_alike (alike : Shared.Alike registry.catalog cancellation first second)
    (service law : String) (date : Date) :
    (registry.prepare service law date first).1 = (registry.prepare service law date second).1 ∧
      Shared.Alike registry.catalog cancellation (registry.prepare service law date first).2
        (registry.prepare service law date second).2 := by
  refine ⟨?_, ?_, registry.preparesKeeping_follows _ _ _ _ alike.firstFollows,
    registry.preparesKeeping_follows _ _ _ _ alike.secondFollows⟩
  · cases selected : registry.catalog.select law date service with
    | error cause =>
        rw [prepare_error alike.firstFollows selected, prepare_error alike.secondFollows selected]
    | ok rule => rw [prepare_ok alike.firstFollows selected, prepare_ok alike.secondFollows selected]
  · rw [isRaised_prepare, isRaised_prepare, alike.raised]

/-- A service answers alike when the answers to its calls do. -/
theorem evaluateLaw_steady {provider : Provider} (steady : provider.Steady registry.catalog)
    (claims : Option ClaimLookup) {request : Request} (date : Date)
    (alike : Shared.Alike registry.catalog request.cancellation first second) :
    (registry.evaluateLaw provider claims request date first).1 =
        (registry.evaluateLaw provider claims request date second).1 ∧
      Shared.Alike registry.catalog request.cancellation
        (registry.evaluateLaw provider claims request date first).2
        (registry.evaluateLaw provider claims request date second).2 := by
  obtain ⟨samePrepared, stillAlike⟩ := prepare_alike alike request.service request.law date
  unfold evaluateLaw
  cases preparedFirst : registry.prepare request.service request.law date first with
  | mk result left =>
      cases preparedSecond : registry.prepare request.service request.law date second with
      | mk other right =>
          rw [preparedFirst, preparedSecond] at samePrepared stillAlike
          obtain rfl : result = other := samePrepared
          cases result with
          | error cause => exact ⟨rfl, stillAlike⟩
          | ok rule => exact rule.evaluate_steady steady claims _ request date stillAlike

/-- However deep calls are nested, answers are the same for states that are alike. -/
theorem provider_steady (registry : Registry) (claims : Option ClaimLookup) (fuel : Nat) :
    (registry.provider claims fuel).Steady registry.catalog := by
  induction fuel with
  | zero => exact fun _ _ _ alike => ⟨rfl, alike⟩
  | succ fuel inductionHypothesis =>
      intro request first second alike
      rw [provider, provider, alike.raised]
      split
      · exact ⟨rfl, alike⟩
      · split
        · exact evaluateLaw_steady inductionHypothesis claims _ alike
        · exact ⟨rfl, alike⟩

/-- An answer depends on what all evaluations share only through the flag that counts. -/
theorem evaluate_steady (registry : Registry) (claims : Option ClaimLookup) :
    (registry.evaluate claims).Steady registry.catalog :=
  registry.provider_steady claims _

end Registry

end Statute
