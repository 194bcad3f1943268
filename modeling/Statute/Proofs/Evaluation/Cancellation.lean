/-
This file proves that a flag of cancellation stops an evaluation or leaves its answer as it is.
-/

import Statute.Proofs.Evaluation.Preparation

namespace Statute

/-- The request with another flag of cancellation. -/
def Request.withCancellation (cancellation : Cancellation) (request : Request) : Request :=
  { request with cancellation }

/-- The surroundings with another flag of cancellation. -/
def Surroundings.withCancellation (cancellation : Cancellation) (surroundings : Surroundings) :
    Surroundings :=
  { surroundings with cancellation }

namespace Cancellation

/-- A run under a flag ends as the plain run without it does, or it was cancelled. The latter needs
that the flag is up at the end of the plain run. -/
def Allows (cancellation : Cancellation) {α σ : Type} (shared : σ → Shared)
    (plain flagged : Except EvaluationError α × σ) : Prop :=
  flagged = plain ∨
    ∃ cause after, flagged = (.error cause, after) ∧ cause.rootCause = .cancelled ∧
      cancellation.isRaised (shared plain.2) = true

/-- What is done alike after both runs does not matter if it leaves errors and the flag alone. -/
theorem Allows.map {cancellation : Cancellation} {α β σ τ : Type} {shared : σ → Shared}
    {view : τ → Shared} {plain flagged : Except EvaluationError α × σ}
    (allows : cancellation.Allows shared plain flagged)
    (change : Except EvaluationError α × σ → Except EvaluationError β × τ)
    (sameShared : ∀ run, view (change run).2 = shared run.2)
    (failed : ∀ cause after, ∃ reason later, change (.error cause, after) = (.error reason, later) ∧
      reason.rootCause = cause.rootCause) :
    cancellation.Allows view (change plain) (change flagged) := by
  rcases allows with same | ⟨cause, after, stopped, cancelled, raised⟩
  · rw [same]
    exact .inl rfl
  · obtain ⟨reason, later, changed, sameCause⟩ := failed cause after
    rw [stopped]
    exact .inr ⟨reason, later, changed, sameCause.trans cancelled, by rw [sameShared]; exact raised⟩

/-- A flag that is up stays up when tables raise the shared one. -/
theorem isRaised_lasts (cancellation : Cancellation) :
    Shared.Lasts fun shared => cancellation.isRaised shared = true := by
  intro shared raised
  cases cancellation with
  | none => exact raised
  | own _ => exact raised
  | shared => rfl

end Cancellation

/-- Answers to requests under a flag are the answers without it, or cancelled. -/
structure Provider.Obeys (cancellation : Cancellation) (provider : Provider) : Prop where
  keeps : provider.Keeps fun shared => cancellation.isRaised shared = true
  allowed : ∀ (request : Request) (shared : Shared),
    cancellation.Allows id (provider (request.withCancellation .none) shared)
      (provider (request.withCancellation cancellation) shared)

/-- An evaluation under a flag ends as it does without it, or cancelled, if the answers to its calls
do. -/
structure Evaluation.Obeys (cancellation : Cancellation) {α : Type} (evaluation : Evaluation α) :
    Prop where
  keeps : evaluation.Keeps fun shared => cancellation.isRaised shared = true
  allowed : ∀ (surroundings : Surroundings) (progress : Progress),
    surroundings.provider.Obeys cancellation →
    cancellation.Allows Progress.shared
      (evaluation.runFrom (surroundings.withCancellation .none) progress)
      (evaluation.runFrom (surroundings.withCancellation cancellation) progress)

namespace Evaluation.Obeys

variable {cancellation : Cancellation} {α β : Type}

/-- Most steps see no flag. -/
theorem ofSame {evaluation : Evaluation α}
    (keeps : evaluation.Keeps fun shared => cancellation.isRaised shared = true)
    (same : ∀ (surroundings : Surroundings) (progress : Progress),
      evaluation.runFrom (surroundings.withCancellation cancellation) progress =
        evaluation.runFrom (surroundings.withCancellation .none) progress) :
    evaluation.Obeys cancellation :=
  ⟨keeps, fun surroundings progress _ => .inl (same surroundings progress)⟩

theorem pure (value : α) : (pure value : Evaluation α).Obeys cancellation :=
  ofSame (.ofSame fun _ _ => rfl) fun _ _ => rfl

theorem annotateProperty (property : Property) :
    (Resolution.annotateProperty property).Obeys cancellation :=
  ofSame (.ofSame fun _ _ => rfl) fun _ _ => rfl

/-- Once cancelled, an evaluation goes no further, and a flag that is up stays up. -/
theorem bind {first : Evaluation α} {next : α → Evaluation β} (obeys : first.Obeys cancellation)
    (continues : ∀ value, (next value).Obeys cancellation) :
    (first >>= next).Obeys cancellation := by
  refine ⟨.bind obeys.keeps fun value => (continues value).keeps, ?_⟩
  intro surroundings progress provided
  have begun := obeys.allowed surroundings progress provided
  rw [runFrom_bind, runFrom_bind]
  cases plain : first.runFrom (surroundings.withCancellation .none) progress with
  | mk result between =>
      rw [plain] at begun
      rcases begun with same | ⟨cause, after, stopped, cancelled, raised⟩
      · rw [same]
        cases result with
        | error cause => exact .inl rfl
        | ok value => exact (continues value).allowed surroundings between provided
      · rw [stopped]
        refine .inr ⟨cause, after, rfl, cancelled, ?_⟩
        cases result with
        | error _ => exact raised
        | ok value => exact (continues value).keeps _ between provided.keeps raised

/-- The surroundings show the same except for the flag. -/
theorem given {view : Surroundings → α} (plain : IsPlainView view) :
    (Evaluation.given view).Obeys cancellation := by
  apply ofSame (.ofSame fun _ _ => rfl)
  intro surroundings progress
  have ran (flag : Cancellation) :
      (Evaluation.given view).runFrom (surroundings.withCancellation flag) progress =
        (.ok (view surroundings), progress) :=
    congrArg (fun shown => (Except.ok shown, progress)) (plain surroundings surroundings.provider flag)
  rw [ran, ran]

/-- The check is where a flag that is up cancels. -/
theorem checkCancelled : Evaluation.checkCancelled.Obeys cancellation := by
  refine ⟨.checkCancelled, fun surroundings progress _ => ?_⟩
  rw [runFrom_checkCancelled, runFrom_checkCancelled]
  cases raised : cancellation.isRaised progress.shared with
  | false => exact .inl (congrArg (fun up : Bool => (if up then _ else _, progress)) raised)
  | true =>
      refine .inr ⟨.cancelled, progress, ?_, rfl, raised⟩
      exact congrArg (fun up : Bool => (if up then _ else _, progress)) raised

theorem inNode (node : TraceNode) (shown : α → Value) {body : Evaluation α}
    (obeys : body.Obeys cancellation) : (Evaluation.inNode node shown body).Obeys cancellation := by
  refine ⟨.inNode node shown obeys.keeps, fun surroundings progress provided => ?_⟩
  have ended := obeys.allowed surroundings (progress.inside node) provided
  rw [runFrom_inNode, runFrom_inNode]
  generalize body.runFrom (surroundings.withCancellation .none) (progress.inside node) = plain
    at ended ⊢
  generalize body.runFrom (surroundings.withCancellation cancellation) (progress.inside node) =
    flagged at ended ⊢
  apply ended.map
  · rintro ⟨result, between⟩
    cases result <;> rfl
  · exact fun cause after => ⟨cause, after, rfl, rfl⟩

theorem within (scope : Record) {body : Evaluation α} (obeys : body.Obeys cancellation) :
    (Evaluation.within scope body).Obeys cancellation := by
  refine ⟨.within scope obeys.keeps, fun surroundings progress provided => ?_⟩
  let restored (run : Except EvaluationError α × Progress) : Except EvaluationError α × Progress :=
    (run.1, { run.2 with scope := progress.scope })
  exact (obeys.allowed surroundings { progress with scope } provided).map restored (fun _ => rfl)
    fun cause after => ⟨cause, _, rfl, rfl⟩

theorem recorded (path : String) {body : Evaluation Resolution.Found}
    (obeys : body.Obeys cancellation) : (Resolution.recorded path body).Obeys cancellation := by
  refine ⟨.recorded path obeys.keeps, fun surroundings progress provided => ?_⟩
  let entered := (progress.withAccess path).inside (TraceNode.resolving path)
  have ended := obeys.allowed surroundings entered provided
  rw [Resolution.runFrom_recorded, Resolution.runFrom_recorded]
  generalize body.runFrom (surroundings.withCancellation .none) entered = plain at ended ⊢
  generalize body.runFrom (surroundings.withCancellation cancellation) entered = flagged at ended ⊢
  apply ended.map
  · rintro ⟨result, between⟩
    cases result <;> rfl
  · exact fun cause after => ⟨cause, after, rfl, rfl⟩

/-- The flag is handed on to the called law, and a cancelled call cancels its caller. -/
theorem obtain (question : Call.Question) :
    (Call.obtain question.path question.property question.reference question.parameters
      question.date).Obeys cancellation := by
  refine ⟨.obtain question, fun surroundings progress provided => ?_⟩
  cases remembered : progress.remembered? question.key with
  | some value =>
      rw [Call.runFrom_obtain_some remembered, Call.runFrom_obtain_some remembered]
      exact .inl rfl
  | none =>
      have performed (flag : Cancellation) :
          (Call.obtain question.path question.property question.reference question.parameters
            question.date).runFrom (surroundings.withCancellation flag) progress =
          match surroundings.provider
              ((question.request surroundings).withCancellation flag) progress.shared with
          | (.ok outcome, shared) =>
              (.ok (question.valueIn outcome), question.afterAnswer outcome shared progress)
          | (.error cause, shared) =>
              (.error (.serviceCall question.reference.service question.reference.law cause),
                question.afterFailure shared progress) := by
        rw [Call.runFrom_obtain_none remembered]
        split
        · rename_i outcome shared answered
          exact Call.runFrom_perform_ok answered
        · rename_i cause shared failed
          exact Call.runFrom_perform_error failed
      have answered := provided.allowed (question.request surroundings) progress.shared
      rw [performed, performed]
      generalize surroundings.provider ((question.request surroundings).withCancellation .none)
        progress.shared = plain at answered ⊢
      generalize surroundings.provider
        ((question.request surroundings).withCancellation cancellation) progress.shared = flagged
        at answered ⊢
      apply answered.map
      · rintro ⟨result, shared⟩
        cases result <;> rfl
      · exact fun cause shared => ⟨_, _, rfl, rfl⟩

/-- Names are found without a look at the flag, as far as their properties are. -/
theorem resolveName {lookUp : LookUp} {name : String}
    (obeys : ∀ property, (Resolution.resolveProperty lookUp name property).Obeys cancellation) :
    (Resolution.resolveName lookUp name).Obeys cancellation := by
  refine ⟨.resolveName fun property => (obeys property).keeps,
    fun surroundings progress provided => ?_⟩
  have sameChoice (flag : Cancellation) :
      Resolution.chosen lookUp (surroundings.withCancellation flag) progress name =
        Resolution.chosen lookUp surroundings progress name := rfl
  rw [Resolution.runFrom_resolveName_chosen, Resolution.runFrom_resolveName_chosen, sameChoice,
    sameChoice]
  have obeyed : (Resolution.chosen lookUp surroundings progress name).Obeys cancellation :=
    Resolution.chosen_related (fun evaluation _ => evaluation.Obeys cancellation) lookUp lookUp pure
      (fun _ _ => bind (annotateProperty _) fun _ => pure _) surroundings progress
      fun property _ => obeys property
  exact obeyed.allowed surroundings progress provided

/-- Every step of the evaluation of a rule obeys the flag. -/
theorem steps : StepCongruence fun _ evaluation _ => evaluation.Obeys cancellation where
  pure := pure
  throw := fun _ => ofSame (.ofSame fun _ _ => rfl) fun _ _ => rfl
  tooDeep := ofSame (.ofSame fun _ _ => rfl) fun _ _ => rfl
  bind := bind
  given := given
  isMissing := ofSame (.ofSame fun _ _ => rfl) fun _ _ => rfl
  checkCancelled := checkCancelled
  raiseFlag := ofSame (.raiseFlag cancellation.isRaised_lasts) fun _ _ => rfl
  detail := fun _ _ => ofSame (.ofSame fun _ _ => rfl) fun _ _ => rfl
  inNode := fun shown _ _ _ obeys => inNode _ shown obeys
  within := fun scope _ _ obeys => within scope obeys
  obtain := fun path property reference parameters date =>
    obtain ⟨path, property, reference, parameters, date⟩
  annotateProperty := annotateProperty
  noteMissing := fun _ _ => ofSame (.ofSame fun _ _ => rfl) fun _ _ => rfl
  recorded := fun path _ _ obeys => recorded path obeys
  recordedName := fun name _ _ obeys => recorded name (resolveName obeys)

theorem congruence : RuleCongruence fun _ evaluation _ => evaluation.Obeys cancellation where
  toValueCongruence := steps.lookups.values
  gathered := fun _ => ofSame (.ofSame fun _ _ => rfl) fun _ _ => rfl
  setOutput := fun _ _ => ofSame (.ofSame fun _ _ => rfl) fun _ _ => rfl
  outermost := fun _ _ shown _ _ obeys => inNode _ shown obeys

end Evaluation.Obeys

namespace Registry

variable {cancellation : Cancellation}

theorem preparesKeeping_raised (registry : Registry) (cancellation : Cancellation) :
    registry.PreparesKeeping fun shared => cancellation.isRaised shared = true :=
  fun _ _ _ _ raised => (isRaised_prepare _ _ _ _ _ _).trans raised

/-- A service obeys the flag when the answers to its calls do. -/
theorem evaluateLaw_allowed (registry : Registry) {provider : Provider} (claims : Option ClaimLookup)
    (obeys : provider.Obeys cancellation) (request : Request) (date : Date) (shared : Shared) :
    cancellation.Allows id
      (registry.evaluateLaw provider claims (request.withCancellation .none) date shared)
      (registry.evaluateLaw provider claims (request.withCancellation cancellation) date shared) := by
  cases prepared : registry.prepare request.service request.law date shared with
  | mk selected between =>
      have asked (flag : Cancellation) :
          registry.prepare (request.withCancellation flag).service
            (request.withCancellation flag).law date shared = (selected, between) := prepared
      rw [evaluateLaw, evaluateLaw, asked, asked]
      cases selected with
      | error cause => exact .inl rfl
      | ok rule =>
          exact ((Evaluation.Obeys.congruence.run rule request.requested).allowed
            (rule.surroundings provider claims (registry.tablesOf request.service) request date)
            (Progress.start between) obeys).map (fun run => (run.1, run.2.shared)) (fun _ => rfl)
            fun cause after => ⟨cause, after.shared, rfl, rfl⟩

/-- A flag that is up when a call starts cancels it before anything else. -/
theorem provider_raised (registry : Registry) (claims : Option ClaimLookup) (fuel : Nat)
    {request : Request} {shared : Shared} (raised : request.cancellation.isRaised shared = true) :
    registry.provider claims (fuel + 1) request shared = (.error .cancelled, shared) := by
  rw [provider, if_pos raised]

theorem provider_lowered (registry : Registry) (claims : Option ClaimLookup) (fuel : Nat)
    (request : Request) {shared : Shared} (lowered : cancellation.isRaised shared = false) :
    registry.provider claims (fuel + 1) (request.withCancellation cancellation) shared =
      if registry.hasService request.service then
        registry.evaluateLaw (registry.provider claims fuel) claims
          (request.withCancellation cancellation) (request.date.getD registry.rootDate) shared
      else (.error (.unknownService request.service), shared) := by
  have down : ¬ (request.withCancellation cancellation).cancellation.isRaised shared = true :=
    Bool.eq_false_iff.mp lowered
  rw [provider, if_neg down]
  rfl

/-- However deep calls are nested, they obey the flag. -/
theorem provider_obeys (registry : Registry) (claims : Option ClaimLookup)
    (cancellation : Cancellation) (fuel : Nat) :
    (registry.provider claims fuel).Obeys cancellation := by
  have keeps (fuel : Nat) := registry.provider_keeps cancellation.isRaised_lasts
    (registry.preparesKeeping_raised cancellation) claims fuel
  induction fuel with
  | zero => exact ⟨keeps 0, fun _ _ => .inl rfl⟩
  | succ fuel inductionHypothesis =>
      refine ⟨keeps (fuel + 1), fun request shared => ?_⟩
      cases raised : cancellation.isRaised shared with
      | true =>
          exact .inr ⟨.cancelled, shared, registry.provider_raised claims fuel raised, rfl,
            keeps (fuel + 1) _ shared raised⟩
      | false =>
          have plain : Cancellation.none.isRaised shared = false := rfl
          rw [registry.provider_lowered claims fuel request plain,
            registry.provider_lowered claims fuel request raised]
          split
          · exact registry.evaluateLaw_allowed claims inductionHypothesis request _ shared
          · exact .inl rfl

/-- Under a flag of cancellation the answer to a request is the answer without it, or it is an error
that comes from the cancellation. It is never the latter when the flag is still down at the end of
the evaluation without it. A flag that is up at the start cancels the request itself: nothing is
prepared or raised then, whatever the tables are. -/
theorem evaluate_withCancellation (registry : Registry) (claims : Option ClaimLookup)
    (request : Request) (cancellation : Cancellation) (shared : Shared) :
    let plain := registry.evaluate claims (request.withCancellation .none) shared
    let flagged := registry.evaluate claims (request.withCancellation cancellation) shared
    (flagged = plain ∨ ∃ cause, flagged.1 = .error cause ∧ cause.rootCause = .cancelled) ∧
      (cancellation.isRaised plain.2 = false → flagged = plain) ∧
      (cancellation.isRaised shared = true → ∀ tables,
        ({ registry with tables }).evaluate claims (request.withCancellation cancellation) shared =
          (.error .cancelled, shared)) := by
  intro plain flagged
  have allowed : cancellation.Allows id plain flagged :=
    (registry.provider_obeys claims cancellation _).allowed request shared
  refine ⟨?_, ?_, ?_⟩
  · rcases allowed with same | ⟨cause, after, stopped, cancelled, _⟩
    · exact .inl same
    · exact .inr ⟨cause, congrArg Prod.fst stopped, cancelled⟩
  · intro lowered
    rcases allowed with same | ⟨_, _, _, _, raised⟩
    · exact same
    · rw [id, lowered] at raised
      cases raised
  · intro raised tables
    exact ({ registry with tables }).provider_raised claims _ raised

end Registry

end Statute
