/-
This file proves that an evaluation depends on its provider only through requests of its own kind.
-/

import Statute.Proofs.Evaluation.RuleCongruence

namespace Statute

/-- Two providers answer all requests alike that take the same kind of claims into account. -/
def Provider.AgreesOn (approved : Bool) (first second : Provider) : Prop :=
  ∀ request shared, request.approved = approved → first request shared = second request shared

/-- The surroundings with another provider. -/
def Surroundings.withProvider (provider : Provider) (surroundings : Surroundings) : Surroundings :=
  { surroundings with provider }

/-- Two evaluations run alike, one with each of two providers, wherever the same kind of claims
counts. -/
def RunsAlike (approved : Bool) (first second : Provider) {α : Type}
    (evaluation other : Evaluation α) : Prop :=
  ∀ (surroundings : Surroundings) (progress : Progress), surroundings.approved = approved →
    evaluation.runFrom (surroundings.withProvider first) progress =
      other.runFrom (surroundings.withProvider second) progress

namespace RunsAlike

variable {approved : Bool} {first second : Provider} {α β : Type}

theorem bind {evaluation other : Evaluation α} {next following : α → Evaluation β}
    (alike : RunsAlike approved first second evaluation other)
    (continues : ∀ value, RunsAlike approved first second (next value) (following value)) :
    RunsAlike approved first second (evaluation >>= next) (other >>= following) := by
  intro surroundings progress same
  rw [Evaluation.runFrom_bind, Evaluation.runFrom_bind, alike surroundings progress same]
  cases other.runFrom (surroundings.withProvider second) progress with
  | mk result between =>
      cases result with
      | error cause => rfl
      | ok value => exact continues value surroundings between same

/-- The surroundings show the same except for the provider. -/
theorem given {view : Surroundings → α} (plain : IsPlainView view) :
    RunsAlike approved first second (Evaluation.given view) (Evaluation.given view) := by
  intro surroundings progress _
  have ran (provider : Provider) :
      (Evaluation.given view).runFrom (surroundings.withProvider provider) progress =
        (.ok (view surroundings), progress) :=
    congrArg (fun shown => (Except.ok shown, progress))
      (plain surroundings provider surroundings.cancellation)
  rw [ran, ran]

theorem inNode (node : TraceNode) (shown : α → Value) {body other : Evaluation α}
    (alike : RunsAlike approved first second body other) :
    RunsAlike approved first second (Evaluation.inNode node shown body)
      (Evaluation.inNode node shown other) := by
  intro surroundings progress same
  rw [Evaluation.runFrom_inNode, Evaluation.runFrom_inNode, alike surroundings _ same]

theorem within (scope : Record) {body other : Evaluation α}
    (alike : RunsAlike approved first second body other) :
    RunsAlike approved first second (Evaluation.within scope body)
      (Evaluation.within scope other) := by
  intro surroundings progress same
  rw [Evaluation.runFrom_within, Evaluation.runFrom_within, alike surroundings _ same]

/-- A call is made alike, since it hands the kind of claims on. -/
theorem obtain (agrees : first.AgreesOn approved second) (question : Call.Question) :
    RunsAlike approved first second
      (Call.obtain question.path question.property question.reference question.parameters
        question.date)
      (Call.obtain question.path question.property question.reference question.parameters
        question.date) := by
  intro surroundings progress same
  cases remembered : progress.remembered? question.key with
  | some value =>
      rw [Call.runFrom_obtain_some remembered, Call.runFrom_obtain_some remembered]
      rfl
  | none =>
      rw [Call.runFrom_obtain_none remembered, Call.runFrom_obtain_none remembered]
      let request := question.request surroundings
      cases asked : second request progress.shared with
      | mk result shared =>
          have askedFirst : (surroundings.withProvider first).provider
              (question.request (surroundings.withProvider first)) progress.shared =
                (result, shared) := (agrees request _ same).trans asked
          have askedSecond : (surroundings.withProvider second).provider
              (question.request (surroundings.withProvider second)) progress.shared =
                (result, shared) := asked
          cases result with
          | error cause =>
              rw [Call.runFrom_perform_error askedFirst, Call.runFrom_perform_error askedSecond]
          | ok outcome =>
              rw [Call.runFrom_perform_ok askedFirst, Call.runFrom_perform_ok askedSecond]

theorem recorded (path : String) {body other : Evaluation Resolution.Found}
    (alike : RunsAlike approved first second body other) :
    RunsAlike approved first second (Resolution.recorded path body)
      (Resolution.recorded path other) := by
  intro surroundings progress same
  rw [Resolution.runFrom_recorded, Resolution.runFrom_recorded, alike surroundings _ same]

/-- A name is found alike when its property has the same value. -/
theorem resolveName {lookUp other : LookUp} {name : String}
    (alike : ∀ property, RunsAlike approved first second
      (Resolution.resolveProperty lookUp name property)
      (Resolution.resolveProperty other name property)) :
    RunsAlike approved first second (Resolution.resolveName lookUp name)
      (Resolution.resolveName other name) := by
  intro surroundings progress same
  rw [Resolution.runFrom_resolveName_chosen, Resolution.runFrom_resolveName_chosen]
  have sameChoice (provider : Provider) (lookUp : LookUp) :
      Resolution.chosen lookUp (surroundings.withProvider provider) progress name =
        Resolution.chosen lookUp surroundings progress name := rfl
  rw [sameChoice, sameChoice]
  have related : RunsAlike approved first second
      (Resolution.chosen lookUp surroundings progress name)
      (Resolution.chosen other surroundings progress name) :=
    Resolution.chosen_related (RunsAlike approved first second) lookUp other (fun _ _ _ _ => rfl)
      (fun _ _ _ _ _ => rfl) surroundings progress fun property _ => alike property
  exact related surroundings progress same

/-- The flag of cancellation does not belong to the provider. -/
theorem checkCancelled :
    RunsAlike approved first second Evaluation.checkCancelled Evaluation.checkCancelled := by
  intro surroundings progress _
  rw [Evaluation.runFrom_checkCancelled, Evaluation.runFrom_checkCancelled]
  rfl

theorem steps (agrees : first.AgreesOn approved second) :
    StepCongruence fun _ evaluation other => RunsAlike approved first second evaluation other where
  pure := fun _ _ _ _ => rfl
  throw := fun _ _ _ _ => rfl
  tooDeep := fun _ _ _ => rfl
  bind := bind
  given := given
  isMissing := fun _ _ _ => rfl
  checkCancelled := checkCancelled
  raiseFlag := fun _ _ _ => rfl
  detail := fun _ _ _ _ _ => rfl
  inNode := fun shown _ _ _ alike => inNode _ shown alike
  within := fun scope _ _ alike => within scope alike
  obtain := fun path property reference parameters date =>
    obtain agrees ⟨path, property, reference, parameters, date⟩
  annotateProperty := fun _ _ _ _ => rfl
  noteMissing := fun _ _ _ _ _ => rfl
  recorded := fun path _ _ alike => recorded path alike
  recordedName := fun name _ _ alike => recorded name (resolveName alike)

/-- Rules run alike with providers that answer alike. -/
theorem congruence (agrees : first.AgreesOn approved second) :
    RuleCongruence fun _ evaluation other => RunsAlike approved first second evaluation other where
  toValueCongruence := (steps agrees).lookups.values
  gathered := fun _ _ _ _ => rfl
  setOutput := fun _ _ _ _ _ => rfl
  outermost := fun _ _ shown _ _ alike => inNode _ shown alike

end RunsAlike

/-- A rule is evaluated alike when the same is claimed and calls are answered alike. -/
theorem Rule.evaluate_alike (rule : Rule) {first second : Provider}
    {firstClaims secondClaims : Option ClaimLookup} {request : Request}
    (agrees : first.AgreesOn request.approved second)
    (sameClaims : rule.claimsFor firstClaims request = rule.claimsFor secondClaims request)
    (sources : Entries Source) (date : Date) (shared : Shared) :
    rule.evaluate first firstClaims sources request date shared =
      rule.evaluate second secondClaims sources request date shared := by
  have alike := (RunsAlike.congruence agrees).run rule request.requested
    (rule.surroundings second secondClaims sources request date) (Progress.start shared) rfl
  have surrounded : rule.surroundings first firstClaims sources request date =
      (rule.surroundings second secondClaims sources request date).withProvider first := by
    simp only [surroundings, Surroundings.withProvider, sameClaims]
  have same : rule.surroundings second secondClaims sources request date =
      (rule.surroundings second secondClaims sources request date).withProvider second := rfl
  rw [evaluate, evaluate, surrounded, alike, ← same]

namespace Registry

variable {first second : ClaimLookup} {approved : Bool}

/-- However deep calls are nested, they are answered alike when the same is claimed. -/
theorem provider_agreesOn (registry : Registry)
    (sameClaims : ∀ person service law,
      first person service law approved = second person service law approved) (fuel : Nat) :
    (registry.provider (some first) fuel).AgreesOn approved
      (registry.provider (some second) fuel) := by
  induction fuel with
  | zero => exact fun _ _ _ => rfl
  | succ fuel inductionHypothesis =>
      rintro request shared rfl
      have claimed (rule : Rule) :
          rule.claimsFor (some first) request = rule.claimsFor (some second) request := by
        unfold Rule.claimsFor
        cases (Entries.get? personParameter request.parameters).bind Value.string? with
        | none => rfl
        | some person => exact sameClaims person rule.service rule.law
      have alike (rule : Rule) := rule.evaluate_alike inductionHypothesis (claimed rule)
      simp only [provider, evaluateLaw, alike]

/-- An answer depends on the claims that count for its request only. -/
theorem evaluate_agreesOn (registry : Registry)
    (sameClaims : ∀ person service law,
      first person service law approved = second person service law approved) :
    (registry.evaluate (some first)).AgreesOn approved (registry.evaluate (some second)) :=
  registry.provider_agreesOn sameClaims _

end Registry

/-- The tax office gives the income that a person declares, which must be known. -/
def incomeRule : Rule :=
  { uuid := "awir-2025"
    name := "Inkomen"
    law := "awir"
    service := "BELASTINGDIENST"
    validFrom := default
    description := none
    discoverable := none
    properties := { Properties.empty with
      inputs := [⟨"declared", none, some "amount", none, none, none, none, true⟩] }
    requirements := []
    actions := [⟨"income", some (.literal (.string "$declared")), none⟩] }

/-- A supplement of a fixed amount and the income, for which the tax office is asked. -/
def supplementRule : Rule :=
  { uuid := "zt-2025"
    name := "Zorgtoeslag"
    law := "zorgtoeslagwet"
    service := "TOESLAGEN"
    validFrom := default
    description := none
    discoverable := none
    properties := { Properties.empty with
      inputs := [⟨"income", none, some "amount", none, none,
        some ⟨"BELASTINGDIENST", "income", "awir", []⟩, none, false⟩] }
    requirements := []
    actions := [⟨"amount", none, some { Operation.named "ADD" with
      values := some (.list [.literal (.int 1200), .literal (.string "$income")]) }⟩] }

/-- The services of the income and the supplement. -/
def supplementRegistry : Registry :=
  Registry.ofCatalog (Catalog.ofRules [incomeRule, supplementRule]) default

/-- A request for the supplement of a person. -/
def supplementRequest (approved : Bool) : Request :=
  ⟨"TOESLAGEN", "zorgtoeslagwet", [("BSN", .string "111")], none, [], none, approved, .none⟩

end Statute
