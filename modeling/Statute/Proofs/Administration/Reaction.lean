/-
This file proves which version of a rule the trigger evaluates for a declaration.
-/

import Statute.Proofs.Administration.Lifecycle
import Statute.Proofs.Evaluation.Preparation

namespace Statute

namespace Catalog

variable {catalog : Catalog} {rule : Rule}

/-- Matching declarations are found in all versions, whether these are in force or not. -/
theorem mem_matching {eventType : String} {data : Record} {declaration : Declaration} :
    (rule, declaration) ∈ catalog.matching eventType data ↔
      rule ∈ catalog.rules ∧ declaration ∈ rule.properties.declarations ∧
        declaration.isMatch eventType data = true := by
  simp [matching, and_assoc]

theorem mem_services (member : rule ∈ catalog.rules) : rule.service ∈ catalog.services := by
  have collected (rules : List Rule) (names : List String) (name : String) :
      name ∈ rules.foldl (fun names rule => Entries.insertName rule.service names) names ↔
        name ∈ names ∨ ∃ rule ∈ rules, rule.service = name := by
    induction rules generalizing names with
    | nil => simp
    | cons first rest inductionHypothesis =>
        rw [List.foldl_cons, inductionHypothesis, Entries.mem_insertName]
        simp [or_assoc, eq_comm, or_left_comm]
  exact (collected catalog.rules [] rule.service).mpr (.inr ⟨rule, member, rfl⟩)

/-- The selected version is the one that is in force. -/
theorem select_ok {law service : String} {date : Date}
    (selected : catalog.select law date service = .ok rule) :
    catalog.version? law date = some rule := by
  unfold select at selected
  split at selected
  · cases selected
  · rename_i version inForce
    split at selected
    · cases selected
      exact inForce
    · cases selected

/-- A version is the selected one exactly when it is in force. -/
theorem select_eq_iff {law service : String} {date : Date} {version : Rule}
    (selected : catalog.select law date service = .ok version) (rule : Rule) :
    version = rule ↔ catalog.version? law date = some rule := by
  rw [select_ok selected, Option.some_inj]

end Catalog

namespace Registry

variable {registry : Registry}

/-- The service that owns a version is one of the registry's. -/
theorem hasService_of_mem {rule : Rule} (member : rule ∈ registry.catalog.rules) :
    registry.hasService rule.service = true :=
  List.contains_iff_mem.mpr (Catalog.mem_services member)

/-- To replace a table leaves the catalog as it is. -/
theorem setTable_catalog {after : Registry} {table : String} {source : Source}
    (replaced : registry.setTable service table source = .ok after) :
    after.catalog = registry.catalog := by
  unfold setTable at replaced
  split at replaced
  · cases replaced
    rfl
  · cases replaced

end Registry

namespace Administration

variable {before after administration : Administration}

/-- Every version that an administration has prepared is the one that its catalog selects. -/
def Follows (administration : Administration) : Prop :=
  administration.shared.Follows administration.registry.catalog

/-- An evaluation prepares the versions that the catalog selects. -/
theorem Follows.evaluate (follows : administration.Follows) (request : Request) :
    (administration.registry.evaluate (some administration.claims.lookup) request
      administration.shared).2.Follows administration.registry.catalog :=
  Registry.provider_keeps (Shared.Follows.lasts _) administration.registry.preparesKeeping_follows
    _ _ request administration.shared follows

theorem QuietEffect.registry (effect : QuietEffect before after) :
    after.registry = before.registry := by
  cases effect <;> rfl

theorem QuietEffects.registry (effects : QuietEffects before after) :
    after.registry = before.registry := by
  induction effects with
  | refl => rfl
  | tail _ effect inductionHypothesis => exact effect.registry.trans inductionHypothesis

theorem QuietEffect.follows (effect : QuietEffect before after) (follows : before.Follows) :
    after.Follows := by
  cases effect with
  | evaluate request => exact follows.evaluate request
  | count processed failed => exact follows
  | determine determination changed => exact follows
  | attach attached => exact follows
  | recordReview recorded => exact follows
  | fileClaim stored => exact follows
  | changeClaim sameLink changed => exact follows
  | linkClaim stored linked => exact follows

theorem QuietEffects.follows (effects : QuietEffects before after) (follows : before.Follows) :
    after.Follows := by
  induction effects with
  | refl => exact follows
  | tail _ effect inductionHypothesis => exact effect.follows inductionHypothesis

theorem Effect.follows {command : Command} (effect : Effect command before after)
    (follows : before.Follows) : after.Follows := by
  cases effect with
  | quiet effects => exact QuietEffects.follows effects follows
  | setTable replaced =>
      unfold Follows
      rw [Registry.setTable_catalog replaced]
      exact follows
  | submit answered isPlaced isSettled =>
      rename_i submission outcome shared id placed settled case
      have left := follows.evaluate (submissionRequest submission)
      rw [answered] at left
      exact left
  | completeReview decided => exact follows
  | object objected => exact follows

theorem Reachable.follows (reachable : Reachable administration) : administration.Follows :=
  reachable.invariant (fun _ _ _ _ _ prepared => nomatch prepared)
    fun effect _ follows => effect.follows follows

/-- The answer of a given version to a request. -/
def answerOf (version : Rule) (request : Request) : Procedure Outcome := do
  let administration ← get
  let registry := administration.registry
  let claims := some administration.claims.lookup
  let (answer, shared) := version.evaluate (registry.provider claims registry.nestingLimit) claims
    (registry.tablesOf request.service) request (request.date.getD registry.rootDate)
    administration.shared
  set { administration with shared }
  match answer with
  | .ok outcome => return outcome
  | .error cause => throw (.evaluation cause)

theorem perform_answerOf (version : Rule) (request : Request) (administration : Administration) :
    perform (answerOf version request) administration =
      let registry := administration.registry
      let claims := some administration.claims.lookup
      let answer := version.evaluate (registry.provider claims registry.nestingLimit) claims
        (registry.tablesOf request.service) request (request.date.getD registry.rootDate)
        administration.shared
      (answer.1.mapError .evaluation, { administration with shared := answer.2 }) := by
  simp only [answerOf, perform_bind, perform_get, perform_set]
  cases (version.evaluate (administration.registry.provider (some administration.claims.lookup)
    administration.registry.nestingLimit) (some administration.claims.lookup)
    (administration.registry.tablesOf request.service) request
    (request.date.getD administration.registry.rootDate) administration.shared).1 <;> rfl

/-- A service that owns a version answers a request for a law by the version of the law that is
selected, and by an error if none is. -/
theorem perform_evaluate_selected {registry : Registry}
    (isRegistry : administration.registry = registry) (follows : administration.Follows)
    {request : Request} (owned : registry.hasService request.service = true)
    (unflagged : request.cancellation = .none) :
    let date := request.date.getD registry.rootDate
    (∀ cause, registry.catalog.select request.law date request.service = .error cause →
      perform (evaluate request) administration =
        (.error (.evaluation (.rule cause)), administration)) ∧
    ∀ version, registry.catalog.select request.law date request.service = .ok version →
      perform (evaluate request) administration = perform (answerOf version request)
        { administration with
          shared := (registry.prepare request.service request.law date administration.shared).2 } := by
  subst isRegistry
  intro date
  let registry := administration.registry
  have calm : request.cancellation.isRaised administration.shared = false := by
    rw [unflagged]
    rfl
  have answered : registry.evaluate (some administration.claims.lookup) request
        administration.shared =
      registry.evaluateLaw (registry.provider (some administration.claims.lookup)
        registry.nestingLimit) (some administration.claims.lookup) request date
        administration.shared := by
    rw [Registry.evaluate, Registry.provider, calm, if_neg Bool.false_ne_true, if_pos owned]
  rw [perform_evaluate, show administration.registry = registry from rfl, answered,
    Registry.evaluateLaw]
  constructor
  · intro cause failed
    rw [Registry.prepare_error follows failed]
    rfl
  · intro version selected
    have prepared := Registry.prepare_ok follows selected
    rw [perform_answerOf]
    cases isPrepared : registry.prepare request.service request.law date administration.shared with
    | mk result shared =>
        rw [isPrepared] at prepared
        obtain rfl : result = .ok version := prepared
        rfl

theorem applyDeclarations_append (event : Event) (earlier later : List (Rule × Declaration)) :
    applyDeclarations event (earlier ++ later) = do
      let count ← applyDeclarations event earlier
      let others ← applyDeclarations event later
      return count + others := by
  induction earlier with
  | nil => simp only [List.nil_append, applyDeclarations, pure_bind, Nat.zero_add, bind_pure]
  | cons declared rest inductionHypothesis =>
      obtain ⟨rule, declaration⟩ := declared
      simp only [List.cons_append, applyDeclarations, inductionHypothesis, bind_assoc, pure_bind,
        Nat.add_assoc]

/-- Once the declarations before it were applied, a declaration is evaluated with the case as it is
then. -/
theorem perform_applyRules_of_applied {event : Event} {earlier later : List (Rule × Declaration)}
    {rule : Rule} {declaration : Declaration} {count : Nat} {reached : Administration} {case : Case}
    (declared : administration.registry.catalog.matching event.kind.name event.data =
      earlier ++ (rule, declaration) :: later)
    (applied : perform (applyDeclarations event earlier) administration = (.ok count, reached))
    (found : Association.get? event.case reached.cases.cases = some case)
    (named : case.id = event.case) :
    perform (applyRules event) administration = perform (do
      let outcome ← evaluate (approvedRequest rule.service rule.law
        [(declaration.name, reached.shown case)] (some reached.registry.rootDate))
      let updates ← applyUpdates event.case outcome.output declaration.updates
      let others ← applyDeclarations event later
      return count + (updates + others)) reached := by
  rw [applyRules, perform_bind, perform_get]
  dsimp only
  rw [declared, applyDeclarations_append, perform_bind, applied]
  dsimp only
  simp only [applyDeclarations, applyDeclaration, bind_assoc, pure_bind]
  rw [perform_bind, perform_caseOf, CaseStore.case_eq_ok.mpr found]
  dsimp only
  rw [perform_bind, perform_get]
  dsimp only
  rw [named]

/-- The trigger does not ask for the version that contains a matching declaration, but for the law of
that version as of the registry's date. It fails if no version is selected, and else writes the
outputs of the selected version to the case, as the declaration says. The selected version is the one
with the declaration exactly when that one is in force. -/
theorem applyRules_version (reachable : Reachable administration) {event : Event}
    (recorded : event ∈ administration.cases.events)
    {earlier later : List (Rule × Declaration)} {rule : Rule} {declaration : Declaration}
    (declared : administration.registry.catalog.matching event.kind.name event.data =
      earlier ++ (rule, declaration) :: later)
    {count : Nat} {reached : Administration}
    (applied : perform (applyDeclarations event earlier) administration = (.ok count, reached)) :
    let registry := administration.registry
    let date := registry.rootDate
    ∃ case, Association.get? event.case reached.cases.cases = some case ∧
      (∀ cause, registry.catalog.select rule.law date rule.service = .error cause →
        perform (applyRules event) administration =
          (.error (.evaluation (.rule cause)), reached)) ∧
      ∀ version, registry.catalog.select rule.law date rule.service = .ok version →
        (version = rule ↔ registry.catalog.version? rule.law date = some rule) ∧
        perform (applyRules event) administration = perform (do
          let outcome ← answerOf version (approvedRequest rule.service rule.law
            [(declaration.name, reached.shown case)] (some date))
          let updates ← applyUpdates event.case outcome.output declaration.updates
          let others ← applyDeclarations event later
          return count + (updates + others)) { reached with
            shared := (registry.prepare rule.service rule.law date reached.shared).2 } := by
  intro registry date
  have effects : QuietEffects administration reached := by
    have quiet := Quiet.applyDeclarations event earlier administration
    rw [applied] at quiet
    exact quiet
  have sameRegistry : reached.registry = registry := QuietEffects.registry effects
  have numbered : reached.cases.Numbered := (QuietEffects.steps effects).numbered reachable.numbered
  obtain ⟨case, found⟩ : reached.cases.Stores event.case :=
    (QuietEffects.stores effects reachable.numbered event.case).mpr
      (reachable.integrity.owned event recorded)
  have named : case.id = event.case := (numbered.stored _ _ found).1
  have resumed := perform_applyRules_of_applied declared applied found named
  rw [sameRegistry] at resumed
  have contained : (rule, declaration) ∈ registry.catalog.matching event.kind.name event.data := by
    rw [declared]
    exact List.mem_append_right _ List.mem_cons_self
  let request := approvedRequest rule.service rule.law [(declaration.name, reached.shown case)]
    (some date)
  have owned : registry.hasService request.service = true :=
    Registry.hasService_of_mem (Catalog.mem_matching.mp contained).1
  obtain ⟨failing, answering⟩ := perform_evaluate_selected sameRegistry
    (QuietEffects.follows effects reachable.follows) owned rfl
  refine ⟨case, found, fun cause failed => ?_,
    fun version selected => ⟨Catalog.select_eq_iff selected rule, ?_⟩⟩
  · rw [resumed, perform_bind, failing cause failed]
  · rw [resumed, perform_bind, answering version selected, ← perform_bind]
    rfl

/-- One version of a law on objections, which says whether an objection is possible. -/
def objectionVersion (uuid : String) (validFrom : Date) (possible : Bool)
    (declarations : List Declaration) : Rule :=
  { uuid
    name := "Bezwaar"
    law := "awb/bezwaar"
    service := "JenV"
    validFrom
    description := none
    discoverable := none
    properties := { Properties.empty with declarations }
    requirements := []
    actions := [⟨"objection_possible", some (.literal (.bool possible)), none⟩] }

/-- The declaration that a submission determines whether an objection is possible. -/
def objectionDeclaration : Declaration :=
  ⟨"case", "Case", [⟨"Submitted", []⟩],
    [⟨"determine_objection_status", [("possible", "$objection_possible")]⟩]⟩

/-- The version of the year before reacts to submissions. -/
def formerVersion : Rule :=
  objectionVersion "bezwaar-2024" (.january 2024 (by decide)) false [objectionDeclaration]

/-- The version that is in force reacts to nothing. -/
def presentVersion : Rule :=
  objectionVersion "bezwaar-2025" (.january 2025 (by decide)) true []

/-- An administration with both versions and one submission. -/
def objectionOffice : Administration :=
  (ofCatalog (Catalog.ofRules [formerVersion, presentVersion])
    { Configuration.default with
      rootDate := some ⟨2025, 3, 1, by decide, by decide, by decide⟩ }
    (fun _ => ⟨default, 0, 0⟩) (fun _ => Double.ofInt 1)).run
      [.submit ⟨⟨"111", "JenV", "awb/bezwaar"⟩, [], [], false⟩]

theorem catalog_objectionOffice :
    objectionOffice.registry.catalog = [("awb/bezwaar", [formerVersion, presentVersion])] :=
  rfl

theorem isMatch_objectionDeclaration (data : Record) :
    objectionDeclaration.isMatch EventKind.submitted.name data = true := by
  simp [objectionDeclaration, Declaration.isMatch, EventPattern.isMatch, EventKind.name]

/-- Only the former version matches the submission. -/
theorem matching_objectionOffice (data : Record) :
    objectionOffice.registry.catalog.matching EventKind.submitted.name data =
      [(formerVersion, objectionDeclaration)] := by
  rw [catalog_objectionOffice]
  simp [Catalog.matching, Catalog.rules, formerVersion, presentVersion, objectionVersion,
    isMatch_objectionDeclaration]

/-- Only the present version is selected. -/
theorem select_objectionOffice :
    objectionOffice.registry.catalog.select "awb/bezwaar" objectionOffice.registry.rootDate "JenV" =
      .ok presentVersion := by
  rw [catalog_objectionOffice]
  rfl

/-- The request with which the trigger asks for the law of the former version. -/
def objectionRequest (case : Case) : Request :=
  approvedRequest formerVersion.service formerVersion.law
    [(objectionDeclaration.name, objectionOffice.shown case)] (some objectionOffice.registry.rootDate)

/-- What the trigger writes to the case of the submission. -/
theorem objectionOffice_reacts :
    (objectionOffice.cases.events.head?.map fun event =>
      let reaction := perform (applyRules event) objectionOffice
      (event.kind, event.case, reaction.1.toOption,
        (Association.get? event.case reaction.2.cases.cases).bind fun case =>
          case.objectionStatus.possible)) = some (.submitted, ⟨1⟩, some 1, some true) := by
  decide +kernel

/-- What the former version answers about the case of the submission. -/
theorem formerVersion_answers :
    ((Association.get? ⟨1⟩ objectionOffice.cases.cases).bind fun case =>
      (perform (answerOf formerVersion (objectionRequest case)) objectionOffice).1.toOption.bind
        fun outcome => flagField? "objection_possible" outcome.output) = some false := by
  decide +kernel

/-- The submission is recorded, only the former version declares a reaction to it, and one update is
made. -/
theorem objectionOffice_submitted :
    ∃ event ∈ objectionOffice.cases.events, event.case = ⟨1⟩ ∧
      objectionOffice.registry.catalog.matching event.kind.name event.data =
        [(formerVersion, objectionDeclaration)] ∧
      let reaction := perform (applyRules event) objectionOffice
      reaction.1.toOption = some 1 ∧
        ((Association.get? event.case reaction.2.cases.cases).bind fun case =>
          case.objectionStatus.possible) = some true := by
  obtain ⟨event, first, reacts⟩ := Option.map_eq_some_iff.mp objectionOffice_reacts
  obtain ⟨kind, there, reaction⟩ : event.kind = .submitted ∧ event.case = ⟨1⟩ ∧ _ ∧ _ := by
    simpa only [Prod.mk.injEq] using reacts
  refine ⟨event, List.mem_of_mem_head? first, there, ?_, reaction⟩
  rw [kind]
  exact matching_objectionOffice event.data

theorem applyRules_version_objectionOffice :
    ∃ event case, objectionOffice.Reachable ∧ event ∈ objectionOffice.cases.events ∧
      objectionOffice.registry.catalog.matching event.kind.name event.data =
        [] ++ (formerVersion, objectionDeclaration) :: [] ∧
      perform (applyDeclarations event []) objectionOffice = (.ok 0, objectionOffice) ∧
      Association.get? event.case objectionOffice.cases.cases = some case ∧
      ∃ shared, perform (applyRules event) objectionOffice = perform (do
        let outcome ← answerOf presentVersion (objectionRequest case)
        let updates ← applyUpdates event.case outcome.output objectionDeclaration.updates
        let others ← applyDeclarations event []
        return 0 + (updates + others)) { objectionOffice with shared } := by
  obtain ⟨event, recorded, _, declared, _⟩ := objectionOffice_submitted
  have reachable : objectionOffice.Reachable := ⟨_, _, _, _, _, rfl⟩
  have applied : perform (applyDeclarations event []) objectionOffice = (.ok 0, objectionOffice) :=
    rfl
  obtain ⟨case, found, _, answers⟩ := applyRules_version reachable recorded declared applied
  exact ⟨event, case, reachable, recorded, declared, applied, found, _,
    (answers presentVersion select_objectionOffice).2⟩

/-- The trigger writes an answer of the present version as the former version declares, although the
former version is not in force and answers otherwise. -/
theorem applyRules_mixes_versions :
    ∃ event ∈ objectionOffice.cases.events,
      objectionOffice.registry.catalog.matching event.kind.name event.data =
        [(formerVersion, objectionDeclaration)] ∧
      objectionOffice.registry.catalog.version? formerVersion.law
        objectionOffice.registry.rootDate = some presentVersion ∧
      presentVersion.uuid ≠ formerVersion.uuid ∧
      let reaction := perform (applyRules event) objectionOffice
      reaction.1.toOption = some 1 ∧
      ((Association.get? event.case reaction.2.cases.cases).bind fun case =>
        case.objectionStatus.possible) = some true ∧
      ((Association.get? event.case objectionOffice.cases.cases).bind fun case =>
        (perform (answerOf formerVersion (objectionRequest case)) objectionOffice).1.toOption.bind
          fun outcome => flagField? "objection_possible" outcome.output) = some false := by
  obtain ⟨event, recorded, there, declared, counted, written⟩ := objectionOffice_submitted
  refine ⟨event, recorded, declared, Catalog.select_ok select_objectionOffice, by decide, counted,
    written, ?_⟩
  rw [there]
  exact formerVersion_answers

end Administration

end Statute
