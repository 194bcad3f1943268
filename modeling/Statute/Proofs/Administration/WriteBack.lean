/-
This file proves that the trigger writes nothing but determinations to the case of an event.
-/

import Statute.Proofs.Administration.Run
import Statute.Proofs.Case.Determination

namespace Statute

/-- What a method determines from the fields that it is given. -/
def UpdateMethod.determination (fields : Record) : UpdateMethod → Determination
  | objectionStatus => .objection (ObjectionStatus.ofFields fields)
  | objectionAdmissibility => .admissibility (flagField? "admissible" fields)
  | appealStatus => .appeal (AppealStatus.ofFields fields)

namespace Update

/-- What an update determines from the outputs of a rule, if its method is known. -/
def determination (output : Record) (update : Update) : Except RuleError Determination :=
  (UpdateMethod.parse update.method).map (UpdateMethod.determination (update.fieldsFrom output))

/-- An update makes a determination from some outputs. -/
def Makes (update : Update) (determination : Determination) : Prop :=
  ∃ output, update.determination output = .ok determination

/-- The updates that were applied make up the start of a row, or the whole row and its count when
nothing failed. Each has made one determination. -/
structure Applied (updates : List Update) (result : Except CaseError Nat)
    (determinations : List Determination) : Prop where
  started : ∃ applied, applied <+: updates ∧ List.Forall₂ Makes applied determinations
  finished : ∀ count, result = .ok count →
    count = updates.length ∧ List.Forall₂ Makes updates determinations

/-- One update that was applied. -/
theorem Makes.applied {update : Update} {determination : Determination}
    (makes : update.Makes determination) : Applied [update] (.ok 1) [determination] := by
  refine ⟨⟨[update], List.prefix_refl _, .cons makes .nil⟩, fun count isCount => ?_⟩
  cases isCount
  exact ⟨rfl, .cons makes .nil⟩

namespace Applied

variable {updates others : List Update} {determinations : List Determination}

theorem none : Applied [] (.ok 0) [] :=
  ⟨⟨[], List.prefix_refl _, .nil⟩, fun _ isCount => by cases isCount; exact ⟨rfl, .nil⟩⟩

theorem stopped (updates : List Update) (error : CaseError) : Applied updates (.error error) [] :=
  ⟨⟨[], List.nil_prefix, .nil⟩, fun _ isCount => nomatch isCount⟩

/-- Updates after a row that failed are not applied. -/
theorem failed {error : CaseError} (applied : Applied updates (.error error) determinations)
    (others : List Update) : Applied (updates ++ others) (.error error) determinations := by
  obtain ⟨start, isStart, makes⟩ := applied.started
  exact ⟨⟨start, isStart.trans (List.prefix_append _ _), makes⟩, fun _ isCount => nomatch isCount⟩

/-- Updates after a row that succeeded are applied next. -/
theorem append {count : Nat} (applied : Applied updates (.ok count) determinations)
    {result : Except CaseError Nat} {more : List Determination}
    (next : Applied others result more) :
    Applied (updates ++ others) (result.map (count + ·)) (determinations ++ more) := by
  obtain ⟨isCount, made⟩ := applied.finished count rfl
  obtain ⟨start, isStart, makes⟩ := next.started
  refine ⟨⟨updates ++ start, (List.prefix_append_right_inj updates).mpr isStart,
    List.rel_append made makes⟩, fun total isTotal => ?_⟩
  cases result with
  | error error => cases isTotal
  | ok further =>
      obtain ⟨isFurther, madeFurther⟩ := next.finished further rfl
      obtain rfl : count + further = total := Except.ok.inj isTotal
      exact ⟨by rw [isCount, isFurther, List.length_append], List.rel_append made madeFurther⟩

theorem length_le {result : Except CaseError Nat}
    (applied : Applied updates result determinations) : determinations.length ≤ updates.length := by
  obtain ⟨start, isStart, makes⟩ := applied.started
  rw [← makes.length_eq]
  exact isStart.length_le

/-- Each determination is made by one of the updates. -/
theorem exists_makes {result : Except CaseError Nat}
    (applied : Applied updates result determinations) {determination : Determination}
    (member : determination ∈ determinations) : ∃ update ∈ updates, update.Makes determination := by
  obtain ⟨start, isStart, makes⟩ := applied.started
  obtain ⟨place, bound, rfl⟩ := List.getElem_of_mem member
  have inStart : place < start.length := makes.length_eq ▸ bound
  exact ⟨start[place], isStart.subset (List.getElem_mem inStart), makes.get inStart bound⟩

end Applied

end Update

namespace Administration

variable {id : CaseId} {before between after : Administration}

/-- The trigger has determined something about a case, and nothing else has changed but what
evaluations share. -/
structure Determines (id : CaseId) (determinations : List Determination)
    (before after : Administration) : Prop where
  cases : before.cases.Determines id determinations after.cases
  others : ∃ shared, after = { before with shared, cases := after.cases }

namespace Determines

variable {earlier later : List Determination}

theorem refl (id : CaseId) (administration : Administration) :
    Determines id [] administration administration :=
  ⟨.refl id administration.cases, administration.shared, rfl⟩

theorem trans (first : Determines id earlier before between)
    (second : Determines id later between after) : Determines id (earlier ++ later) before after := by
  obtain ⟨firstShared, isBetween⟩ := first.others
  obtain ⟨secondShared, isAfter⟩ := second.others
  refine ⟨first.cases.trans second.cases, secondShared, ?_⟩
  rw [isAfter, isBetween]

theorem ofShared (id : CaseId) (administration : Administration) (shared : Shared) :
    Determines id [] administration { administration with shared } :=
  ⟨.refl id administration.cases, shared, rfl⟩

end Determines

variable {administration : Administration} {output : Record} {update : Update}

theorem perform_discard_onCases {α : Type} {step : CaseStore → Except CaseError (α × CaseStore)}
    {result : α} {cases : CaseStore} (stepped : step administration.cases = .ok (result, cases)) :
    perform (discard (onCases step)) administration = (.ok (), { administration with cases }) := by
  have bound : discard (onCases step) = onCases step >>= fun _ => pure () := rfl
  rw [bound, perform_bind, perform_onCases, stepped]
  rfl

/-- An update with an unknown method fails. -/
theorem perform_applyUpdate_error {cause : RuleError}
    (unknown : update.determination output = .error cause) :
    perform (applyUpdate id output update) administration =
      (.error (.rule cause), administration) := by
  unfold Update.determination at unknown
  unfold applyUpdate
  cases parsed : UpdateMethod.parse update.method with
  | error error =>
      rw [parsed] at unknown
      obtain rfl : error = cause := Except.error.inj unknown
      rfl
  | ok method => rw [parsed] at unknown; cases unknown

/-- An update with a known method makes its determination about the case. -/
theorem perform_applyUpdate_ok {determination : Determination}
    (known : update.determination output = .ok determination) {case : Case}
    (found : Association.get? id administration.cases.cases = some case) :
    perform (applyUpdate id output update) administration =
      (.ok (), { administration with
        cases := (administration.cases.put (determination.apply case)).record id determination.kind
          determination.fields }) := by
  unfold Update.determination at known
  unfold applyUpdate
  cases parsed : UpdateMethod.parse update.method with
  | error error => rw [parsed] at known; cases known
  | ok method =>
      rw [parsed] at known
      obtain rfl := Except.ok.inj known
      cases method <;> exact perform_discard_onCases (CaseStore.change_of_ok found rfl)

theorem perform_bind_pure {α β : Type} (procedure : Procedure α) (finish : α → β) :
    perform (procedure >>= fun value => pure (finish value)) administration =
      ((perform procedure administration).1.map finish, (perform procedure administration).2) := by
  rw [perform_bind]
  cases perform procedure administration with
  | mk result after => cases result <;> rfl

/-- Each update that is applied makes one determination about the case. -/
theorem applyUpdates_determines (output : Record) (updates : List Update) {case : Case}
    (named : case.id = id) (found : Association.get? id administration.cases.cases = some case) :
    ∃ determinations,
      Determines id determinations administration
        (perform (applyUpdates id output updates) administration).2 ∧
      Update.Applied updates (perform (applyUpdates id output updates) administration).1
        determinations := by
  induction updates generalizing administration case with
  | nil => exact ⟨[], .refl id administration, .none⟩
  | cons update rest inductionHypothesis =>
      rw [applyUpdates, perform_bind]
      cases given : update.determination output with
      | error cause =>
          rw [perform_applyUpdate_error given]
          exact ⟨[], .refl id administration, .stopped _ _⟩
      | ok determination =>
          have makes : update.Makes determination := ⟨output, given⟩
          rw [perform_applyUpdate_ok given found]
          dsimp only
          have first : Determines id [determination] administration { administration with
              cases := (administration.cases.put (determination.apply case)).record id
                determination.kind determination.fields } :=
            ⟨.single named found determination, administration.shared, rfl⟩
          obtain ⟨determinations, others, applied⟩ :=
            inductionHypothesis ((determination.id_apply case).trans named)
              (first.cases.case.trans (by rw [found]; rfl))
          rw [perform_bind_pure, show (· + 1) = (1 + ·) from funext fun _ => Nat.add_comm _ _]
          exact ⟨[determination] ++ determinations, first.trans others, makes.applied.append applied⟩

theorem perform_evaluate_shared (request : Request) (administration : Administration) :
    ∃ answer shared, perform (evaluate request) administration =
      (answer, { administration with shared }) :=
  ⟨_, _, perform_evaluate request administration⟩

/-- A declaration that is applied determines something about the case of the event, which is looked up
first. -/
theorem applyDeclaration_determines (numbered : administration.cases.Numbered) (event : Event)
    (rule : Rule) (declaration : Declaration) :
    ∃ determinations,
      Determines event.case determinations administration
        (perform (applyDeclaration event rule declaration) administration).2 ∧
      Update.Applied declaration.updates
        (perform (applyDeclaration event rule declaration) administration).1 determinations := by
  rw [applyDeclaration, perform_bind, perform_caseOf]
  cases found : administration.cases.case event.case with
  | error error => exact ⟨[], .refl _ administration, .stopped _ _⟩
  | ok case =>
      have stored := CaseStore.case_eq_ok.mp found
      have named : case.id = event.case := (numbered.stored _ _ stored).1
      dsimp only
      rw [perform_bind, perform_get]
      dsimp only
      obtain ⟨answer, shared, evaluated⟩ := perform_evaluate_shared (approvedRequest rule.service
        rule.law [(declaration.name, administration.shown case)]
        (some administration.registry.rootDate)) administration
      rw [perform_bind, evaluated]
      have first : Determines event.case [] administration { administration with shared } :=
        .ofShared _ administration shared
      cases answer with
      | error error => exact ⟨[], first, .stopped _ _⟩
      | ok outcome =>
          have stillStored : Association.get? event.case
              ({ administration with shared } : Administration).cases.cases = some case := stored
          dsimp only
          rw [named]
          obtain ⟨determinations, determines, applied⟩ :=
            applyUpdates_determines outcome.output declaration.updates named stillStored
          exact ⟨[] ++ determinations, first.trans determines, applied⟩

/-- The updates of a row of declarations, in the order in which they are applied. -/
def updatesOf (declared : List (Rule × Declaration)) : List Update :=
  declared.flatMap fun pair => pair.2.updates

/-- Declarations are applied in order until one fails. -/
theorem applyDeclarations_determines (numbered : administration.cases.Numbered) (event : Event)
    (declared : List (Rule × Declaration)) :
    ∃ determinations,
      Determines event.case determinations administration
        (perform (applyDeclarations event declared) administration).2 ∧
      Update.Applied (updatesOf declared)
        (perform (applyDeclarations event declared) administration).1 determinations := by
  induction declared generalizing administration with
  | nil => exact ⟨[], .refl _ administration, .none⟩
  | cons head rest inductionHypothesis =>
      obtain ⟨rule, declaration⟩ := head
      obtain ⟨determinations, determines, applied⟩ :=
        applyDeclaration_determines numbered event rule declaration
      have stillNumbered :=
        (QuietEffects.steps (Quiet.applyDeclaration event rule declaration administration)).numbered
          numbered
      rw [applyDeclarations, perform_bind]
      cases performed : perform (applyDeclaration event rule declaration) administration with
      | mk result between =>
          rw [performed] at determines applied stillNumbered
          cases result with
          | error error => exact ⟨determinations, determines, applied.failed _⟩
          | ok count =>
              obtain ⟨others, determinesOthers, appliedOthers⟩ := inductionHypothesis stillNumbered
              dsimp only
              rw [perform_bind_pure]
              exact ⟨determinations ++ others, determines.trans determinesOthers,
                applied.append appliedOthers⟩

/-- The updates that declare themselves for an event, in the order in which they are applied. -/
def reactions (administration : Administration) (event : Event) : List Update :=
  updatesOf (administration.registry.catalog.matching event.kind.name event.data)

/-- The reaction to an event determines something about its case. -/
theorem applyRules_determines (numbered : administration.cases.Numbered) (event : Event) :
    ∃ determinations,
      Determines event.case determinations administration
        (perform (applyRules event) administration).2 ∧
      Update.Applied (administration.reactions event)
        (perform (applyRules event) administration).1 determinations :=
  applyDeclarations_determines numbered event _

/-- Whatever rules say, and whether the reaction to an event succeeds or fails, it leaves everything
but the case of the event and its log as it was, and what all evaluations share. It adds one event to
the log for each update that is applied, in the order of the updates. An event lists exactly the
fields that its determination sets, and determinations set nothing but what the case has on objection
and appeal. Only determinations of admissibility say whether an objection is admissible. -/
theorem applyRules_writes_determinations (catalog : Catalog) (configuration : Configuration)
    (clock : Nat → Instant) (sampler : Nat → Double) (commands : List Command) (event : Event) :
    let administration := (ofCatalog catalog configuration clock sampler).run commands
    let reaction := perform (applyRules event) administration
    ∃ (shared : Shared) (determinations : List Determination),
      reaction.2 = { administration with shared, cases := reaction.2.cases } ∧
      administration.cases.Determines event.case determinations reaction.2.cases ∧
      Update.Applied (administration.reactions event) reaction.1 determinations ∧
      (∀ case, Association.get? event.case administration.cases.cases = some case →
        ∃ objectionStatus appealStatus,
          Association.get? event.case reaction.2.cases.cases =
            some { case with objectionStatus, appealStatus } ∧
          ((∀ determination ∈ determinations,
              determination.kind ≠ .objectionAdmissibilityDetermined) →
            objectionStatus.admissible = case.objectionStatus.admissible)) ∧
      (∀ determination ∈ determinations, ∀ case,
        determination.Writes case (determination.apply case)) := by
  intro administration reaction
  have reachable : administration.Reachable := ⟨_, _, _, _, commands, rfl⟩
  obtain ⟨determinations, ⟨cases, shared, others⟩, applied⟩ :=
    applyRules_determines reachable.numbered event
  refine ⟨shared, determinations, others, cases, applied, fun case found => ?_,
    fun determination _ => determination.writes⟩
  let changed := Determination.applyAll determinations case
  refine ⟨changed.objectionStatus, changed.appealStatus, ?_,
    fun others => Determination.applyAll_admissible others case⟩
  rw [cases.case, found, Option.map_some, Determination.applyAll_statuses]

end Administration

end Statute
