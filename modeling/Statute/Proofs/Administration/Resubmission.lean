/-
This file proves what a case keeps when its matter is submitted again.
-/

import Statute.Proofs.Administration.Lifecycle
import Statute.Proofs.Administration.Submission

namespace Statute

namespace Case

/-- The second case, with what a case keeps when its matter is submitted again: its identifier, its
claims, and what was determined about objection and appeal. -/
def retaining (kept created : Case) : Case :=
  { created with
    id := kept.id
    claimIds := kept.claimIds
    objectionStatus := kept.objectionStatus
    appealStatus := kept.appealStatus }

/-- A case that starts again is a new one but for what it keeps. -/
theorem reset_eq_retaining {case : Case} {submission : Submission}
    (about : case.matter = submission.matter) (verified : Record) (ruleId : String) (id : CaseId) :
    case.reset submission verified ruleId =
      case.retaining (ofSubmission id submission verified ruleId) := by
  rw [reset, about]
  rfl

/-- To keep something twice is to keep it once. -/
theorem retaining_retaining (kept created : Case) :
    (kept.retaining created).retaining created = kept.retaining created :=
  rfl

theorem retaining_self (case : Case) : case.retaining case = case :=
  rfl

/-- The system's part in a submission: its decision, or its choice of a person's review. -/
def settle (verified : Record) (matched sampled : Bool) (case : Case) :
    Except CaseError (Case × Record) :=
  if matched && !sampled then case.decideAutomatically verified true
  else case.selectForReview systemVerifier (CaseStore.reviewReason matched)

variable {verified data : Record} {matched sampled : Bool} {case created : Case}

theorem guard_retaining {transition : Transition} (kept : Case)
    (source : created.status ∈ transition.sources) :
    (kept.retaining created).guard transition = .ok () :=
  if_pos source

/-- What a case keeps has no part in its settlement. -/
theorem settle_retaining (kept : Case)
    (settled : case.settle verified matched sampled = .ok (created, data)) :
    (kept.retaining case).settle verified matched sampled = .ok (kept.retaining created, data) := by
  unfold settle at settled ⊢
  split
  · rename_i decided
    rw [if_pos decided] at settled
    have source := guard_sources settled
    obtain ⟨rfl, rfl⟩ := Prod.mk.inj (guard_ok settled)
    rw [decideAutomatically, guard_retaining kept source]
    rfl
  · rename_i undecided
    rw [if_neg undecided] at settled
    have source := guard_sources settled
    obtain ⟨rfl, rfl⟩ := Prod.mk.inj (guard_ok settled)
    rw [selectForReview, guard_retaining kept source]
    rfl

/-- A case that nobody has looked at can be settled. Its identity stays. -/
theorem exists_settle (untouched : case.Untouched) (verified : Record) (matched sampled : Bool) :
    ∃ created data, case.settle verified matched sampled = .ok (created, data) ∧
      created.identity = case.identity := by
  unfold settle
  split
  · obtain ⟨created, data, decided⟩ := decideAutomatically_untouched verified true untouched
    refine ⟨created, data, decided, ?_⟩
    obtain ⟨rfl, rfl⟩ := Prod.mk.inj (guard_ok decided)
    rfl
  · obtain ⟨created, data, selected⟩ := selectForReview_untouched systemVerifier
      (CaseStore.reviewReason matched) untouched
    refine ⟨created, data, selected, ?_⟩
    obtain ⟨rfl, rfl⟩ := Prod.mk.inj (guard_ok selected)
    rfl

end Case

namespace CaseStore

variable {store : CaseStore} {submission : Submission} {id : CaseId} {verified data : Record}
  {ruleId : String} {matched sampled : Bool} {previous created : Case}

/-- A settlement is a change of the case like any other. -/
theorem settle_eq_change (store : CaseStore) (id : CaseId) (verified : Record)
    (matched sampled : Bool) :
    store.settle id verified matched sampled =
      store.change id (settlementKind matched sampled) (Case.settle verified matched sampled) := by
  unfold settle settlementKind
  split
  · rename_i decided
    have same : Case.settle verified matched sampled = Case.decideAutomatically verified true :=
      funext fun case => if_pos decided
    rw [same]
  · rename_i undecided
    have same : Case.settle verified matched sampled =
        Case.selectForReview systemVerifier (reviewReason matched) :=
      funext fun case => if_neg undecided
    rw [same]

/-- The case of a matter is found, and starts again. -/
theorem place_found (indexed : store.Indexed)
    (found : Association.get? id store.cases = some previous)
    (about : previous.matter = submission.matter) (verified : Record) (ruleId : String) :
    store.place submission verified ruleId =
      .ok (id, store.put (previous.reset submission verified ruleId)) := by
  have filed := (indexed.filed submission.matter id).mpr ⟨previous, found, about⟩
  simp [place, filed, case_eq_ok.mpr found, bind, Except.bind, pure, Except.pure]

/-- A matter without a case gets one. -/
theorem place_unknown (indexed : store.Indexed)
    (unknown : ∀ id case, Association.get? id store.cases = some case →
      case.matter ≠ submission.matter) (verified : Record) (ruleId : String) :
    ∃ placed, store.place submission verified ruleId = .ok (⟨store.size + 1⟩, placed) ∧
      Association.get? ⟨store.size + 1⟩ placed.cases =
        some (Case.ofSubmission ⟨store.size + 1⟩ submission verified ruleId) ∧
      placed.events = store.events ++ [⟨⟨store.size + 1⟩, .submitted,
        (Case.ofSubmission ⟨store.size + 1⟩ submission verified ruleId).submittedData⟩] := by
  have free : Association.get? submission.matter store.byMatter = none := by
    cases filed : Association.get? submission.matter store.byMatter with
    | none => rfl
    | some id =>
        obtain ⟨case, found, about⟩ := (indexed.filed _ _).mp filed
        exact absurd about (unknown id case found)
  simp only [place, free]
  refine ⟨_, rfl, ?_, rfl⟩
  simp [record, put, Association.get?_set, Case.ofSubmission]

/-- A case that starts again is settled like a new one. -/
theorem settle_found (indexed : store.Indexed)
    (found : Association.get? id store.cases = some previous)
    (about : previous.matter = submission.matter) {newId : CaseId}
    (settled : (Case.ofSubmission newId submission verified ruleId).settle verified matched
      sampled = .ok (created, data)) :
    (store.put (previous.reset submission verified ruleId)).settle id verified matched sampled =
      .ok (previous.retaining created, (store.put (previous.retaining created)).record id
        (settlementKind matched sampled) data) := by
  have named : previous.id = id := indexed.named id previous found
  have again := Case.reset_eq_retaining about verified ruleId newId
  have foundAgain : Association.get? id
      (store.put (previous.reset submission verified ruleId)).cases =
        some (previous.reset submission verified ruleId) := by
    rw [put, show (previous.reset submission verified ruleId).id = id from named,
      Association.get?_set, if_pos rfl]
  rw [settle_eq_change, change_of_ok foundAgain (again ▸ Case.settle_retaining previous settled),
    put_put]
  rfl

end CaseStore

namespace Administration

/-- A submission is evaluated to a result under a version of the law, and the sampler draws it or
not. -/
def Assesses (administration : Administration) (submission : Submission) (output : Record)
    (ruleId : String) (sampled : Bool) : Prop :=
  ∃ outcome shared, administration.registry.evaluate (some administration.claims.lookup)
      (submissionRequest submission) administration.shared = (.ok outcome, shared) ∧
    outcome.output = output ∧ outcome.ruleId = ruleId ∧ administration.isSampled = sampled

theorem Reachable.after {administration : Administration} (reachable : Reachable administration)
    (command : Command) : Reachable (administration.after command) := by
  obtain ⟨catalog, configuration, clock, sampler, commands, rfl⟩ := reachable
  refine ⟨catalog, configuration, clock, sampler, commands ++ [command], ?_⟩
  rw [run, run, List.foldl_append]
  rfl

variable {administration : Administration} {submission : Submission} {output : Record}
  {ruleId : String} {sampled : Bool}

theorem addedEvents_of_events {before after : Administration} {added : List Event}
    (events : after.cases.events = before.cases.events ++ added) :
    addedEvents before after = added := by
  rw [addedEvents, events, List.drop_left]

/-- What a submission does to a stored case. -/
theorem submit_found (reachable : Reachable administration)
    (assesses : administration.Assesses submission output ruleId sampled) {id newId : CaseId}
    {previous created : Case} {data : Record}
    (found : Association.get? id administration.cases.cases = some previous)
    (about : previous.matter = submission.matter)
    (settled : (Case.ofSubmission newId submission output ruleId).settle output
      (Record.agrees submission.claimedResult output) sampled = .ok (created, data)) :
    let again := perform (submit submission) administration
    again.1 = .ok id ∧
      (∀ other, Association.get? other again.2.cases.cases =
        if other = id then some (previous.retaining created)
        else Association.get? other administration.cases.cases) ∧
      addedEvents administration again.2 =
        [⟨id, CaseStore.settlementKind (Record.agrees submission.claimedResult output) sampled,
          data⟩] := by
  obtain ⟨outcome, shared, answered, rfl, rfl, rfl⟩ := assesses
  obtain ⟨placedId, placed, case, after, isPlaced, isSettled, performed⟩ :=
    perform_submit_ok reachable.numbered answered
  have indexed := reachable.integrity.toIndexed
  rw [CaseStore.place_found indexed found about] at isPlaced
  cases isPlaced
  rw [CaseStore.settle_found indexed found about settled] at isSettled
  cases isSettled
  rw [performed]
  have named : (previous.retaining created).id = id := indexed.named id previous found
  exact ⟨rfl, CaseStore.get?_put_record _ _ named, addedEvents_of_events rfl⟩

/-- What a submission does where its matter has no case. -/
theorem submit_unknown (reachable : Reachable administration)
    (assesses : administration.Assesses submission output ruleId sampled)
    (unknown : ∀ id case, Association.get? id administration.cases.cases = some case →
      case.matter ≠ submission.matter) :
    let first := perform (submit submission) administration
    ∃ id created data,
      (Case.ofSubmission id submission output ruleId).settle output
        (Record.agrees submission.claimedResult output) sampled = .ok (created, data) ∧
      first.1 = .ok id ∧ created.identity = (id, submission.matter) ∧
      Association.get? id first.2.cases.cases = some created ∧
      addedEvents administration first.2 =
        [⟨id, .submitted, (Case.ofSubmission id submission output ruleId).submittedData⟩,
          ⟨id, CaseStore.settlementKind (Record.agrees submission.claimedResult output) sampled,
            data⟩] := by
  obtain ⟨outcome, shared, answered, rfl, rfl, rfl⟩ := assesses
  obtain ⟨placedId, placed, case, after, isPlaced, isSettled, performed⟩ :=
    perform_submit_ok reachable.numbered answered
  obtain ⟨there, isThere, found, opened⟩ := CaseStore.place_unknown reachable.integrity.toIndexed
    unknown outcome.output outcome.ruleId
  rw [isThere] at isPlaced
  cases isPlaced
  obtain ⟨created, data, settled, identity⟩ := Case.exists_settle
    (Case.ofSubmission_untouched ⟨administration.cases.size + 1⟩ submission outcome.output
      outcome.ruleId) outcome.output (Record.agrees submission.claimedResult outcome.output)
    administration.isSampled
  rw [CaseStore.settle_eq_change, CaseStore.change_of_ok found settled] at isSettled
  cases isSettled
  rw [performed]
  refine ⟨_, case, data, settled, rfl, identity, ?_, ?_⟩
  · exact CaseStore.get?_put_record _ _ (congrArg Prod.fst identity) _ |>.trans (if_pos rfl)
  · apply addedEvents_of_events
    dsimp only [CaseStore.record, CaseStore.put]
    rw [opened, List.append_assoc]
    rfl

/-- To submit the same again at once, with the same result and the same draw, leaves all cases as they
are, and tells the same again. -/
def Repeats (administration : Administration) (submission : Submission) (output : Record)
    (ruleId : String) (sampled : Bool) : Prop :=
  let first := perform (submit submission) administration
  first.2.Assesses submission output ruleId sampled →
    let second := perform (submit submission) first.2
    second.1 = first.1 ∧
    (∀ id, Association.get? id second.2.cases.cases = Association.get? id first.2.cases.cases) ∧
    (addedEvents first.2 second.2).getLast? = (addedEvents administration first.2).getLast?

/-- A submission finds what the one before it left, and leaves it like that. -/
theorem repeats_of_settled (reachable : Reachable administration) {id newId : CaseId}
    {stored created : Case} {data : Record}
    (settled : (Case.ofSubmission newId submission output ruleId).settle output
      (Record.agrees submission.claimedResult output) sampled = .ok (created, data))
    (first : (perform (submit submission) administration).1 = .ok id)
    (found : Association.get? id (perform (submit submission) administration).2.cases.cases =
      some stored)
    (about : stored.matter = submission.matter) (same : stored.retaining created = stored)
    (told : (addedEvents administration
      (perform (submit submission) administration).2).getLast? = some
        ⟨id, CaseStore.settlementKind (Record.agrees submission.claimedResult output) sampled,
          data⟩) :
    administration.Repeats submission output ruleId sampled := by
  intro assesses
  have isReachable : Reachable (perform (submit submission) administration).2 :=
    reachable.after (.submit submission)
  obtain ⟨second, cases, events⟩ := submit_found isReachable assesses found about settled
  refine ⟨second.trans first.symm, fun other => ?_, ?_⟩
  · rw [cases other]
    by_cases isOther : other = id
    · rw [if_pos isOther, same, isOther, found]
    · rw [if_neg isOther]
  · rw [events, told]
    rfl

/-- A submission about a matter that has a case already leaves of this case its identifier, its claims
and what was determined about objection and appeal. All else is what a submission with the same result
and the same draw leaves where the matter has no case, and so is the event of the settlement. To submit
the same once more changes no case in either. -/
theorem resubmission_retains {office fresh : Administration} (reachable : Reachable office)
    (isReachable : Reachable fresh) {id : CaseId} {previous : Case}
    (stored : Association.get? id office.cases.cases = some previous)
    (about : previous.matter = submission.matter)
    (unknown : ∀ other case, Association.get? other fresh.cases.cases = some case →
      case.matter ≠ submission.matter)
    (assesses : office.Assesses submission output ruleId sampled)
    (alike : fresh.Assesses submission output ruleId sampled) :
    let again := perform (submit submission) office
    let first := perform (submit submission) fresh
    ∃ newId created kind data,
      again.1 = .ok id ∧ first.1 = .ok newId ∧
      Association.get? newId first.2.cases.cases = some created ∧
      Association.get? id again.2.cases.cases = some { created with
        id := previous.id
        claimIds := previous.claimIds
        objectionStatus := previous.objectionStatus
        appealStatus := previous.appealStatus } ∧
      addedEvents fresh first.2 =
        [⟨newId, .submitted, (Case.ofSubmission newId submission output ruleId).submittedData⟩,
          ⟨newId, kind, data⟩] ∧
      addedEvents office again.2 = [⟨id, kind, data⟩] ∧
      office.Repeats submission output ruleId sampled ∧
      fresh.Repeats submission output ruleId sampled := by
  intro again first
  obtain ⟨newId, created, data, settled, succeeds, identity, found, opened⟩ :=
    submit_unknown isReachable alike unknown
  obtain ⟨finds, cases, told⟩ := submit_found reachable assesses stored about settled
  have kept : Association.get? id again.2.cases.cases = some (previous.retaining created) :=
    (cases id).trans (if_pos rfl)
  have isAbout : created.matter = submission.matter := congrArg Prod.snd identity
  refine ⟨newId, created, _, data, finds, succeeds, found, kept, opened, told, ?_, ?_⟩
  · exact repeats_of_settled reachable settled finds kept isAbout
      (Case.retaining_retaining previous created) (congrArg List.getLast? told)
  · exact repeats_of_settled isReachable settled succeeds found isAbout (Case.retaining_self created)
      (congrArg List.getLast? opened)

/-- What has happened to the allowance of a person who objected to its decision. -/
def objectedOffice : Administration :=
  allowanceOffice.run [.submit emptySubmission, .object ⟨1⟩ "too low",
    .determineObjection ⟨1⟩ { ObjectionStatus.empty with possible := some true }]

/-- An office of the allowance that still has its rule and has drawn nothing assesses the empty
submission like any other. -/
theorem assesses_of_shown {office : Administration}
    (shown : (office.registry.evaluate (some office.claims.lookup)
      (submissionRequest emptySubmission) office.shared).1.toOption.map
        (fun outcome => (outcome.missingRequired, outcome.ruleId)) = some (true, "zt-income"))
    (undrawn : office.isSampled = false) :
    office.Assesses emptySubmission [] "zt-income" false := by
  obtain ⟨outcome, shared, answered, isShown⟩ := Outcome.of_shown shown
  obtain ⟨missing, ruleId⟩ := Prod.mk.inj isShown
  exact ⟨outcome, shared, answered, Registry.provider_missing answered missing, ruleId, undrawn⟩

/-- The objection is gone with the new submission, but an objection stays possible. -/
theorem resubmission_retains_allowance :
    ∃ previous newId created,
      Reachable objectedOffice ∧ Reachable allowanceOffice ∧
      Association.get? ⟨1⟩ objectedOffice.cases.cases = some previous ∧
      previous.matter = emptySubmission.matter ∧
      (previous.status, previous.reason, previous.canObject) = (.objected, some "too low", true) ∧
      objectedOffice.Assesses emptySubmission [] "zt-income" false ∧
      allowanceOffice.Assesses emptySubmission [] "zt-income" false ∧
      Association.get? newId
        (perform (submit emptySubmission) allowanceOffice).2.cases.cases = some created ∧
      Association.get? ⟨1⟩ (perform (submit emptySubmission) objectedOffice).2.cases.cases =
        some { created with
          id := previous.id
          claimIds := previous.claimIds
          objectionStatus := previous.objectionStatus
          appealStatus := previous.appealStatus } ∧
      objectedOffice.Repeats emptySubmission [] "zt-income" false := by
  have reachable : Reachable objectedOffice := ⟨_, _, _, _, _, rfl⟩
  have isReachable : Reachable allowanceOffice := ⟨_, _, _, _, [], rfl⟩
  have shown : (Association.get? ⟨1⟩ objectedOffice.cases.cases).map (fun case =>
      (case.matter, case.status, case.reason, case.canObject)) =
        some (emptySubmission.matter, .objected, some "too low", true) := by decide +kernel
  obtain ⟨previous, stored, isShown⟩ := Option.map_eq_some_iff.mp shown
  obtain ⟨about, state⟩ := Prod.mk.inj isShown
  have assesses : objectedOffice.Assesses emptySubmission [] "zt-income" false :=
    assesses_of_shown (by decide +kernel) (by decide +kernel)
  have alike : allowanceOffice.Assesses emptySubmission [] "zt-income" false :=
    assesses_of_shown (by decide +kernel) (by decide +kernel)
  have unknown (other : CaseId) (case : Case)
      (found : Association.get? other allowanceOffice.cases.cases = some case) :
      case.matter ≠ emptySubmission.matter := by cases found
  obtain ⟨newId, created, kind, data, _, _, found, kept, _, _, again, _⟩ :=
    resubmission_retains reachable isReachable stored about unknown assesses alike
  exact ⟨previous, newId, created, reachable, isReachable, stored, about, state, assesses, alike,
    found, kept, again⟩

end Administration

end Statute
