/-
This file proves what the cases of an administration keep to, and how commands change statuses.
-/

import Statute.Proofs.Administration.Submission
import Statute.Proofs.Case.Integrity

namespace Statute

/-- What rules determine about a case leaves its status as it is. -/
theorem Amendment.IsDetermination.status {amendment : Amendment} {case changed : Case} {data : Record}
    (determination : amendment.IsDetermination)
    (amended : amendment.apply case = .ok (changed, data)) : changed.status = case.status := by
  cases amendment with
  | decide verifier approved reason replacement => exact determination.elim
  | object reason => exact determination.elim
  | determineObjection update => cases amended; rfl
  | determineAdmissibility admissible => cases amended; rfl
  | determineAppeal update => cases amended; rfl

theorem Case.attach_status (case : Case) (claim : ClaimId) :
    (case.attach claim).status = case.status := by
  unfold attach
  split <;> rfl

namespace CaseStore

variable {store : CaseStore}

/-- The status of the case of an identifier, if there is one. -/
def statusOf? (store : CaseStore) (id : CaseId) : Option CaseStatus :=
  (Association.get? id store.cases).map Case.status

theorem stores_iff_statusOf? {id : CaseId} :
    store.Stores id ↔ ∃ status, store.statusOf? id = some status := by
  simp [Stores, statusOf?]

/-- A case that is replaced by one with the same status. -/
theorem statusOf?_put_record {id : CaseId} {case changed : Case} {kind : EventKind} {data : Record}
    (found : Association.get? id store.cases = some case) (sameId : changed.id = id)
    (sameStatus : changed.status = case.status) (wanted : CaseId) :
    ((store.put changed).record id kind data).statusOf? wanted = store.statusOf? wanted := by
  unfold statusOf?
  rw [get?_put_record kind data sameId]
  split
  · rename_i same
    rw [same, found, Option.map_some, Option.map_some, sameStatus]
  · rfl

theorem statusOf?_attach {id : CaseId} {case : Case} {kind : EventKind} (numbered : store.Numbered)
    (found : Association.get? id store.cases = some case) (claim : Claim) (wanted : CaseId) :
    ((store.put (case.attach claim.id)).record id kind claim.eventData).statusOf? wanted =
      store.statusOf? wanted := by
  have sameId : (case.attach claim.id).id = id :=
    (congrArg Prod.fst (case.identity_attach claim.id)).trans (numbered.stored id case found).1
  exact statusOf?_put_record found sameId (case.attach_status claim.id) wanted

/-- A settlement decides its case or gives it to a person, and leaves all other cases as they are. -/
theorem settle_case {settled : CaseStore} {id : CaseId} {before case : Case} {verified : Record}
    {matched sampled : Bool} (found : Association.get? id store.cases = some before)
    (named : before.id = id) (untouched : before.Untouched)
    (isSettled : store.settle id verified matched sampled = .ok (case, settled)) :
    Association.get? id settled.cases = some case ∧ case.matter = before.matter ∧
      (case.status = .decided ∨ case.status = .inReview) ∧
      ∀ other, other ≠ id →
        Association.get? other settled.cases = Association.get? other store.cases := by
  obtain ⟨stored, status, _⟩ := settle_ok found named isSettled
  obtain ⟨identity, _, kind, data, _, rfl⟩ := settle_replaces found untouched isSettled
  refine ⟨stored, congrArg Prod.snd identity, ?_, fun other isOther => ?_⟩
  · rw [status, settledStatus]
    split
    · exact .inl rfl
    · exact .inr rfl
  · rw [get?_put_record kind data ((congrArg Prod.fst identity).trans named), if_neg isOther]

/-- A submission settles the case of its matter, and leaves all other cases as they are. -/
theorem submit_case {placed settled : CaseStore} {submission : Submission} {verified : Record}
    {ruleId : String} {id : CaseId} {case : Case} {matched sampled : Bool}
    (numbered : store.Numbered)
    (isPlaced : store.place submission verified ruleId = .ok (id, placed))
    (isSettled : placed.settle id verified matched sampled = .ok (case, settled)) :
    Association.get? id settled.cases = some case ∧ case.matter = submission.matter ∧
      (case.status = .decided ∨ case.status = .inReview) ∧
      (∀ earlier, Association.get? id store.cases = some earlier →
        earlier.matter = submission.matter) ∧
      ∀ other, other ≠ id →
        Association.get? other settled.cases = Association.get? other store.cases := by
  rcases place_cases numbered submission verified ruleId with
    ⟨there, before, found, named, about, isThere⟩ | ⟨fresh, created, isNew, creates, found, isThere⟩
  · rw [isPlaced] at isThere
    cases isThere
    have sameId : (before.reset submission verified ruleId).id = id := named
    have placedThere (wanted : CaseId) :
        Association.get? wanted (store.put (before.reset submission verified ruleId)).cases =
          if wanted = id then some (before.reset submission verified ruleId)
          else Association.get? wanted store.cases := by
      rw [put, sameId, Association.get?_set]
    obtain ⟨stored, matter, status, others⟩ :=
      settle_case ((placedThere id).trans (if_pos rfl)) sameId
        (Case.reset_untouched submission verified ruleId before) isSettled
    refine ⟨stored, matter.trans about, status, fun earlier was => ?_, fun other isOther => ?_⟩
    · rw [found] at was
      cases was
      exact about
    · rw [others other isOther, placedThere, if_neg isOther]
  · rw [isPlaced] at isThere
    cases isThere
    have sameId : fresh.id = ⟨store.size + 1⟩ := by rw [isNew]; rfl
    have untouched : fresh.Untouched := by
      rw [isNew]
      exact Case.ofSubmission_untouched _ submission verified ruleId
    obtain ⟨stored, matter, status, others⟩ := settle_case found rfl untouched isSettled
    refine ⟨stored, ?_, status, fun earlier was => ?_, fun other isOther => ?_⟩
    · rw [matter, isNew]
      rfl
    · rw [sameId, numbered.next_free] at was
      cases was
    · rw [sameId] at isOther
      rw [others other (sameId ▸ isOther), creates.get? other isOther]

end CaseStore

namespace Administration

/-- The ways in which a command may change the case under an identifier, as far as its status shows
it. -/
inductive StatusMove : Command → CaseId → Option Case → Option Case → Prop
  | keep {command : Command} {id : CaseId} {before after : Option Case}
      (same : after.map Case.status = before.map Case.status) : StatusMove command id before after
  | settle {submission : Submission} {id : CaseId} {before : Option Case} {case : Case}
      (about : case.matter = submission.matter)
      (resumed : ∀ earlier, before = some earlier → earlier.matter = submission.matter)
      (settled : case.status = .decided ∨ case.status = .inReview) :
      StatusMove (.submit submission) id before (some case)
  | decide {id : CaseId} {verifier : String} {approved : Bool} {reason : String}
      {replacement : Option Record} {case changed : Case}
      (source : case.status = .inReview ∨ case.status = .objected)
      (decided : changed.status = .decided) :
      StatusMove (.completeReview id verifier approved reason replacement) id (some case)
        (some changed)
  | object {id : CaseId} {reason : String} {case changed : Case} (source : case.status = .decided)
      (objected : changed.status = .objected) :
      StatusMove (.object id reason) id (some case) (some changed)

theorem QuietEffect.statusOf? {before after : Administration} (effect : QuietEffect before after)
    (numbered : before.cases.Numbered) (id : CaseId) :
    after.cases.statusOf? id = before.cases.statusOf? id := by
  cases effect with
  | evaluate request => rfl
  | count processed failed => rfl
  | determine determination changed =>
      rename_i amended amendment case cases
      obtain ⟨old, data, found, applied, rfl⟩ := CaseStore.change_ok changed
      have sameId : case.id = amended :=
        (congrArg Prod.fst (amendment.tells _ _ _ applied).1).trans (numbered.stored _ _ found).1
      exact CaseStore.statusOf?_put_record found sameId (determination.status applied) id
  | attach attached =>
      rename_i there claim isNew cases
      rcases CaseStore.attach_ok attached with rfl | ⟨case, found, rfl⟩
      · rfl
      · exact CaseStore.statusOf?_attach numbered found claim id
  | recordReview recorded =>
      rename_i there claim cases
      rcases CaseStore.recordReview_ok recorded with rfl | ⟨kind, case, _, found, rfl⟩
      · rfl
      · exact CaseStore.statusOf?_attach numbered found claim id
  | fileClaim stored => rfl
  | changeClaim sameLink changed => rfl
  | linkClaim stored linked => rfl

theorem QuietEffects.statusOf? {before after : Administration} (effects : QuietEffects before after)
    (numbered : before.cases.Numbered) (id : CaseId) :
    after.cases.statusOf? id = before.cases.statusOf? id := by
  induction effects with
  | refl => rfl
  | tail earlier effect inductionHypothesis =>
      have still := (QuietEffects.steps earlier).numbered numbered
      exact (effect.statusOf? still id).trans inductionHypothesis

/-- Quiet changes neither open cases nor remove any. -/
theorem QuietEffects.stores {before after : Administration} (effects : QuietEffects before after)
    (numbered : before.cases.Numbered) (id : CaseId) :
    after.cases.Stores id ↔ before.cases.Stores id := by
  rw [CaseStore.stores_iff_statusOf?, QuietEffects.statusOf? effects numbered,
    CaseStore.stores_iff_statusOf?]

/-- A person's change moves the status of its own case only. -/
theorem statusMove_change (amendment : Amendment) {command : Command} {store cases : CaseStore}
    {id : CaseId} {case : Case} (numbered : store.Numbered)
    (changed : store.change id amendment.kind amendment.apply = .ok (case, cases))
    (moves : ∀ old data, amendment.apply old = .ok (case, data) →
      StatusMove command id (some old) (some case)) (wanted : CaseId) :
    StatusMove command wanted (Association.get? wanted store.cases)
      (Association.get? wanted cases.cases) := by
  obtain ⟨old, data, found, applied, rfl⟩ := CaseStore.change_ok changed
  have sameId : case.id = id :=
    (congrArg Prod.fst (amendment.tells _ _ _ applied).1).trans (numbered.stored _ _ found).1
  rw [CaseStore.get?_put_record _ _ sameId]
  by_cases same : wanted = id
  · rw [if_pos same, same, found]
    exact moves old data applied
  · rw [if_neg same]
    exact .keep rfl

/-- A command moves statuses in its own way only. -/
theorem Effect.statusMove {command : Command} {before after : Administration}
    (effect : Effect command before after) (numbered : before.cases.Numbered) (id : CaseId) :
    StatusMove command id (Association.get? id before.cases.cases)
      (Association.get? id after.cases.cases) := by
  cases effect with
  | quiet effects => exact .keep (QuietEffects.statusOf? effects numbered id)
  | setTable replaced => exact .keep rfl
  | submit answered isPlaced isSettled =>
      rename_i submission outcome shared settledId placed settled case
      obtain ⟨stored, about, status, resumed, others⟩ :=
        CaseStore.submit_case numbered isPlaced isSettled
      by_cases same : id = settledId
      · rw [same, stored]
        exact .settle about resumed status
      · rw [others id same]
        exact .keep rfl
  | completeReview decided =>
      rename_i there verifier approved reason replacement case cases
      apply statusMove_change (.decide verifier approved reason replacement) numbered decided
      intro old data applied
      have source : old.status = .inReview ∨ old.status = .objected := by
        simpa [Transition.sources] using Case.guard_sources applied
      obtain ⟨rfl, rfl⟩ := Prod.mk.inj (Case.guard_ok applied)
      exact .decide source rfl
  | object objected =>
      rename_i there reason case cases
      apply statusMove_change (.object reason) numbered objected
      intro old data applied
      have source : old.status = .decided := List.mem_singleton.mp (Case.guard_sources applied)
      obtain ⟨rfl, rfl⟩ := Prod.mk.inj (Case.guard_ok applied)
      exact .object source rfl

/-- A case that is there stays. -/
theorem Effect.stores {command : Command} {before after : Administration}
    (effect : Effect command before after) (numbered : before.cases.Numbered) {id : CaseId}
    (stored : before.cases.Stores id) : after.cases.Stores id := by
  obtain ⟨case, found⟩ := stored
  have moves := effect.statusMove numbered id
  rw [found] at moves
  generalize isThere : Association.get? id after.cases.cases = there at moves
  cases moves with
  | keep same =>
      obtain ⟨still, isStill, _⟩ := Option.map_eq_some_iff.mp same
      exact ⟨still, isThere.trans isStill⟩
  | settle about resumed settled => exact ⟨_, isThere⟩
  | decide source decided => exact ⟨_, isThere⟩
  | object source objected => exact ⟨_, isThere⟩

theorem Reachable.integrity {administration : Administration}
    (reachable : Reachable administration) : administration.cases.Integrity :=
  reachable.invariant (fun _ _ _ _ => CaseStore.empty_integrity)
    fun effect numbered integrity => effect.steps.integrity numbered integrity

/-- However an administration is used, its index and its cases are inverse to each other, its log
opens each case once, and its cases are settled. Each command adds events at the end of the log only,
and moves statuses in its own way only. -/
theorem run_integrity (catalog : Catalog) (configuration : Configuration) (clock : Nat → Instant)
    (sampler : Nat → Double) (commands : List Command) :
    let administration := (ofCatalog catalog configuration clock sampler).run commands
    administration.cases.Integrity ∧ ∀ command,
      administration.cases.events <+: (administration.after command).cases.events ∧
      ∀ id, StatusMove command id (Association.get? id administration.cases.cases)
        (Association.get? id (administration.after command).cases.cases) := by
  intro administration
  have steps := run_steps (ofCatalog catalog configuration clock sampler) commands
    CaseStore.empty_numbered
  have numbered : administration.cases.Numbered := steps.numbered CaseStore.empty_numbered
  refine ⟨steps.integrity CaseStore.empty_numbered CaseStore.empty_integrity, fun command => ?_⟩
  have effect := after_effect administration command numbered
  exact ⟨effect.steps.events numbered, effect.statusMove numbered⟩

end Administration

end Statute
