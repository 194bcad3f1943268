/-
This file proves that a store has one settled case for each matter, and that its log opens each case
once.
-/

import Statute.Proofs.Case.Log
import Statute.Proofs.Collections

namespace Statute

namespace Case

/-- What a case shows once its submission is settled. The system gives cases to people, and a
decision says whether the case was approved. -/
structure Settled (case : Case) : Prop where
  left : case.status ≠ .submitted
  reviewed : case.status = .inReview → case.approved = none ∧ case.verifier = some systemVerifier
  judged : case.status = .decided ∨ case.status = .objected → case.approved.isSome = true

/-- What rules and claims change about a case does not unsettle it. -/
theorem Settled.of_same {case changed : Case} (settled : case.Settled)
    (status : changed.status = case.status) (approved : changed.approved = case.approved)
    (verifier : changed.verifier = case.verifier) : changed.Settled := by
  constructor
  · rw [status]
    exact settled.left
  · rw [status, approved, verifier]
    exact settled.reviewed
  · rw [status, approved]
    exact settled.judged

theorem Settled.attach {case : Case} (settled : case.Settled) (claim : ClaimId) :
    (case.attach claim).Settled := by
  apply settled.of_same <;> unfold Case.attach <;> split <;> rfl

/-- A change that a guard let through started from one of its sources. -/
theorem guard_sources {transition : Transition} {case : Case} {result outcome : Case × Record}
    (passed : (do case.guard transition; return result) = (.ok outcome : Except CaseError _)) :
    case.status ∈ transition.sources := by
  unfold guard at passed
  split at passed
  · assumption
  · cases passed

/-- The system's decision about a case that nobody has looked at settles it. -/
theorem decideAutomatically_settled {case changed : Case} {verifiedResult data : Record}
    {approved : Bool} (decided : case.decideAutomatically verifiedResult approved =
      .ok (changed, data)) : changed.Settled := by
  obtain ⟨rfl, rfl⟩ := Prod.mk.inj (guard_ok decided)
  exact ⟨by simp, by simp, by simp⟩

theorem selectForReview_settled {case changed : Case} {reason : String} {data : Record}
    (untouched : case.Untouched)
    (selected : case.selectForReview systemVerifier reason = .ok (changed, data)) :
    changed.Settled := by
  obtain ⟨rfl, rfl⟩ := Prod.mk.inj (guard_ok selected)
  exact ⟨by simp, by simp [untouched.approved], by simp⟩

end Case

namespace Amendment

/-- Amendments keep cases settled. An objection needs a decision, which stays as it was. -/
theorem settled {amendment : Amendment} {case changed : Case} {data : Record}
    (amended : amendment.apply case = .ok (changed, data)) (settled : case.Settled) :
    changed.Settled := by
  cases amendment with
  | decide verifier approved reason replacement =>
      obtain ⟨rfl, rfl⟩ := Prod.mk.inj (Case.guard_ok amended)
      exact ⟨by simp, by simp, by simp⟩
  | object reason =>
      have source : case.status = .decided := List.mem_singleton.mp (Case.guard_sources amended)
      obtain ⟨rfl, rfl⟩ := Prod.mk.inj (Case.guard_ok amended)
      exact ⟨by simp, by simp, fun _ => settled.judged (.inl source)⟩
  | determineObjection update =>
      obtain ⟨rfl, rfl⟩ := Prod.mk.inj (Except.ok.inj amended)
      exact settled.of_same rfl rfl rfl
  | determineAdmissibility admissible =>
      obtain ⟨rfl, rfl⟩ := Prod.mk.inj (Except.ok.inj amended)
      exact settled.of_same rfl rfl rfl
  | determineAppeal update =>
      obtain ⟨rfl, rfl⟩ := Prod.mk.inj (Except.ok.inj amended)
      exact settled.of_same rfl rfl rfl

theorem kind_ne_submitted (amendment : Amendment) : amendment.kind ≠ .submitted := by
  cases amendment <;> simp [kind]

end Amendment

namespace CaseStore

variable {store after : CaseStore}

/-- The case of an identifier is replaced by a settled one about the same matter, which some event
other than a submission records. -/
inductive Replaces (store : CaseStore) (id : CaseId) : CaseStore → Prop
  | told {case changed : Case} {kind : EventKind} {data : Record}
      (found : Association.get? id store.cases = some case)
      (identity : changed.identity = case.identity) (later : kind ≠ .submitted)
      (settled : changed.Settled) : Replaces store id ((store.put changed).record id kind data)

/-- All cases are settled. -/
def AllSettled (store : CaseStore) : Prop :=
  ∀ id case, Association.get? id store.cases = some case → case.Settled

/-- A settlement replaces a case that nobody has looked at. -/
theorem settle_replaces {id : CaseId} {case changed : Case} {verified : Record}
    {matched sampled : Bool} (found : Association.get? id store.cases = some case)
    (untouched : case.Untouched)
    (isSettled : store.settle id verified matched sampled = .ok (changed, after)) :
    changed.identity = case.identity ∧ changed.Settled ∧
      ∃ kind data, kind ≠ .submitted ∧ after = (store.put changed).record id kind data := by
  unfold settle at isSettled
  split at isSettled
  · obtain ⟨there, data, foundThere, updated, rfl⟩ := change_ok isSettled
    rw [found] at foundThere
    cases foundThere
    refine ⟨?_, Case.decideAutomatically_settled updated, _, data, by decide, rfl⟩
    obtain ⟨rfl, rfl⟩ := Prod.mk.inj (Case.guard_ok updated)
    rfl
  · obtain ⟨there, data, foundThere, updated, rfl⟩ := change_ok isSettled
    rw [found] at foundThere
    cases foundThere
    refine ⟨?_, Case.selectForReview_settled untouched updated, _, data, by decide, rfl⟩
    obtain ⟨rfl, rfl⟩ := Prod.mk.inj (Case.guard_ok updated)
    rfl

/-- A submission replaces the case of its matter, which it creates if need be. -/
theorem submit_replaces {placed settled : CaseStore} {submission : Submission} {verified : Record}
    {ruleId : String} {id : CaseId} {case : Case} {matched sampled : Bool}
    (numbered : store.Numbered)
    (isPlaced : store.place submission verified ruleId = .ok (id, placed))
    (isSettled : placed.settle id verified matched sampled = .ok (case, settled)) :
    Replaces store id settled ∨
      ∃ created, Creates store created ∧ Replaces created ⟨store.size + 1⟩ settled := by
  rcases place_cases numbered submission verified ruleId with
    ⟨there, before, found, named, _, isThere⟩ | ⟨fresh, created, isNew, creates, found, isThere⟩
  · rw [isPlaced] at isThere
    cases isThere
    left
    have sameId : (before.reset submission verified ruleId).id = id := named
    have foundReset : Association.get? id (store.put (before.reset submission verified ruleId)).cases =
        some (before.reset submission verified ruleId) := by
      rw [put, sameId, Association.get?_set, if_pos rfl]
    obtain ⟨identity, stays, kind, data, later, rfl⟩ := settle_replaces foundReset
      (Case.reset_untouched submission verified ruleId before) isSettled
    rw [put_put store (show case.id = _ from congrArg Prod.fst identity)]
    exact .told found identity later stays
  · rw [isPlaced] at isThere
    cases isThere
    right
    have untouched : fresh.Untouched := by
      rw [isNew]
      exact Case.ofSubmission_untouched _ submission verified ruleId
    obtain ⟨identity, stays, kind, data, later, rfl⟩ := settle_replaces found untouched isSettled
    have sameId : fresh.id = ⟨store.size + 1⟩ := by rw [isNew]; rfl
    rw [sameId] at found ⊢
    exact ⟨placed, creates, .told found identity later stays⟩

theorem reviewEvent?_ne_submitted {status : ClaimStatus} {kind : EventKind}
    (reviewed : reviewEvent? status = some kind) : kind ≠ .submitted := by
  cases status with
  | pending => cases reviewed
  | approved => cases reviewed; decide
  | rejected => cases reviewed; decide

/-- One operation on settled cases does nothing, or it replaces a case that is there or new. -/
theorem Step.replaces (step : Step store after) (numbered : store.Numbered)
    (settled : store.AllSettled) :
    after = store ∨ (∃ id, Replaces store id after) ∨
      ∃ created, Creates store created ∧ Replaces created ⟨store.size + 1⟩ after := by
  cases step with
  | submit isPlaced isSettled =>
      rcases submit_replaces numbered isPlaced isSettled with replaces | created
      · exact .inr (.inl ⟨_, replaces⟩)
      · exact .inr (.inr created)
  | amend isAmended =>
      rename_i id case amendment
      obtain ⟨before, data, found, amended, rfl⟩ := change_ok isAmended
      exact .inr (.inl ⟨id, .told found (amendment.tells _ _ _ amended).1
        amendment.kind_ne_submitted (Amendment.settled amended (settled _ _ found))⟩)
  | attach isAttached =>
      rename_i id claim isNew
      rcases attach_ok isAttached with same | ⟨case, found, rfl⟩
      · exact .inl same
      · exact .inr (.inl ⟨id, .told found (Case.identity_attach case claim.id) (by decide)
          ((settled _ _ found).attach claim.id)⟩)
  | recordReview isRecorded =>
      rename_i id claim
      rcases recordReview_ok isRecorded with same | ⟨kind, case, reviewed, found, rfl⟩
      · exact .inl same
      · exact .inr (.inl ⟨id, .told found (Case.identity_attach case claim.id)
          (reviewEvent?_ne_submitted reviewed) ((settled _ _ found).attach claim.id)⟩)

/-- The index of matters and the cases are inverse to each other. -/
structure Indexed (store : CaseStore) : Prop where
  distinct : (store.cases.map Prod.fst).Nodup
  distinctMatters : (store.byMatter.map Prod.fst).Nodup
  named : ∀ id case, Association.get? id store.cases = some case → case.id = id
  filed : ∀ matter id, Association.get? matter store.byMatter = some id ↔
    ∃ case, Association.get? id store.cases = some case ∧ case.matter = matter

/-- The events of a case start with its submission, which is the only one, and every event belongs to
a case. -/
structure Opened (store : CaseStore) : Prop where
  opened : ∀ id, store.Stores id → ∃ data later,
    store.eventsOf id = ⟨id, .submitted, data⟩ :: later ∧ ∀ event ∈ later, event.kind ≠ .submitted
  owned : ∀ event ∈ store.events, store.Stores event.case

/-- What holds of the cases, their index and their log between any two commands. -/
structure Integrity (store : CaseStore) : Prop extends Indexed store, Opened store where
  settled : store.AllSettled

section Replaced

variable {id : CaseId} {case changed : Case} (kind : EventKind) (data : Record)

theorem get?_put_record (sameId : changed.id = id) (wanted : CaseId) :
    Association.get? wanted ((store.put changed).record id kind data).cases =
      if wanted = id then some changed else Association.get? wanted store.cases := by
  rw [record, put, sameId, Association.get?_set]

theorem stores_put_record (sameId : changed.id = id) (wanted : CaseId) :
    ((store.put changed).record id kind data).Stores wanted ↔ wanted = id ∨ store.Stores wanted := by
  unfold Stores
  rw [get?_put_record kind data sameId]
  by_cases same : wanted = id <;> simp [same]

theorem Indexed.replaced (indexed : store.Indexed)
    (found : Association.get? id store.cases = some case)
    (identity : changed.identity = case.identity) :
    ((store.put changed).record id kind data).Indexed := by
  have sameId : changed.id = id := (congrArg Prod.fst identity).trans (indexed.named id case found)
  have sameMatter : changed.matter = case.matter := congrArg Prod.snd identity
  constructor
  · exact Association.nodup_set indexed.distinct _ _
  · exact indexed.distinctMatters
  · intro wanted other there
    rw [get?_put_record kind data sameId] at there
    split at there
    · rename_i same
      cases there
      rw [same, sameId]
    · exact indexed.named wanted other there
  · intro matter wanted
    have sameIndex : ((store.put changed).record id kind data).byMatter = store.byMatter := rfl
    rw [sameIndex, indexed.filed, get?_put_record kind data sameId]
    by_cases same : wanted = id
    · rw [same, found]
      simp [sameMatter]
    · rw [if_neg same]

theorem Opened.replaced (opened : store.Opened)
    (found : Association.get? id store.cases = some case) (sameId : changed.id = id)
    (later : kind ≠ .submitted) : ((store.put changed).record id kind data).Opened := by
  constructor
  · intro wanted isStored
    have before : store.Stores wanted := by
      rcases (stores_put_record kind data sameId wanted).mp isStored with rfl | before
      · exact ⟨case, found⟩
      · exact before
    obtain ⟨first, rest, events, others⟩ := opened.opened wanted before
    rw [eventsOf_record, eventsOf_put, events]
    split
    · refine ⟨first, rest ++ [⟨id, kind, data⟩], rfl, fun event member => ?_⟩
      rcases List.mem_append.mp member with earlier | last
      · exact others event earlier
      · rw [List.mem_singleton.mp last]
        exact later
    · exact ⟨first, rest, rfl, others⟩
  · intro event member
    apply (stores_put_record kind data sameId event.case).mpr
    rcases List.mem_append.mp member with earlier | last
    · exact .inr (opened.owned event earlier)
    · rw [List.mem_singleton.mp last]
      exact .inl rfl

end Replaced

/-- A new case takes the next number, and no other case changes. -/
theorem Creates.get? (creates : Creates store after) (wanted : CaseId)
    (isOld : wanted ≠ ⟨store.size + 1⟩) :
    Association.get? wanted after.cases = Association.get? wanted store.cases := by
  cases creates with
  | told isNew isOpen =>
      rename_i submission verified ruleId case
      have named : case.id = ⟨store.size + 1⟩ := by rw [isNew]; rfl
      simp only [record, put, Association.get?_set, named, isOld, if_false]

theorem Indexed.created (indexed : store.Indexed) (numbered : store.Numbered)
    (creates : Creates store after) : after.Indexed := by
  cases creates with
  | told isNew isOpen =>
      rename_i submission verified ruleId case
      have free : Association.get? case.id store.cases = none := by
        rw [isNew]
        exact numbered.next_free
      constructor
      · exact Association.nodup_set indexed.distinct _ _
      · exact Association.nodup_set indexed.distinctMatters _ _
      · intro wanted other there
        simp only [record, put, Association.get?_set] at there
        split at there
        · rename_i same
          cases there
          exact same.symm
        · exact indexed.named wanted other there
      · intro matter wanted
        simp only [record, put, Association.get?_set]
        by_cases isNewId : wanted = case.id
        · -- the new number has no matter yet, so only the new case can lead to it
          have unfiled : Association.get? matter store.byMatter ≠ some case.id := by
            intro filed
            obtain ⟨other, there, _⟩ := (indexed.filed matter case.id).mp filed
            rw [free] at there
            cases there
          rw [isNewId, if_pos rfl]
          by_cases sameMatter : matter = case.matter
          · simp [sameMatter]
          · simp [sameMatter, unfiled, Ne.symm sameMatter]
        · rw [if_neg isNewId, ← indexed.filed]
          by_cases sameMatter : matter = case.matter
          · simp [sameMatter, isOpen, Ne.symm isNewId]
          · rw [if_neg sameMatter]

theorem Opened.created (opened : store.Opened) (numbered : store.Numbered)
    (creates : Creates store after) : after.Opened := by
  cases creates with
  | told isNew isOpen =>
      rename_i submission verified ruleId case
      let indexed := { store.put case with
        byMatter := Association.set case.matter case.id store.byMatter }
      have free : ¬ store.Stores case.id := by
        rintro ⟨other, there⟩
        have isFree : Association.get? case.id store.cases = none := by
          rw [isNew]
          exact numbered.next_free
        rw [isFree] at there
        cases there
      have stores (wanted : CaseId) :
          (indexed.record case.id .submitted case.submittedData).Stores wanted ↔
            wanted = case.id ∨ store.Stores wanted :=
        stores_put_record .submitted case.submittedData rfl wanted
      have unrecorded : store.eventsOf case.id = [] := by
        rw [eventsOf, List.filter_eq_nil_iff]
        intro event member about
        exact free (of_decide_eq_true about ▸ opened.owned event member)
      constructor
      · intro wanted isStored
        have before : indexed.eventsOf wanted = store.eventsOf wanted := rfl
        rw [eventsOf_record, before]
        split
        · rename_i isNewId
          rw [isNewId, unrecorded]
          exact ⟨case.submittedData, [], rfl, by simp⟩
        · rename_i isOldId
          exact opened.opened wanted (((stores wanted).mp isStored).resolve_left isOldId)
      · intro event member
        apply (stores event.case).mpr
        rcases List.mem_append.mp member with earlier | last
        · exact .inr (opened.owned event earlier)
        · rw [List.mem_singleton.mp last]
          exact .inl rfl

/-- A settled case in the place of one that was not settles the last of all cases. -/
theorem AllSettled.replaced {id : CaseId} (settled : ∀ other case, other ≠ id →
    Association.get? other store.cases = some case → case.Settled)
    (named : ∀ case, Association.get? id store.cases = some case → case.id = id)
    (replaces : Replaces store id after) : after.AllSettled := by
  cases replaces with
  | told found identity later isSettled =>
      intro wanted other there
      have sameId := (congrArg Prod.fst identity).trans (named _ found)
      rw [get?_put_record _ _ sameId] at there
      split at there
      · cases there
        exact isSettled
      · rename_i isOther
        exact settled wanted other isOther there

theorem Integrity.replaced (integrity : store.Integrity) {id : CaseId}
    (replaces : Replaces store id after) : after.Integrity := by
  have settled : after.AllSettled :=
    .replaced (fun other case _ => integrity.settled other case) (integrity.named id) replaces
  cases replaces with
  | told found identity later isSettled =>
      have sameId := (congrArg Prod.fst identity).trans (integrity.named id _ found)
      exact ⟨integrity.toIndexed.replaced _ _ found identity,
        integrity.toOpened.replaced _ _ found sameId later, settled⟩

theorem Integrity.created (integrity : store.Integrity) (numbered : store.Numbered)
    {created : CaseStore} (creates : Creates store created)
    (replaces : Replaces created ⟨store.size + 1⟩ after) : after.Integrity := by
  have indexed := integrity.toIndexed.created numbered creates
  have opened := integrity.toOpened.created numbered creates
  have settled : after.AllSettled := by
    apply AllSettled.replaced _ (indexed.named _) replaces
    intro other case isOld there
    rw [creates.get? other isOld] at there
    exact integrity.settled other case there
  cases replaces with
  | told found identity later isSettled =>
      have sameId := (congrArg Prod.fst identity).trans (indexed.named _ _ found)
      exact ⟨indexed.replaced _ _ found identity, opened.replaced _ _ found sameId later, settled⟩

theorem Step.integrity (step : Step store after) (numbered : store.Numbered)
    (integrity : store.Integrity) : after.Integrity := by
  rcases step.replaces numbered integrity.settled with
    same | ⟨id, replaces⟩ | ⟨created, creates, replaces⟩
  · rw [same]
    exact integrity
  · exact integrity.replaced replaces
  · exact integrity.created numbered creates replaces

/-- Any number of operations keeps the integrity of a store. -/
theorem Steps.integrity (steps : Steps store after) (numbered : store.Numbered)
    (integrity : store.Integrity) : after.Integrity := by
  induction steps with
  | refl => exact integrity
  | tail earlier step inductionHypothesis =>
      exact step.integrity (Steps.numbered earlier numbered) inductionHypothesis

theorem empty_integrity : empty.Integrity where
  distinct := List.nodup_nil
  distinctMatters := List.nodup_nil
  named := fun _ _ stored => nomatch stored
  filed := fun _ _ => ⟨fun filed => (nomatch filed), fun ⟨_, stored, _⟩ => nomatch stored⟩
  opened := fun _ ⟨_, stored⟩ => nomatch stored
  owned := fun _ member => nomatch member
  settled := fun _ _ stored => nomatch stored

/-- An operation adds events at the end of the log only. -/
theorem Step.events (step : Step store after) (numbered : store.Numbered) :
    store.events <+: after.events := by
  rcases step.rewrites numbered with same | rewrites | ⟨created, creates, rewrites⟩
  · subst same
    exact List.prefix_refl _
  · cases rewrites with
    | told found identity snapshot => exact List.prefix_append _ _
  · cases creates with
    | told isNew isOpen =>
        cases rewrites with
        | told found identity snapshot =>
            exact (List.prefix_append _ _).trans (List.prefix_append _ _)

theorem Steps.events (steps : Steps store after) (numbered : store.Numbered) :
    store.events <+: after.events := by
  induction steps with
  | refl => exact List.prefix_refl _
  | tail earlier step inductionHypothesis =>
      exact inductionHypothesis.trans (step.events (Steps.numbered earlier numbered))

end CaseStore

end Statute
