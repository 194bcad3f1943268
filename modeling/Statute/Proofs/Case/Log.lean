/-
This file proves that the log of a store tells about each case what the store keeps.
-/

import Mathlib.Logic.Relation
import Statute.Proofs.Case.Updates

namespace Statute

/-- What a person or a rule changes about a stored case. -/
inductive Amendment
  | decide (verifier : String) (approved : Bool) (reason : String) (replacement : Option Record)
  | object (reason : String)
  | determineObjection (update : ObjectionStatus)
  | determineAdmissibility (admissible : Option Bool)
  | determineAppeal (update : AppealStatus)

namespace Amendment

/-- The kind of the event that records an amendment. -/
def kind : Amendment → EventKind
  | decide _ _ _ _ => .decided
  | object _ => .objected
  | determineObjection _ => .objectionStatusDetermined
  | determineAdmissibility _ => .objectionAdmissibilityDetermined
  | determineAppeal _ => .appealStatusDetermined

def apply : Amendment → Case → Except CaseError (Case × Record)
  | decide verifier approved reason replacement => Case.decide verifier approved reason replacement
  | object reason => Case.object reason
  | determineObjection update => fun case => .ok (case.determineObjection update)
  | determineAdmissibility admissible => fun case => .ok (case.determineAdmissibility admissible)
  | determineAppeal update => fun case => .ok (case.determineAppeal update)

theorem tells (amendment : Amendment) : Case.Tells amendment.kind amendment.apply := by
  cases amendment with
  | decide verifier approved reason replacement =>
      exact Case.decide_tells verifier approved reason replacement
  | object reason => exact Case.object_tells reason
  | determineObjection update => exact Case.determineObjection_tells update
  | determineAdmissibility admissible => exact Case.determineAdmissibility_tells admissible
  | determineAppeal update => exact Case.determineAppeal_tells update

end Amendment

namespace CaseStore

/-- One operation on cases. A submission places its case and settles it at once. -/
inductive Step : CaseStore → CaseStore → Prop
  | submit {store placed settled : CaseStore} {submission : Submission} {verified : Record}
      {ruleId : String} {id : CaseId} {case : Case} {matched sampled : Bool}
      (isPlaced : store.place submission verified ruleId = .ok (id, placed))
      (isSettled : placed.settle id verified matched sampled = .ok (case, settled)) :
      Step store settled
  | amend {store after : CaseStore} {id : CaseId} {case : Case} {amendment : Amendment}
      (isAmended : store.change id amendment.kind amendment.apply = .ok (case, after)) :
      Step store after
  | attach {store after : CaseStore} {id : CaseId} {claim : Claim} {isNew : Bool}
      (isAttached : store.attach id claim = .ok (isNew, after)) : Step store after
  | recordReview {store after : CaseStore} {id : CaseId} {claim : Claim}
      (isRecorded : store.recordReview id claim = .ok after) : Step store after

/-- Any number of operations on cases. -/
abbrev Steps : CaseStore → CaseStore → Prop :=
  Relation.ReflTransGen Step

/-- Cases are stored under their numbers, and matters lead to their cases. -/
structure Numbered (store : CaseStore) : Prop where
  stored : ∀ id case, Association.get? id store.cases = some case →
    case.id = id ∧ id.number ≤ store.size
  filed : ∀ matter id, Association.get? matter store.byMatter = some id →
    ∃ case, Association.get? id store.cases = some case ∧ case.matter = matter

/-- The events of each case tell what the store keeps of it. -/
def Logged (store : CaseStore) : Prop :=
  ∀ id, Snapshot.replay (store.eventsOf id) =
    (Association.get? id store.cases).map Case.snapshot

/-- A stored case is replaced, and an event tells all that is new about it. -/
inductive Rewrites (store : CaseStore) : CaseStore → Prop
  | told {id : CaseId} {case changed : Case} {kind : EventKind} {data : Record}
      (found : Association.get? id store.cases = some case)
      (identity : changed.identity = case.identity)
      (snapshot : changed.snapshot = case.snapshot.advance kind data) :
      Rewrites store ((store.put changed).record id kind data)

/-- A case of a matter without one is stored under the next number, and an event tells all about
it. -/
inductive Creates (store : CaseStore) : CaseStore → Prop
  | told {submission : Submission} {verified : Record} {ruleId : String} {case : Case}
      (isNew : case = Case.ofSubmission ⟨store.size + 1⟩ submission verified ruleId)
      (isOpen : Association.get? case.matter store.byMatter = none) :
      Creates store (CaseStore.record case.id .submitted case.submittedData
        { store.put case with byMatter := Association.set case.matter case.id store.byMatter })

/-- There is a case under the identifier. -/
def Stores (store : CaseStore) (id : CaseId) : Prop :=
  ∃ case, Association.get? id store.cases = some case

variable {store after : CaseStore}

theorem case_eq_ok {id : CaseId} {case : Case} :
    store.case id = .ok case ↔ Association.get? id store.cases = some case := by
  unfold CaseStore.case
  cases Association.get? id store.cases <;> simp

/-- The events of a case after one more event. -/
theorem eventsOf_record (store : CaseStore) (id wanted : CaseId) (kind : EventKind) (data : Record) :
    (store.record id kind data).eventsOf wanted =
      if wanted = id then store.eventsOf wanted ++ [⟨id, kind, data⟩] else store.eventsOf wanted := by
  by_cases same : wanted = id
  · simp [eventsOf, record, same]
  · simp [eventsOf, record, same, Ne.symm same]

theorem eventsOf_put (store : CaseStore) (case : Case) (id : CaseId) :
    (store.put case).eventsOf id = store.eventsOf id :=
  rfl

/-- A second case under an identifier replaces the first. -/
theorem put_put (store : CaseStore) {first second : Case} (same : second.id = first.id) :
    (store.put first).put second = store.put second := by
  simp [put, same, Association.set_set]

/-- A change that succeeds stores the changed case with its event. -/
theorem change_ok {id : CaseId} {kind : EventKind} {changed : Case}
    {update : Case → Except CaseError (Case × Record)}
    (isChanged : store.change id kind update = .ok (changed, after)) :
    ∃ case data, Association.get? id store.cases = some case ∧
      update case = .ok (changed, data) ∧ after = (store.put changed).record id kind data := by
  unfold change at isChanged
  cases found : store.case id with
  | error error => rw [found] at isChanged; cases isChanged
  | ok case =>
      rw [found] at isChanged
      cases updated : update case with
      | error error => simp [updated, bind, Except.bind] at isChanged
      | ok result =>
          obtain ⟨result, data⟩ := result
          simp only [updated, bind, Except.bind, pure, Except.pure, Except.ok.injEq,
            Prod.mk.injEq] at isChanged
          obtain ⟨rfl, rfl⟩ := isChanged
          exact ⟨case, data, case_eq_ok.mp found, updated, rfl⟩

/-- A change whose events tell everything rewrites a case. -/
theorem change_rewrites {id : CaseId} {kind : EventKind} {changed : Case}
    {update : Case → Except CaseError (Case × Record)} (tells : Case.Tells kind update)
    (isChanged : store.change id kind update = .ok (changed, after)) : Rewrites store after := by
  obtain ⟨case, data, found, updated, rfl⟩ := change_ok isChanged
  obtain ⟨identity, snapshot⟩ := tells case changed data updated
  exact .told found identity snapshot

/-- A claim is attached to a case that is there, unless it was before. -/
theorem attach_ok {id : CaseId} {claim : Claim} {isNew : Bool}
    (isAttached : store.attach id claim = .ok (isNew, after)) :
    after = store ∨ ∃ case, Association.get? id store.cases = some case ∧
      after = (store.put (case.attach claim.id)).record id .claimCreated claim.eventData := by
  unfold attach at isAttached
  cases found : store.case id with
  | error error => rw [found] at isAttached; cases isAttached
  | ok case =>
      simp only [found, bind, Except.bind, pure, Except.pure] at isAttached
      split at isAttached
      · left
        exact (Prod.mk.inj (Except.ok.inj isAttached)).2.symm
      · right
        exact ⟨case, case_eq_ok.mp found, (Prod.mk.inj (Except.ok.inj isAttached)).2.symm⟩

/-- A review is recorded with a case that is there, unless the claim is pending. -/
theorem recordReview_ok {id : CaseId} {claim : Claim}
    (isRecorded : store.recordReview id claim = .ok after) :
    after = store ∨ ∃ kind case, reviewEvent? claim.status = some kind ∧
      Association.get? id store.cases = some case ∧
      after = (store.put (case.attach claim.id)).record id kind claim.eventData := by
  unfold recordReview at isRecorded
  split at isRecorded
  · left
    exact (Except.ok.inj isRecorded).symm
  · rename_i kind reviewed
    right
    cases changed : store.change id kind fun case => .ok (case.attach claim.id, claim.eventData) with
    | error error => rw [changed] at isRecorded; cases isRecorded
    | ok result =>
        obtain ⟨reviewedCase, stored⟩ := result
        rw [changed] at isRecorded
        obtain rfl : stored = after := Except.ok.inj isRecorded
        obtain ⟨case, data, found, updated, rfl⟩ := change_ok changed
        obtain ⟨rfl, rfl⟩ := Prod.mk.inj (Except.ok.inj updated)
        exact ⟨kind, case, reviewed, found, rfl⟩

theorem attach_rewrites {id : CaseId} {claim : Claim} {isNew : Bool}
    (isAttached : store.attach id claim = .ok (isNew, after)) :
    after = store ∨ Rewrites store after := by
  rcases attach_ok isAttached with same | ⟨case, found, rfl⟩
  · exact .inl same
  · exact .inr (.told found (Case.identity_attach case claim.id) (Case.snapshot_attach case claim))

theorem recordReview_rewrites {id : CaseId} {claim : Claim}
    (isRecorded : store.recordReview id claim = .ok after) :
    after = store ∨ Rewrites store after := by
  rcases recordReview_ok isRecorded with same | ⟨kind, case, reviewed, found, rfl⟩
  · exact .inl same
  · obtain ⟨identity, snapshot⟩ := Case.review_tells reviewed claim case _ _ rfl
    exact .inr (.told found identity snapshot)

/-- A change that the update of a stored case allows. -/
theorem change_of_ok {id : CaseId} {case changed : Case} {kind : EventKind} {data : Record}
    {update : Case → Except CaseError (Case × Record)}
    (found : Association.get? id store.cases = some case)
    (updated : update case = .ok (changed, data)) :
    store.change id kind update = .ok (changed, (store.put changed).record id kind data) := by
  simp [change, case_eq_ok.mpr found, updated, bind, Except.bind, pure, Except.pure]

/-- The event of a settlement. -/
def settlementKind (matched sampled : Bool) : EventKind :=
  if matched && !sampled then .automaticallyDecided else .addedToManualReview

/-- A case that nobody has looked at is always settled, and the event tells all that changed since
the case before, if the submission resumed one. -/
theorem settle_untouched {id : CaseId} {case : Case} (verified : Record) (matched sampled : Bool)
    (found : Association.get? id store.cases = some case) (untouched : case.Untouched) :
    ∃ changed data,
      store.settle id verified matched sampled =
        .ok (changed, (store.put changed).record id (settlementKind matched sampled) data) ∧
      ∀ before, case.Resumes before → changed.identity = before.identity ∧
        changed.snapshot = before.snapshot.advance (settlementKind matched sampled) data := by
  unfold settle settlementKind
  by_cases decided : (matched && !sampled) = true
  · simp only [decided, if_true]
    obtain ⟨changed, data, updated⟩ := Case.decideAutomatically_untouched verified true untouched
    refine ⟨changed, data, change_of_ok found updated, ?_⟩
    intro before resumes
    exact Case.decideAutomatically_tells untouched resumes updated
  · simp only [decided, Bool.false_eq_true, if_false]
    obtain ⟨changed, data, updated⟩ :=
      Case.selectForReview_untouched systemVerifier (reviewReason matched) untouched
    refine ⟨changed, data, change_of_ok found updated, ?_⟩
    intro before resumes
    exact Case.selectForReview_tells untouched resumes updated

/-- A submission finds the case of its matter, or creates one. -/
theorem place_cases (numbered : store.Numbered) (submission : Submission) (verified : Record)
    (ruleId : String) :
    (∃ id case, Association.get? id store.cases = some case ∧ case.id = id ∧
      case.matter = submission.matter ∧ store.place submission verified ruleId =
        .ok (id, store.put (case.reset submission verified ruleId))) ∨
    ∃ case created, case = Case.ofSubmission ⟨store.size + 1⟩ submission verified ruleId ∧
      Creates store created ∧ Association.get? case.id created.cases = some case ∧
      store.place submission verified ruleId = .ok (case.id, created) := by
  unfold place
  cases indexed : Association.get? submission.matter store.byMatter with
  | some id =>
      left
      obtain ⟨case, found, about⟩ := numbered.filed _ _ indexed
      refine ⟨id, case, found, (numbered.stored _ _ found).1, about, ?_⟩
      simp [case_eq_ok.mpr found, bind, Except.bind, pure, Except.pure]
  | none =>
      right
      refine ⟨_, _, rfl, .told rfl indexed, ?_, rfl⟩
      simp [record, put, Association.get?_set]

/-- A submission always settles its case. It rewrites the case, after creating it if need be. -/
theorem submit_rewrites (numbered : store.Numbered) (submission : Submission) (verified : Record)
    (ruleId : String) (matched sampled : Bool) :
    ∃ id placed case settled,
      store.place submission verified ruleId = .ok (id, placed) ∧
      placed.settle id verified matched sampled = .ok (case, settled) ∧
      (Rewrites store settled ∨ ∃ created, Creates store created ∧ Rewrites created settled) := by
  rcases place_cases numbered submission verified ruleId with
    ⟨id, case, found, named, _, isPlaced⟩ | ⟨case, created, isNew, creates, found, isPlaced⟩
  · have foundReset : Association.get? id (store.put (case.reset submission verified ruleId)).cases =
        some (case.reset submission verified ruleId) := by
      rw [put, show (case.reset submission verified ruleId).id = id from named,
        Association.get?_set, if_pos rfl]
    obtain ⟨changed, data, isSettled, tells⟩ := settle_untouched verified matched sampled foundReset
      (Case.reset_untouched submission verified ruleId case)
    obtain ⟨identity, snapshot⟩ := tells case (Case.reset_resumes submission verified ruleId case)
    refine ⟨_, _, _, _, isPlaced, isSettled, .inl ?_⟩
    have sameId : changed.id = (case.reset submission verified ruleId).id :=
      congrArg Prod.fst identity
    rw [put_put store sameId]
    exact .told found identity snapshot
  · have untouched : case.Untouched := by
      rw [isNew]
      exact Case.ofSubmission_untouched _ submission verified ruleId
    obtain ⟨changed, data, isSettled, tells⟩ :=
      settle_untouched verified matched sampled found untouched
    obtain ⟨identity, snapshot⟩ := tells case ⟨rfl, rfl, rfl, rfl⟩
    exact ⟨_, _, _, _, isPlaced, isSettled, .inr ⟨created, creates, .told found identity snapshot⟩⟩

/-- What one operation does to the cases: nothing, or it rewrites a case that is there or new. -/
theorem Step.rewrites (step : Step store after) (numbered : store.Numbered) :
    after = store ∨ Rewrites store after ∨
      ∃ created, Creates store created ∧ Rewrites created after := by
  cases step with
  | submit isPlaced isSettled =>
      rename_i placed submission verified ruleId id case matched sampled
      obtain ⟨_, _, _, _, placedThere, settledThere, rewrites⟩ :=
        submit_rewrites numbered submission verified ruleId matched sampled
      rw [isPlaced] at placedThere
      obtain ⟨rfl, rfl⟩ := Prod.mk.inj (Except.ok.inj placedThere)
      rw [isSettled] at settledThere
      obtain ⟨rfl, rfl⟩ := Prod.mk.inj (Except.ok.inj settledThere)
      exact .inr rewrites
  | amend isAmended => exact .inr (.inl (change_rewrites (Amendment.tells _) isAmended))
  | attach isAttached =>
      rcases attach_rewrites isAttached with same | rewrites
      · exact .inl same
      · exact .inr (.inl rewrites)
  | recordReview isRecorded =>
      rcases recordReview_rewrites isRecorded with same | rewrites
      · exact .inl same
      · exact .inr (.inl rewrites)

theorem Numbered.rewritten (numbered : store.Numbered) (rewrites : Rewrites store after) :
    after.Numbered := by
  cases rewrites with
  | told found identity snapshot =>
      rename_i id case changed kind data
      obtain ⟨named, bounded⟩ := numbered.stored _ _ found
      have sameId : changed.id = id := (congrArg Prod.fst identity).trans named
      have sameSize : ((store.put changed).record id kind data).size = store.size := by
        simp [size, record, put, Association.length_set, sameId, found]
      constructor
      · intro wanted other stored
        rw [sameSize]
        simp only [record, put, sameId, Association.get?_set] at stored
        split at stored
        · cases stored
          rename_i same
          rw [same]
          exact ⟨sameId, bounded⟩
        · exact numbered.stored _ _ stored
      · intro matter wanted indexed
        obtain ⟨other, stored, about⟩ := numbered.filed matter wanted indexed
        simp only [record, put, sameId, Association.get?_set]
        by_cases same : wanted = id
        · subst same
          rw [found] at stored
          cases stored
          exact ⟨changed, by simp, (congrArg Prod.snd identity).trans about⟩
        · exact ⟨other, by simp [same, stored], about⟩

/-- Nothing is stored yet under the number that the next case takes. -/
theorem Numbered.next_free (numbered : store.Numbered) :
    Association.get? ⟨store.size + 1⟩ store.cases = none := by
  cases found : Association.get? ⟨store.size + 1⟩ store.cases with
  | none => rfl
  | some case =>
      have bounded := (numbered.stored _ _ found).2
      simp only at bounded
      omega

theorem Numbered.created (numbered : store.Numbered) (creates : Creates store after) :
    after.Numbered := by
  cases creates with
  | told isNew isOpen =>
      rename_i submission verified ruleId case
      have free := numbered.next_free
      have named : case.id = ⟨store.size + 1⟩ := by rw [isNew]; rfl
      have larger : (Association.set case.id case store.cases).length = store.size + 1 := by
        rw [Association.length_set, named, free]
        rfl
      constructor
      · intro wanted other stored
        simp only [size, record, put, larger]
        simp only [record, put, Association.get?_set] at stored
        split at stored
        · cases stored
          rename_i same
          rw [same, named]
          exact ⟨rfl, Nat.le_refl _⟩
        · obtain ⟨sameId, bounded⟩ := numbered.stored _ _ stored
          exact ⟨sameId, Nat.le_succ_of_le bounded⟩
      · intro matter wanted indexed
        simp only [record, put, Association.get?_set] at indexed ⊢
        split at indexed
        · cases indexed
          rename_i same
          exact ⟨case, by simp, same.symm⟩
        · obtain ⟨other, stored, about⟩ := numbered.filed matter wanted indexed
          have older : wanted ≠ case.id := by
            intro same
            rw [same, named, free] at stored
            cases stored
          exact ⟨other, by simp [older, stored], about⟩

theorem Logged.rewritten (logged : store.Logged) (numbered : store.Numbered)
    (rewrites : Rewrites store after) : after.Logged := by
  cases rewrites with
  | told found identity snapshot =>
      rename_i id case changed kind data
      have sameId : changed.id = id :=
        (congrArg Prod.fst identity).trans (numbered.stored _ _ found).1
      intro wanted
      have before := logged wanted
      rw [eventsOf_record, eventsOf_put]
      simp only [record, put, sameId, Association.get?_set]
      by_cases same : wanted = id
      · subst same
        rw [found] at before
        simp only [if_true, Option.map_some] at before ⊢
        rw [Snapshot.replay_append_singleton, before, Snapshot.next, snapshot]
      · simp only [same, if_false]
        exact before

theorem Logged.created (logged : store.Logged) (numbered : store.Numbered)
    (creates : Creates store after) : after.Logged := by
  cases creates with
  | told isNew isOpen =>
      rename_i submission verified ruleId case
      have named : case.id = ⟨store.size + 1⟩ := by rw [isNew]; rfl
      have opened : Snapshot.opened case.submittedData = case.snapshot := by
        rw [isNew]
        exact Case.submitted_tells _ submission verified ruleId
      intro wanted
      have before : Snapshot.replay (store.eventsOf wanted) =
          (Association.get? wanted store.cases).map Case.snapshot := logged wanted
      rw [eventsOf_record]
      simp only [record, put, Association.get?_set]
      by_cases same : wanted = case.id
      · rw [same, named, numbered.next_free] at before
        subst same
        simp only [if_true, Option.map_some]
        rw [Snapshot.replay_append_singleton]
        simp only [eventsOf, named] at before ⊢
        rw [before, ← opened, Option.map_none, Snapshot.next, if_pos rfl]
      · simp only [same, if_false]
        exact before

theorem Step.numbered (step : Step store after) (numbered : store.Numbered) : after.Numbered := by
  rcases step.rewrites numbered with same | rewrites | ⟨created, creates, rewrites⟩
  · rw [same]
    exact numbered
  · exact numbered.rewritten rewrites
  · exact (numbered.created creates).rewritten rewrites

theorem Step.logged (step : Step store after) (numbered : store.Numbered) (logged : store.Logged) :
    after.Logged := by
  rcases step.rewrites numbered with same | rewrites | ⟨created, creates, rewrites⟩
  · rw [same]
    exact logged
  · exact logged.rewritten numbered rewrites
  · exact (logged.created numbered creates).rewritten (numbered.created creates) rewrites

theorem Steps.numbered (steps : Steps store after) (numbered : store.Numbered) : after.Numbered := by
  induction steps with
  | refl => exact numbered
  | tail _ step inductionHypothesis => exact step.numbered inductionHypothesis

/-- The log tells everything after any number of operations. -/
theorem Steps.logged (steps : Steps store after) (numbered : store.Numbered)
    (logged : store.Logged) : after.Logged := by
  induction steps with
  | refl => exact logged
  | tail earlier step inductionHypothesis =>
      exact step.logged (Steps.numbered earlier numbered) inductionHypothesis

theorem empty_numbered : empty.Numbered :=
  ⟨fun _ _ stored => (nomatch stored), fun _ _ filed => (nomatch filed)⟩

theorem empty_logged : empty.Logged :=
  fun _ => rfl

end CaseStore

end Statute
