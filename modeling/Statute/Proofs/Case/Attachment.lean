/-
This file says which claims the cases of a store list and which reviews of claims its log records.
-/

import Statute.Proofs.Case.Determination

namespace Statute

/-- True for the events that record the review of a claim. -/
def Event.isReview (event : Event) : Bool :=
  event.kind = .claimApproved || event.kind = .claimRejected

/-- The events that record the review of a claim. A claim without a case has none, and neither has a
pending one. -/
def Claim.reviewEvents (claim : Claim) : List Event :=
  match claim.linkedCase, CaseStore.reviewEvent? claim.status with
  | some case, some kind => [⟨case, kind, claim.eventData⟩]
  | _, _ => []

/-- An event reports the review of a claim to the case that the claim is linked to. -/
structure Event.Reports (claim : Claim) (event : Event) : Prop where
  case : claim.linkedCase = some event.case
  kind : CaseStore.reviewEvent? claim.status = some event.kind
  id : Payload.text? "claim_id" event.data = some claim.id.text
  status : Payload.text? "status" event.data = some claim.status.name

namespace Claim

variable {claim : Claim}

theorem reports_of_mem {event : Event} (member : event ∈ claim.reviewEvents) :
    event.Reports claim := by
  unfold reviewEvents at member
  split at member
  · rename_i case kind linked reviewed
    rw [List.mem_singleton.mp member]
    refine ⟨linked, reviewed, Case.claimId_eventData claim, ?_⟩
    simp [Payload.text?, eventData, Entries.ofList, Entries.get?_insert, Value.string?]
  · cases member

/-- The review of a linked claim is one event. -/
theorem reviewEvents_of_reviewed {id : CaseId} (linked : claim.linkedCase = some id)
    (reviewed : claim.status ≠ .pending) :
    ∃ event, claim.reviewEvents = [event] ∧ event.case = id := by
  unfold reviewEvents
  rw [linked]
  cases status : claim.status with
  | pending => exact absurd status reviewed
  | approved => exact ⟨_, rfl, rfl⟩
  | rejected => exact ⟨_, rfl, rfl⟩

theorem reviewEvents_of_unlinked (unlinked : claim.linkedCase = none) : claim.reviewEvents = [] := by
  rw [reviewEvents, unlinked]

end Claim

namespace Case

/-- A case lists a claim that is attached to it last, unless it listed the claim before. -/
theorem claimIds_attach (case : Case) (claim : ClaimId) :
    (case.attach claim).claimIds =
      if claim ∈ case.claimIds then case.claimIds else case.claimIds ++ [claim] := by
  unfold attach
  by_cases listed : claim ∈ case.claimIds <;> simp [listed]

end Case

namespace Amendment

/-- Amendments are not about claims. -/
theorem claimIds {amendment : Amendment} {case changed : Case} {data : Record}
    (amended : amendment.apply case = .ok (changed, data)) : changed.claimIds = case.claimIds := by
  cases amendment with
  | decide verifier approved reason replacement =>
      obtain ⟨rfl, rfl⟩ := Prod.mk.inj (Case.guard_ok amended)
      rfl
  | object reason =>
      obtain ⟨rfl, rfl⟩ := Prod.mk.inj (Case.guard_ok amended)
      rfl
  | determineObjection update => cases amended; rfl
  | determineAdmissibility admissible => cases amended; rfl
  | determineAppeal update => cases amended; rfl

theorem isReview (amendment : Amendment) (id : CaseId) (data : Record) :
    Event.isReview ⟨id, amendment.kind, data⟩ = false := by
  cases amendment <;> rfl

end Amendment

namespace CaseStore

variable {store before between after : CaseStore} {id : CaseId} {claim : Claim}

/-- The claims that a case lists. A case that is not there lists none. -/
def claimsOf (store : CaseStore) (id : CaseId) : List ClaimId :=
  ((Association.get? id store.cases).map Case.claimIds).getD []

/-- The log has grown, and these reviews are among its new events. -/
def Reviews (reviews : List Event) (before after : CaseStore) : Prop :=
  ∃ added, after.events = before.events ++ added ∧ added.filter Event.isReview = reviews

/-- The cases list the claims that they listed before, and no review is recorded. -/
structure KeepsClaims (before after : CaseStore) : Prop where
  claims : ∀ id, after.claimsOf id = before.claimsOf id
  reviews : before.Reviews [] after

/-- The case of a claim lists the claim from now on, if it did not before, and these reviews are
recorded. -/
structure Hears (claim : Claim) (reviews : List Event) (before after : CaseStore) : Prop where
  claims : ∀ id, after.claimsOf id =
    if claim.linkedCase = some id ∧ claim.id ∉ before.claimsOf id then
      before.claimsOf id ++ [claim.id]
    else before.claimsOf id
  reviews : before.Reviews reviews after

theorem reviewEvent?_eq_none {status : ClaimStatus} :
    reviewEvent? status = none ↔ status = .pending := by
  cases status <;> simp [reviewEvent?]

theorem isReview_of_reviewed {status : ClaimStatus} {kind : EventKind} {data : Record}
    (reviewed : reviewEvent? status = some kind) : Event.isReview ⟨id, kind, data⟩ = true := by
  cases status <;> cases reviewed <;> rfl

theorem claimsOf_of_found {case : Case} (found : Association.get? id store.cases = some case) :
    store.claimsOf id = case.claimIds := by
  rw [claimsOf, found]
  rfl

/-- Only a case that is there lists claims. -/
theorem stores_of_mem_claimsOf {listed : ClaimId} (member : listed ∈ store.claimsOf id) :
    store.Stores id := by
  unfold claimsOf at member
  cases found : Association.get? id store.cases with
  | none => rw [found] at member; cases member
  | some case => exact ⟨case, found⟩

theorem claimsOf_put {changed : Case} (sameId : changed.id = id) (wanted : CaseId) :
    (store.put changed).claimsOf wanted =
      if wanted = id then changed.claimIds else store.claimsOf wanted := by
  rw [claimsOf, put, sameId, Association.get?_set]
  split <;> rfl

namespace Reviews

theorem refl (store : CaseStore) : store.Reviews [] store :=
  ⟨[], (List.append_nil _).symm, rfl⟩

theorem trans {earlier later : List Event} (first : before.Reviews earlier between)
    (second : between.Reviews later after) : before.Reviews (earlier ++ later) after := by
  obtain ⟨added, isBetween, rfl⟩ := first
  obtain ⟨more, isAfter, rfl⟩ := second
  exact ⟨added ++ more, by rw [isAfter, isBetween, List.append_assoc], List.filter_append _ _⟩

end Reviews

namespace KeepsClaims

theorem refl (store : CaseStore) : store.KeepsClaims store :=
  ⟨fun _ => rfl, .refl store⟩

theorem trans (first : before.KeepsClaims between) (second : between.KeepsClaims after) :
    before.KeepsClaims after :=
  ⟨fun id => (second.claims id).trans (first.claims id), first.reviews.trans second.reviews⟩

/-- A case is replaced by one that lists the same claims. -/
theorem put {case changed : Case} (found : Association.get? id store.cases = some case)
    (sameId : changed.id = id) (sameClaims : changed.claimIds = case.claimIds) :
    store.KeepsClaims (store.put changed) := by
  refine ⟨fun wanted => ?_, .refl store⟩
  rw [claimsOf_put sameId]
  split
  · rename_i same
    rw [same, sameClaims, claimsOf_of_found found]
  · rfl

theorem record (store : CaseStore) {kind : EventKind} {data : Record}
    (isOther : Event.isReview ⟨id, kind, data⟩ = false) :
    store.KeepsClaims (store.record id kind data) :=
  ⟨fun _ => rfl, [⟨id, kind, data⟩], rfl, List.filter_cons_of_neg (by simp [isOther])⟩

/-- Determinations of rules are not about claims. -/
theorem ofDetermines {determinations : List Determination}
    (determines : before.Determines id determinations after) : before.KeepsClaims after := by
  constructor
  · intro wanted
    unfold claimsOf
    by_cases same : wanted = id
    · rw [same, determines.case, Option.map_map]
      congr 2
      funext case
      rw [Function.comp_apply, Determination.applyAll_statuses]
    · rw [determines.others wanted same]
  · refine ⟨_, determines.events, List.filter_eq_nil_iff.mpr ?_⟩
    simp only [List.forall_mem_map]
    intro determination _
    cases determination <;> simp [Determination.event, Determination.kind, Event.isReview]

end KeepsClaims

/-- A change that keeps the claims of its case. -/
theorem change_keepsClaims {kind : EventKind} {update : Case → Except CaseError (Case × Record)}
    {changed : Case} (named : ∀ case, Association.get? id store.cases = some case → case.id = id)
    (keeps : ∀ case data, update case = .ok (changed, data) → changed.id = case.id ∧
      changed.claimIds = case.claimIds ∧ Event.isReview ⟨id, kind, data⟩ = false)
    (isChanged : store.change id kind update = .ok (changed, after)) : store.KeepsClaims after := by
  obtain ⟨case, data, found, updated, rfl⟩ := change_ok isChanged
  obtain ⟨sameId, sameClaims, isOther⟩ := keeps case data updated
  exact (KeepsClaims.put found (sameId.trans (named case found)) sameClaims).trans (.record _ isOther)

theorem amend_keepsClaims (numbered : store.Numbered) (amendment : Amendment) {changed : Case}
    (isChanged : store.change id amendment.kind amendment.apply = .ok (changed, after)) :
    store.KeepsClaims after :=
  change_keepsClaims (fun case found => (numbered.stored id case found).1)
    (fun case data amended => ⟨congrArg Prod.fst (amendment.tells case changed data amended).1,
      amendment.claimIds amended, amendment.isReview id data⟩) isChanged

theorem settle_keepsClaims {verified : Record} {matched sampled : Bool} {changed : Case}
    (named : ∀ case, Association.get? id store.cases = some case → case.id = id)
    (isSettled : store.settle id verified matched sampled = .ok (changed, after)) :
    store.KeepsClaims after := by
  unfold settle at isSettled
  split at isSettled
  · refine change_keepsClaims named (fun case data updated => ?_) isSettled
    obtain ⟨rfl, rfl⟩ := Prod.mk.inj (Case.guard_ok updated)
    exact ⟨rfl, rfl, rfl⟩
  · refine change_keepsClaims named (fun case data updated => ?_) isSettled
    obtain ⟨rfl, rfl⟩ := Prod.mk.inj (Case.guard_ok updated)
    exact ⟨rfl, rfl, rfl⟩

/-- A new case lists no claims, as was the case before it was there. -/
theorem create_keepsClaims (numbered : store.Numbered) (creates : Creates store after) :
    store.KeepsClaims after := by
  cases creates with
  | told isNew isOpen =>
      rename_i submission verified ruleId case
      refine ⟨fun wanted => ?_, _, rfl, rfl⟩
      refine (claimsOf_put rfl wanted).trans ?_
      split
      · rename_i same
        rw [claimsOf, same, isNew, show (Case.ofSubmission ⟨store.size + 1⟩ submission verified
          ruleId).id = ⟨store.size + 1⟩ from rfl, numbered.next_free]
        rfl
      · rfl

/-- A submission starts a case without claims, or starts a case again with the claims that it has. -/
theorem submit_keepsClaims {placed settled : CaseStore} {submission : Submission}
    {verified : Record} {ruleId : String} {case : Case} {matched sampled : Bool}
    (numbered : store.Numbered)
    (isPlaced : store.place submission verified ruleId = .ok (id, placed))
    (isSettled : placed.settle id verified matched sampled = .ok (case, settled)) :
    store.KeepsClaims settled := by
  rcases place_cases numbered submission verified ruleId with
    ⟨there, before, found, named, _, isThere⟩ | ⟨fresh, created, isNew, creates, found, isThere⟩
  · rw [isPlaced] at isThere
    cases isThere
    have restarted : store.KeepsClaims (store.put (before.reset submission verified ruleId)) :=
      .put found named rfl
    refine restarted.trans (settle_keepsClaims (fun stored there => ?_) isSettled)
    rw [put, show (before.reset submission verified ruleId).id = id from named,
      Association.get?_set, if_pos rfl] at there
    cases there
    exact named
  · rw [isPlaced] at isThere
    cases isThere
    refine (create_keepsClaims numbered creates).trans
      (settle_keepsClaims (fun stored there => ?_) isSettled)
    rw [found] at there
    cases there
    rfl

namespace Hears

theorem refl (known : ∀ id, claim.linkedCase = some id → claim.id ∈ store.claimsOf id) :
    store.Hears claim [] store := by
  refine ⟨fun id => ?_, .refl store⟩
  rw [if_neg fun isNew => isNew.2 (known id isNew.1)]

variable {earlier later : List Event}

/-- A claim that is listed stays so, and the case of the claim lists it. -/
theorem mem_iff {listed : ClaimId} (hears : before.Hears claim earlier after) :
    listed ∈ after.claimsOf id ↔
      listed ∈ before.claimsOf id ∨ claim.linkedCase = some id ∧ listed = claim.id := by
  rw [hears.claims]
  split
  · rename_i isNew
    simp [isNew.1]
  · rename_i isOld
    refine ⟨.inl, ?_⟩
    rintro (isListed | ⟨linked, rfl⟩)
    · exact isListed
    · by_contra absent
      exact isOld ⟨linked, absent⟩

theorem trans (first : before.Hears claim earlier between)
    (second : between.Hears claim later after) : before.Hears claim (earlier ++ later) after := by
  refine ⟨fun id => ?_, first.reviews.trans second.reviews⟩
  have known (linked : claim.linkedCase = some id) : claim.id ∈ between.claimsOf id :=
    first.mem_iff.mpr (.inr ⟨linked, rfl⟩)
  rw [second.claims, if_neg fun isNew => isNew.2 (known isNew.1), first.claims]

theorem nodup (hears : before.Hears claim earlier after) (distinct : (before.claimsOf id).Nodup) :
    (after.claimsOf id).Nodup := by
  rw [hears.claims]
  split
  · rename_i isNew
    exact List.nodup_append_comm.mp (List.nodup_cons.mpr ⟨isNew.2, distinct⟩)
  · exact distinct

/-- A claim is attached to its case and an event about it is recorded. -/
theorem attach (numbered : store.Numbered) (linked : claim.linkedCase = some id) {case : Case}
    (found : Association.get? id store.cases = some case) (kind : EventKind) (data : Record) :
    store.Hears claim ([⟨id, kind, data⟩].filter Event.isReview)
      ((store.put (case.attach claim.id)).record id kind data) := by
  have sameId : (case.attach claim.id).id = id :=
    (congrArg Prod.fst (case.identity_attach claim.id)).trans (numbered.stored id case found).1
  refine ⟨fun wanted => ?_, _, rfl, rfl⟩
  refine (claimsOf_put sameId wanted).trans ?_
  by_cases same : wanted = id
  · rw [if_pos same, same, claimsOf_of_found found, Case.claimIds_attach]
    by_cases listed : claim.id ∈ case.claimIds <;> simp [linked, listed]
  · rw [if_neg same, if_neg]
    exact fun isNew => same (Option.some.inj (linked.symm.trans isNew.1)).symm

end Hears

/-- A claim can be attached to its case when the case is there. -/
theorem attach_hears (numbered : store.Numbered) (linked : claim.linkedCase = some id)
    (stored : store.Stores id) :
    ∃ isNew after, store.attach id claim = .ok (isNew, after) ∧ store.Hears claim [] after := by
  obtain ⟨case, found⟩ := stored
  unfold CaseStore.attach
  rw [case_eq_ok.mpr found]
  dsimp only [bind, Except.bind]
  split
  · rename_i listed
    refine ⟨false, store, rfl, .refl fun wanted isCase => ?_⟩
    rw [← Option.some.inj (linked.symm.trans isCase), claimsOf_of_found found]
    exact List.contains_iff_mem.mp listed
  · exact ⟨true, _, rfl, .attach numbered linked found .claimCreated claim.eventData⟩

/-- The review of a claim is recorded with its case. The case of a pending claim must list it, since
nothing is recorded then. -/
theorem recordReview_hears (numbered : store.Numbered) (linked : claim.linkedCase = some id)
    (stored : store.Stores id)
    (known : claim.status = .pending → claim.id ∈ store.claimsOf id) :
    ∃ after, store.recordReview id claim = .ok after ∧
      store.Hears claim claim.reviewEvents after := by
  obtain ⟨case, found⟩ := stored
  unfold recordReview Claim.reviewEvents
  rw [linked]
  cases reviewed : reviewEvent? claim.status with
  | none =>
      have pending : claim.status = .pending := reviewEvent?_eq_none.mp reviewed
      refine ⟨store, rfl, .refl fun wanted isCase => ?_⟩
      rw [← Option.some.inj (linked.symm.trans isCase)]
      exact known pending
  | some kind =>
      have heard := Hears.attach numbered linked found kind claim.eventData
      rw [List.filter_cons_of_pos (isReview_of_reviewed reviewed), List.filter_nil] at heard
      dsimp only
      rw [change_of_ok found rfl]
      exact ⟨_, rfl, heard⟩

end CaseStore

end Statute
