/-
This file proves that the events of a case tell all that its updates change.
-/

import Statute.Proofs.Case.Replay

namespace Statute

namespace ClaimId

/-- Two claims have different texts. -/
theorem text_injective {first second : ClaimId} (same : first.text = second.text) :
    first = second := by
  obtain ⟨firstNumber⟩ := first
  obtain ⟨secondNumber⟩ := second
  have numerals : firstNumber.repr = secondNumber.repr := by
    simpa [text] using same
  have digits : Nat.toDigits 10 firstNumber = Nat.toDigits 10 secondNumber := by
    rw [← Nat.toList_repr, numerals, Nat.toList_repr]
  have numbers : firstNumber = secondNumber := by
    rw [← Nat.ofDigitChars_ten_toDigits (n := firstNumber), digits,
      Nat.ofDigitChars_ten_toDigits]
  rw [numbers]

theorem contains_map_text (claims : List ClaimId) (claim : ClaimId) :
    (claims.map text).contains claim.text = claims.contains claim := by
  rw [Bool.eq_iff_iff]
  simp only [List.contains_iff_mem, List.mem_map]
  constructor
  · rintro ⟨other, member, same⟩
    rwa [← text_injective same]
  · intro member
    exact ⟨claim, member, rfl⟩

end ClaimId

namespace Case

/-- Every claim event names its claim. -/
theorem claimId_eventData (claim : Claim) :
    Payload.text? "claim_id" claim.eventData = some claim.id.text := by
  simp [Payload.text?, Claim.eventData, Entries.ofList, Entries.get?_insert, Value.string?]

/-- The event of a claim tells that the claim belongs to the case. -/
theorem snapshot_attach (case : Case) (claim : Claim) :
    (case.attach claim.id).snapshot = case.snapshot.withClaim claim.eventData := by
  rw [Snapshot.withClaim, claimId_eventData]
  simp only [snapshot, ClaimId.contains_map_text, attach]
  by_cases known : case.claimIds.contains claim.id = true
  · simp only [known, if_true]
  · simp only [known, Bool.false_eq_true, if_false, List.map_append, List.map_cons, List.map_nil]

/-- The identity of a case, which no change of the case touches. -/
def identity (case : Case) : CaseId × Matter :=
  (case.id, case.matter)

theorem identity_attach (case : Case) (claim : ClaimId) :
    (case.attach claim).identity = case.identity := by
  unfold attach
  split <;> rfl

/-- An update is told by a kind of event when the event's data has all that the update changes. -/
def Tells (kind : EventKind) (update : Case → Except CaseError (Case × Record)) : Prop :=
  ∀ case changed data, update case = .ok (changed, data) →
    changed.identity = case.identity ∧ changed.snapshot = case.snapshot.advance kind data

/-- A change that a guard lets through. -/
theorem guard_ok {transition : Transition} {case : Case} {result outcome : Case × Record}
    (passed : (do case.guard transition; return result) = (.ok outcome : Except CaseError _)) :
    result = outcome := by
  unfold guard at passed
  split at passed
  · exact Except.ok.inj passed
  · cases passed

theorem decide_tells (verifier : String) (approved : Bool) (reason : String)
    (replacement : Option Record) :
    Tells .decided (decide verifier approved reason replacement) := by
  intro case changed data updated
  obtain ⟨rfl, rfl⟩ := Prod.mk.inj (guard_ok updated)
  refine ⟨rfl, ?_⟩
  simp [Snapshot.advance, snapshot, Payload.flag?, Payload.text?, Payload.record, Entries.ofList,
    Entries.get?_insert, Value.bool?, Value.string?, Value.record?]

theorem object_tells (reason : String) : Tells .objected (object reason) := by
  intro case changed data updated
  obtain ⟨rfl, rfl⟩ := Prod.mk.inj (guard_ok updated)
  refine ⟨rfl, ?_⟩
  simp [Snapshot.advance, snapshot, Payload.text?, Entries.ofList, Entries.get?, Entries.insert,
    Value.string?]

theorem determineObjection_tells (update : ObjectionStatus) :
    Tells .objectionStatusDetermined fun case => .ok (case.determineObjection update) := by
  intro case changed data updated
  obtain ⟨rfl, rfl⟩ := Prod.mk.inj (Except.ok.inj updated)
  refine ⟨rfl, ?_⟩
  simp only [Snapshot.advance, Payload.objectionStatus_fields]
  rfl

theorem determineAdmissibility_tells (admissible : Option Bool) :
    Tells .objectionAdmissibilityDetermined fun case =>
      .ok (case.determineAdmissibility admissible) := by
  intro case changed data updated
  obtain ⟨rfl, rfl⟩ := Prod.mk.inj (Except.ok.inj updated)
  refine ⟨rfl, ?_⟩
  simp only [Snapshot.advance, Payload.objectionStatus_fields]
  rfl

theorem determineAppeal_tells (update : AppealStatus) :
    Tells .appealStatusDetermined fun case => .ok (case.determineAppeal update) := by
  intro case changed data updated
  obtain ⟨rfl, rfl⟩ := Prod.mk.inj (Except.ok.inj updated)
  refine ⟨rfl, ?_⟩
  simp only [Snapshot.advance, Payload.appealStatus_fields]
  rfl

/-- A review tells, like the filing, that the claim belongs to the case. -/
theorem review_tells {status : ClaimStatus} {kind : EventKind}
    (reviewed : CaseStore.reviewEvent? status = some kind) (claim : Claim) :
    Tells kind fun case => .ok (case.attach claim.id, claim.eventData) := by
  intro case changed data updated
  obtain ⟨rfl, rfl⟩ := Prod.mk.inj (Except.ok.inj updated)
  refine ⟨identity_attach case claim.id, ?_⟩
  rw [snapshot_attach]
  cases status with
  | pending => cases reviewed
  | approved => cases reviewed; rfl
  | rejected => cases reviewed; rfl

/-- What a resubmission carries over from the case before. -/
structure Resumes (case before : Case) : Prop where
  identity : case.identity = before.identity
  objectionStatus : case.objectionStatus = before.objectionStatus
  appealStatus : case.appealStatus = before.appealStatus
  claimIds : case.claimIds = before.claimIds

theorem reset_resumes (submission : Submission) (verifiedResult : Record) (ruleId : String)
    (case : Case) : (case.reset submission verifiedResult ruleId).Resumes case :=
  ⟨rfl, rfl, rfl, rfl⟩

/-- Nobody has looked at the case yet. -/
structure Untouched (case : Case) : Prop where
  status : case.status = .submitted
  approved : case.approved = none
  reason : case.reason = none
  verifier : case.verifier = none

theorem ofSubmission_untouched (id : CaseId) (submission : Submission) (verifiedResult : Record)
    (ruleId : String) : (ofSubmission id submission verifiedResult ruleId).Untouched :=
  ⟨rfl, rfl, rfl, rfl⟩

theorem reset_untouched (submission : Submission) (verifiedResult : Record) (ruleId : String)
    (case : Case) : (case.reset submission verifiedResult ruleId).Untouched :=
  ⟨rfl, rfl, rfl, rfl⟩

/-- The decision of the system tells all that a resubmission changed. -/
theorem decideAutomatically_tells {case before changed : Case} {verifiedResult data : Record}
    {approved : Bool} (untouched : case.Untouched) (resumes : case.Resumes before)
    (decided : case.decideAutomatically verifiedResult approved = .ok (changed, data)) :
    changed.identity = before.identity ∧
      changed.snapshot = before.snapshot.advance .automaticallyDecided data := by
  obtain ⟨rfl, rfl⟩ := Prod.mk.inj (guard_ok decided)
  refine ⟨resumes.identity, ?_⟩
  simp [Snapshot.advance, snapshot, Payload.flag?, Payload.record, Entries.ofList,
    Entries.get?_insert, Value.bool?, Value.record?, untouched.reason, untouched.verifier,
    resumes.objectionStatus, resumes.appealStatus, resumes.claimIds]

/-- The system may decide a case that nobody has looked at. -/
theorem decideAutomatically_untouched {case : Case} (verifiedResult : Record) (approved : Bool)
    (untouched : case.Untouched) :
    ∃ changed data, case.decideAutomatically verifiedResult approved = .ok (changed, data) := by
  have passed : case.guard .decideAutomatically = .ok () := by
    simp [guard, untouched.status, Transition.sources]
  rw [decideAutomatically, passed]
  exact ⟨_, _, rfl⟩

/-- A case that nobody has looked at may be given to a person. -/
theorem selectForReview_untouched {case : Case} (verifier reason : String)
    (untouched : case.Untouched) :
    ∃ changed data, case.selectForReview verifier reason = .ok (changed, data) := by
  have passed : case.guard .review = .ok () := by
    simp [guard, untouched.status, Transition.sources]
  rw [selectForReview, passed]
  exact ⟨_, _, rfl⟩

/-- The choice of a person's review tells all that a resubmission changed. -/
theorem selectForReview_tells {case before changed : Case} {verifier reason : String} {data : Record}
    (untouched : case.Untouched) (resumes : case.Resumes before)
    (selected : case.selectForReview verifier reason = .ok (changed, data)) :
    changed.identity = before.identity ∧
      changed.snapshot = before.snapshot.advance .addedToManualReview data := by
  obtain ⟨rfl, rfl⟩ := Prod.mk.inj (guard_ok selected)
  refine ⟨resumes.identity, ?_⟩
  simp [Snapshot.advance, snapshot, Payload.text?, Payload.record, Entries.ofList,
    Entries.get?_insert, Value.string?, Value.record?, untouched.approved,
    resumes.objectionStatus, resumes.appealStatus, resumes.claimIds]

/-- The event of a new case tells all about it. -/
theorem submitted_tells (id : CaseId) (submission : Submission) (verifiedResult : Record)
    (ruleId : String) :
    Snapshot.opened (ofSubmission id submission verifiedResult ruleId).submittedData =
      (ofSubmission id submission verifiedResult ruleId).snapshot := by
  simp [Snapshot.opened, snapshot, ofSubmission, submittedData, Payload.record, Entries.ofList,
    Entries.get?_insert, Value.record?]

end Case

end Statute
