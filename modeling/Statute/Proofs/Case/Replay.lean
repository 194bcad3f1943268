/-
This file says what the events of a case tell about it.
-/

import Statute.Case.Store
import Statute.Proofs.Collections

namespace Statute

/-- What the events of a case tell about it. Claims go by their texts, as events name them. -/
@[ext]
structure Snapshot where
  status : CaseStatus
  approved : Option Bool
  reason : Option String
  verifier : Option String
  verifiedResult : Record
  objectionStatus : ObjectionStatus
  appealStatus : AppealStatus
  claims : List String

/-- What events can tell about a case. -/
def Case.snapshot (case : Case) : Snapshot :=
  { status := case.status
    approved := case.approved
    reason := case.reason
    verifier := case.verifier
    verifiedResult := case.verifiedResult
    objectionStatus := case.objectionStatus
    appealStatus := case.appealStatus
    claims := case.claimIds.map ClaimId.text }

namespace Payload

/-- The record under a name in the data of an event. -/
def record (name : String) (data : Record) : Record :=
  ((Entries.get? name data).bind Value.record?).getD []

def text? (name : String) (data : Record) : Option String :=
  (Entries.get? name data).bind Value.string?

def flag? (name : String) (data : Record) : Option Bool :=
  (Entries.get? name data).bind Value.bool?

def weeks? (name : String) (data : Record) : Option Int64 :=
  (Entries.get? name data).bind Value.int?

/-- The fields about objection that the data of an event has. -/
def objectionStatus (data : Record) : ObjectionStatus :=
  ⟨flag? "possible" data, text? "not_possible_reason" data, weeks? "objection_period" data,
    weeks? "decision_period" data, weeks? "extension_period" data, flag? "admissible" data⟩

/-- The fields about appeal that the data of an event has. -/
def appealStatus (data : Record) : AppealStatus :=
  ⟨flag? "possible" data, text? "not_possible_reason" data, weeks? "appeal_period" data,
    flag? "direct_appeal" data, text? "direct_appeal_reason" data, text? "competent_court" data,
    text? "court_type" data⟩

end Payload

namespace Snapshot

/-- A case that was just submitted has its computed result and nothing else. -/
def opened (data : Record) : Snapshot :=
  ⟨.submitted, none, none, none, Payload.record "verified_result" data, .empty, .empty, []⟩

/-- The claim that an event names belongs to the case from then on. -/
def withClaim (data : Record) (snapshot : Snapshot) : Snapshot :=
  match Payload.text? "claim_id" data with
  | some claim =>
      if snapshot.claims.contains claim then snapshot
      else { snapshot with claims := snapshot.claims ++ [claim] }
  | none => snapshot

/-- What an event changes. A submission opens the case anew. -/
def advance (kind : EventKind) (data : Record) (snapshot : Snapshot) : Snapshot :=
  match kind with
  | .submitted => opened data
  | .automaticallyDecided =>
      { snapshot with
        status := .decided
        approved := Payload.flag? "approved" data
        reason := none
        verifier := none
        verifiedResult := Payload.record "verified_result" data }
  | .addedToManualReview =>
      { snapshot with
        status := .inReview
        approved := none
        reason := Payload.text? "reason" data
        verifier := Payload.text? "verifier_id" data
        verifiedResult := Payload.record "verified_result" data }
  | .decided =>
      { snapshot with
        status := .decided
        approved := Payload.flag? "approved" data
        reason := Payload.text? "reason" data
        verifier := Payload.text? "verifier_id" data
        verifiedResult := Payload.record "verified_result" data }
  | .objected =>
      { snapshot with
        status := .objected
        reason := Payload.text? "reason" data }
  | .objectionStatusDetermined | .objectionAdmissibilityDetermined =>
      { snapshot with
        objectionStatus := (Payload.objectionStatus data).overlay snapshot.objectionStatus }
  | .appealStatusDetermined =>
      { snapshot with
        appealStatus := (Payload.appealStatus data).overlay snapshot.appealStatus }
  | .claimCreated | .claimApproved | .claimRejected => snapshot.withClaim data

/-- Before its submission there is no case, and nothing else can happen to it. -/
def next : Option Snapshot → Event → Option Snapshot
  | some snapshot, event => some (snapshot.advance event.kind event.data)
  | none, event => if event.kind = .submitted then some (opened event.data) else none

/-- What a row of events tells. -/
def replay (events : List Event) : Option Snapshot :=
  events.foldl next none

theorem replay_append_singleton (events : List Event) (event : Event) :
    replay (events ++ [event]) = next (replay events) event := by
  simp [replay]

end Snapshot

namespace Entries

variable {α : Type}

/-- The first field of a record is set or absent. -/
theorem get?_ofList_setField (wanted name : String) (toValue : α → Value) (field : Option α) :
    get? wanted (ofList (setField name toValue field)) =
      if wanted = name then field.map toValue else none := by
  cases field with
  | none => simp [setField]
  | some value => simp [setField]

/-- A field that is set goes before those in front of it. -/
theorem get?_ofList_append_setField (wanted name : String) (toValue : α → Value) (field : Option α)
    (pairs : List (String × Value)) :
    get? wanted (ofList (pairs ++ setField name toValue field)) =
      if wanted = name then (field.map toValue).or (get? wanted (ofList pairs))
      else get? wanted (ofList pairs) := by
  rw [get?_ofList_append, get?_ofList_setField]
  split
  · rfl
  · exact Option.none_or

end Entries

/-- The data of an event about objection has exactly the fields that are set. -/
theorem Payload.objectionStatus_fields (status : ObjectionStatus) :
    Payload.objectionStatus status.fields = status := by
  obtain ⟨possible, reason, objection, decision, extension, admissible⟩ := status
  simp only [Payload.objectionStatus, Payload.flag?, Payload.text?, Payload.weeks?,
    ObjectionStatus.fields, Entries.get?_ofList_append_setField, Entries.get?_ofList_setField]
  simp only [String.reduceEq, if_true, if_false, Option.or_none, ObjectionStatus.mk.injEq]
  refine ⟨?_, ?_, ?_, ?_, ?_, ?_⟩
  · cases possible <;> rfl
  · cases reason <;> rfl
  · cases objection <;> rfl
  · cases decision <;> rfl
  · cases extension <;> rfl
  · cases admissible <;> rfl

/-- The data of an event about appeal has exactly the fields that are set. -/
theorem Payload.appealStatus_fields (status : AppealStatus) :
    Payload.appealStatus status.fields = status := by
  obtain ⟨possible, reason, period, direct, directReason, court, courtType⟩ := status
  simp only [Payload.appealStatus, Payload.flag?, Payload.text?, Payload.weeks?,
    AppealStatus.fields, Entries.get?_ofList_append_setField, Entries.get?_ofList_setField]
  simp only [String.reduceEq, if_true, if_false, Option.or_none, AppealStatus.mk.injEq]
  refine ⟨?_, ?_, ?_, ?_, ?_, ?_, ?_⟩
  · cases possible <;> rfl
  · cases reason <;> rfl
  · cases period <;> rfl
  · cases direct <;> rfl
  · cases directReason <;> rfl
  · cases court <;> rfl
  · cases courtType <;> rfl

end Statute
