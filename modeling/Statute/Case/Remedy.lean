/-
This file defines what rules determine about objections to decisions and appeals against them.
-/

import Statute.Document.Fields
import Statute.Value.Document

namespace Statute

/-- A period in weeks may be an integer, or a float without a fraction. -/
def periodField? (name : String) (fields : Record) : Option Int64 :=
  match Entries.get? name fields with
  | some (.int weeks) => some weeks
  | some (.float weeks) => if weeks.isWhole then some weeks.toInt64 else none
  | _ => none

def flagField? (name : String) (fields : Record) : Option Bool :=
  (Entries.get? name fields).bind Value.bool?

/-- An empty text tells nothing. -/
def textField? (name : String) (fields : Record) : Option String :=
  ((Entries.get? name fields).bind Value.string?).filter fun text => text != ""

/-- A document that writes a whole number of 64 bits. -/
def Document.int64? : Document → Option Int64
  | .integer value =>
      if Int64.minValue.toInt ≤ value ∧ value ≤ Int64.maxValue.toInt then some (Int64.ofInt value)
      else none
  | _ => none

/-- A field that is set, as part of a record. -/
def setField {α : Type} (name : String) (toValue : α → Value) : Option α → List (String × Value)
  | some value => [(name, toValue value)]
  | none => []

/-- Whether an objection is possible, and its periods in weeks. Only what a rule determined is set. -/
structure ObjectionStatus where
  possible : Option Bool
  notPossibleReason : Option String
  objectionPeriod : Option Int64
  decisionPeriod : Option Int64
  extensionPeriod : Option Int64
  admissible : Option Bool
  deriving DecidableEq, Repr

namespace ObjectionStatus

/-- Nothing has been determined. -/
def empty : ObjectionStatus := ⟨none, none, none, none, none, none⟩

instance : Inhabited ObjectionStatus := ⟨empty⟩

/-- The known fields of a record. A field of another type is not set. -/
def ofFields (fields : Record) : ObjectionStatus :=
  ⟨flagField? "possible" fields, textField? "not_possible_reason" fields,
    periodField? "objection_period" fields, periodField? "decision_period" fields,
    periodField? "extension_period" fields, flagField? "admissible" fields⟩

/-- The fields that are set. -/
def fields (status : ObjectionStatus) : Record :=
  Entries.ofList (setField "possible" .bool status.possible ++
    setField "not_possible_reason" .string status.notPossibleReason ++
    setField "objection_period" .int status.objectionPeriod ++
    setField "decision_period" .int status.decisionPeriod ++
    setField "extension_period" .int status.extensionPeriod ++
    setField "admissible" .bool status.admissible)

/-- The fields that an update sets take the place of those before. -/
def overlay (update status : ObjectionStatus) : ObjectionStatus :=
  ⟨update.possible <|> status.possible, update.notPossibleReason <|> status.notPossibleReason,
    update.objectionPeriod <|> status.objectionPeriod,
    update.decisionPeriod <|> status.decisionPeriod,
    update.extensionPeriod <|> status.extensionPeriod, update.admissible <|> status.admissible⟩

/-- Everything but the admissibility of an objection that was filed. -/
def withoutAdmissibility (status : ObjectionStatus) : ObjectionStatus :=
  { status with admissible := none }

/-- The admissibility of an objection alone. -/
def admissibility (admissible : Option Bool) : ObjectionStatus :=
  { empty with admissible }

def ofDocument? (document : Document) : Option ObjectionStatus := do
  let field ← Document.fields? ["possible", "not_possible_reason", "objection_period",
    "decision_period", "extension_period", "admissible"] document
  let possible ← Document.optional? Document.flag? (field "possible")
  let notPossibleReason ← Document.optional? Document.text? (field "not_possible_reason")
  let objectionPeriod ← Document.optional? Document.int64? (field "objection_period")
  let decisionPeriod ← Document.optional? Document.int64? (field "decision_period")
  let extensionPeriod ← Document.optional? Document.int64? (field "extension_period")
  let admissible ← Document.optional? Document.flag? (field "admissible")
  return ⟨possible, notPossibleReason, objectionPeriod, decisionPeriod, extensionPeriod, admissible⟩

def toDocument (status : ObjectionStatus) : Document :=
  (Value.record status.fields).toDocument

end ObjectionStatus

/-- Whether an appeal is possible, and to which court. Only what a rule determined is set. -/
structure AppealStatus where
  possible : Option Bool
  notPossibleReason : Option String
  appealPeriod : Option Int64
  directAppeal : Option Bool
  directAppealReason : Option String
  competentCourt : Option String
  courtType : Option String
  deriving DecidableEq, Repr

namespace AppealStatus

/-- Nothing has been determined. -/
def empty : AppealStatus := ⟨none, none, none, none, none, none, none⟩

instance : Inhabited AppealStatus := ⟨empty⟩

/-- The known fields of a record. A field of another type is not set. -/
def ofFields (fields : Record) : AppealStatus :=
  ⟨flagField? "possible" fields, textField? "not_possible_reason" fields,
    periodField? "appeal_period" fields, flagField? "direct_appeal" fields,
    textField? "direct_appeal_reason" fields, textField? "competent_court" fields,
    textField? "court_type" fields⟩

/-- The fields that are set. -/
def fields (status : AppealStatus) : Record :=
  Entries.ofList (setField "possible" .bool status.possible ++
    setField "not_possible_reason" .string status.notPossibleReason ++
    setField "appeal_period" .int status.appealPeriod ++
    setField "direct_appeal" .bool status.directAppeal ++
    setField "direct_appeal_reason" .string status.directAppealReason ++
    setField "competent_court" .string status.competentCourt ++
    setField "court_type" .string status.courtType)

/-- The fields that an update sets take the place of those before. -/
def overlay (update status : AppealStatus) : AppealStatus :=
  ⟨update.possible <|> status.possible, update.notPossibleReason <|> status.notPossibleReason,
    update.appealPeriod <|> status.appealPeriod, update.directAppeal <|> status.directAppeal,
    update.directAppealReason <|> status.directAppealReason,
    update.competentCourt <|> status.competentCourt, update.courtType <|> status.courtType⟩

def ofDocument? (document : Document) : Option AppealStatus := do
  let field ← Document.fields? ["possible", "not_possible_reason", "appeal_period", "direct_appeal",
    "direct_appeal_reason", "competent_court", "court_type"] document
  let possible ← Document.optional? Document.flag? (field "possible")
  let notPossibleReason ← Document.optional? Document.text? (field "not_possible_reason")
  let appealPeriod ← Document.optional? Document.int64? (field "appeal_period")
  let directAppeal ← Document.optional? Document.flag? (field "direct_appeal")
  let directAppealReason ← Document.optional? Document.text? (field "direct_appeal_reason")
  let competentCourt ← Document.optional? Document.text? (field "competent_court")
  let courtType ← Document.optional? Document.text? (field "court_type")
  return ⟨possible, notPossibleReason, appealPeriod, directAppeal, directAppealReason,
    competentCourt, courtType⟩

def toDocument (status : AppealStatus) : Document :=
  (Value.record status.fields).toDocument

end AppealStatus

end Statute
