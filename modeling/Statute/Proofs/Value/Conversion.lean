/-
This file proves that values and documents convert into each other without loss, but for floats that no
document can hold.
-/

import Statute.Proofs.Document.Finite
import Statute.Value.Format

namespace Statute

namespace Value

mutual

/-- The value with null in the place of each NaN and each infinity at any depth. -/
def finitePart : Value → Value
  | float value => if value.isFinite then float value else null
  | list items => list (finiteItems items)
  | record fields => record (finiteFields fields)
  | other => other

def finiteItems : List Value → List Value
  | [] => []
  | item :: rest => item.finitePart :: finiteItems rest

def finiteFields : List (String × Value) → List (String × Value)
  | [] => []
  | (name, value) :: rest => (name, value.finitePart) :: finiteFields rest

end

mutual

/-- The records at any depth hold their fields in the order of their names. -/
def IsOrdered : Value → Prop
  | list items => AreOrdered items
  | record fields => Entries.Sorted fields ∧ FieldsOrdered fields
  | _ => True

def AreOrdered : List Value → Prop
  | [] => True
  | item :: rest => item.IsOrdered ∧ AreOrdered rest

def FieldsOrdered : List (String × Value) → Prop
  | [] => True
  | (_, value) :: rest => value.IsOrdered ∧ FieldsOrdered rest

end

/-- An integer of 64 bits is read as an integer. -/
theorem ofInteger_toInt (value : Int64) : ofInteger value.toInt = int value := by
  have least : Int64.minValue.toInt ≤ value.toInt := Int64.minValue_le_toInt value
  have most : value.toInt ≤ Int64.maxValue.toInt := Int64.toInt_le value
  rw [ofInteger, if_pos ⟨least, most⟩, Int64.ofInt_toInt]

mutual

theorem reread_eq_finitePart : (value : Value) → value.reread = value.finitePart
  | null => rfl
  | bool _ => rfl
  | int value => ofInteger_toInt value
  | float value => by
      rw [reread, toDocument, finitePart]
      split <;> rfl
  | string _ => rfl
  | list items => by
      rw [reread, toDocument, ofDocument, finitePart, ofItems_toItems items]
  | record fields => by
      rw [reread, toDocument, ofDocument, finitePart, ofMembers_toMembers fields]

theorem ofItems_toItems : (items : List Value) → ofItems (toItems items) = finiteItems items
  | [] => rfl
  | item :: rest => by
      have first : ofDocument item.toDocument = item.finitePart := reread_eq_finitePart item
      rw [toItems, ofItems, finiteItems, first, ofItems_toItems rest]

theorem ofMembers_toMembers : (fields : List (String × Value)) →
    ofMembers (toMembers fields) = finiteFields fields
  | [] => rfl
  | (name, value) :: rest => by
      have first : ofDocument value.toDocument = value.finitePart := reread_eq_finitePart value
      rw [toMembers, ofMembers, finiteFields, first, ofMembers_toMembers rest]

end

theorem sorted_toMembers {fields : Record} (sorted : Entries.Sorted fields) :
    Entries.Sorted (toMembers fields) := by
  rw [toMembers_eq_mapValues]
  exact sorted.mapValues toDocument

mutual

/-- A value that is handed over to a document becomes the document that writes it. -/
theorem serialize_format : (value : Value) → value.IsOrdered →
    value.serialize Document.format = .ok value.toDocument
  | null, _ => rfl
  | bool _, _ => rfl
  | int _, _ => rfl
  | float _, _ => rfl
  | string _, _ => rfl
  | list items, ordered => by
      rw [serialize]
      change (serializeItems Document.format [] items >>= Document.format.closeList) = _
      rw [serializeItems_format items [] ordered]
      rfl
  | record fields, ordered => by
      have inOrder : Entries.merge [] (toMembers fields) = toMembers fields :=
        (sorted_toMembers ordered.1).ofList_eq
      rw [serialize]
      change (serializeFields Document.format [] fields >>= Document.format.closeRecord) = _
      rw [serializeFields_format fields [] ordered.2, inOrder]
      rfl

theorem serializeItems_format : (items : List Value) → (gathered : List Document) →
    AreOrdered items →
    serializeItems Document.format gathered items = .ok (gathered ++ toItems items)
  | [], gathered, _ => by
      rw [serializeItems, toItems, List.append_nil]
  | item :: rest, gathered, ordered => by
      have later := serializeItems_format rest (gathered ++ [item.toDocument]) ordered.2
      rw [serializeItems, serialize_format item ordered.1, toItems, ← List.singleton_append,
        ← List.append_assoc, ← later]
      rfl

theorem serializeFields_format : (fields : List (String × Value)) →
    (gathered : Entries Document) → FieldsOrdered fields →
    serializeFields Document.format gathered fields =
      .ok (Entries.merge gathered (toMembers fields))
  | [], _, _ => rfl
  | (name, value) :: rest, gathered, ordered => by
      have later := serializeFields_format rest (Entries.insert name value.toDocument gathered) ordered.2
      rw [serializeFields, serialize_format value ordered.1]
      exact later

end

end Value

namespace Document

mutual

/-- The integers at any depth have 64 bits with a sign, and the floats are finite. -/
def IsExact : Document → Prop
  | integer value => Int64.minValue.toInt ≤ value ∧ value ≤ Int64.maxValue.toInt
  | decimal value => value.isFinite = true
  | array items => AreExact items
  | object members => MembersExact members
  | _ => True

def AreExact : List Document → Prop
  | [] => True
  | item :: rest => item.IsExact ∧ AreExact rest

def MembersExact : List (String × Document) → Prop
  | [] => True
  | (_, member) :: rest => member.IsExact ∧ MembersExact rest

end

end Document

namespace Value

/-- An integer that does not fit in 64 bits is never written as an integer again. -/
theorem toDocument_ofInteger_iff (value : Int) :
    (ofInteger value).toDocument = .integer value ↔ (Document.integer value).IsExact := by
  refine ⟨fun same => ?_, toDocument_ofInteger⟩
  unfold ofInteger at same
  split at same
  case isTrue fits => exact fits
  case isFalse =>
    rw [toDocument] at same
    split at same <;> cases same

mutual

/-- The documents that come back from their values are those that values can hold. -/
theorem toDocument_ofDocument_iff : (document : Document) →
    ((ofDocument document).toDocument = document ↔ document.IsExact)
  | .null => iff_of_true rfl trivial
  | .bool _ => iff_of_true rfl trivial
  | .string _ => iff_of_true rfl trivial
  | .integer value => toDocument_ofInteger_iff value
  | .decimal value => by
      rw [ofDocument, toDocument, Document.IsExact]
      split
      case isTrue finite => exact iff_of_true rfl finite
      case isFalse infinite => exact iff_of_false nofun infinite
  | .array items => by
      rw [ofDocument, toDocument, Document.IsExact, Document.array.injEq]
      exact toItems_ofItems_iff items
  | .object members => by
      rw [ofDocument, toDocument, Document.IsExact, Document.object.injEq]
      exact toMembers_ofMembers_iff members

theorem toItems_ofItems_iff : (items : List Document) →
    (toItems (ofItems items) = items ↔ Document.AreExact items)
  | [] => iff_of_true rfl trivial
  | item :: rest => by
      rw [ofItems, toItems, Document.AreExact, List.cons.injEq, toDocument_ofDocument_iff item,
        toItems_ofItems_iff rest]

theorem toMembers_ofMembers_iff : (members : List (String × Document)) →
    (toMembers (ofMembers members) = members ↔ Document.MembersExact members)
  | [] => iff_of_true rfl trivial
  | (name, member) :: rest => by
      rw [ofMembers, toMembers, Document.MembersExact, List.cons.injEq, Prod.mk.injEq, eq_self,
        true_and, toDocument_ofDocument_iff member, toMembers_ofMembers_iff rest]

end

/-- A value comes back from its document with null for each NaN and infinity and with nothing else changed,
whether the document is built at once or part by part. A document comes back from its value exactly when
its integers have 64 bits and its floats are finite. -/
theorem conversion_isFaithful {value : Value} (ordered : value.IsOrdered) (document : Document) :
    value.reread = value.finitePart ∧
    ofSerializable value.serialize = .ok value.finitePart ∧
    ((ofDocument document).toDocument = document ↔ document.IsExact) := by
  have again : ofDocument value.toDocument = value.finitePart := reread_eq_finitePart value
  refine ⟨again, ?_, toDocument_ofDocument_iff document⟩
  rw [ofSerializable, serialize_format value ordered]
  exact congrArg Except.ok again

/-- Amounts of both kinds of numbers, with one that could not be computed, and a limit that is open. -/
def assessment : Value :=
  record [("amounts", list [int 1, float (Double.ofInt 1), float .nan]),
    ("limits", record [("least", int (-5)), ("most", float Double.infinity)])]

/-- The whole float stays a float, and null stands for what could not be computed and for the open limit. -/
theorem conversion_isFaithful_assessment :
    assessment.IsOrdered ∧
    ofSerializable assessment.serialize = .ok (record
      [("amounts", list [int 1, float (Double.ofInt 1), null]),
        ("limits", record [("least", int (-5)), ("most", null)])]) ∧
    (ofDocument (.array [.integer 1, .decimal (Double.ofInt 1)])).toDocument =
      .array [.integer 1, .decimal (Double.ofInt 1)] := by
  have ordered : assessment.IsOrdered := by
    simp only [assessment, IsOrdered, AreOrdered, FieldsOrdered, Entries.Sorted]
    decide
  have whole : (Double.ofInt 1).isFinite = true := Double.isFinite_ofInt (by decide)
  have unbounded : Double.infinity.isFinite = false := by decide +kernel
  have noNumber : Double.nan.isFinite = false := rfl
  have exact : (Document.array [.integer 1, .decimal (Double.ofInt 1)]).IsExact :=
    ⟨⟨by decide, by decide⟩, whole, trivial⟩
  obtain ⟨-, handedOver, settled⟩ :=
    conversion_isFaithful ordered (.array [.integer 1, .decimal (Double.ofInt 1)])
  refine ⟨ordered, ?_, settled.mpr exact⟩
  rw [handedOver]
  simp [assessment, finitePart, finiteItems, finiteFields, whole, unbounded, noNumber]

end Value

end Statute
