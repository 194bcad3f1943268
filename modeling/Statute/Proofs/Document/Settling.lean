/-
This file proves that a document of finite numbers keeps its shape where its value is written.
-/

import Statute.Proofs.Document.Finite

namespace Statute

namespace Document

/-- The document that writes the value of a document. -/
def settled (document : Document) : Document :=
  (Value.ofDocument document).toDocument

@[simp]
theorem settled_array (items : List Document) : settled (array items) = array (items.map settled) := by
  rw [settled, Value.ofDocument, Value.toDocument, Value.ofItems_eq_map, Value.toItems_eq_map,
    List.map_map]
  rfl

@[simp]
theorem settled_object (members : List (String × Document)) :
    settled (object members) = object (Entries.mapValues settled members) := by
  rw [settled, Value.ofDocument, Value.toDocument, Value.ofMembers_eq_mapValues,
    Value.toMembers_eq_mapValues, Entries.mapValues, Entries.mapValues, List.map_map]
  rfl

theorem settled_decimal {value : Double} (finite : (decimal value).IsFinite) :
    settled (decimal value) = decimal value := by
  have isFinite : value.isFinite = true := finite
  rw [settled, Value.ofDocument, Value.toDocument, if_pos isFinite]

/-- An integer is written as an integer, or as a float when it does not fit. -/
theorem settled_integer {value : Int} (finite : (integer value).IsFinite) :
    settled (integer value) = integer value ∨
      settled (integer value) = decimal (Double.ofInt value) := by
  rw [settled, Value.ofDocument]
  by_cases fits : Int64.minValue.toInt ≤ value ∧ value ≤ Int64.maxValue.toInt
  · exact .inl (Value.toDocument_ofInteger fits)
  · rw [Value.ofInteger, if_neg fits, Value.toDocument,
      if_pos (Value.isFinite_ofInteger finite)]
    exact .inr rfl

/-- How a document looks after its value was written: numbers stay numbers, arrays and objects keep
their places, and everything else is the same. -/
inductive Settles : Document → Document → Prop
  | null : Settles null null
  | bool (value : Bool) : Settles (bool value) (bool value)
  | string (value : String) : Settles (string value) (string value)
  | integer (value : Int) : Settles (integer value) (integer value)
  | rounded (value : Int) : Settles (.integer value) (.decimal (Double.ofInt value))
  | decimal (value : Double) : Settles (decimal value) (decimal value)
  | array (items : List Document) : Settles (array items) (array (items.map settled))
  | object (members : List (String × Document)) :
      Settles (object members) (object (Entries.mapValues settled members))

theorem IsFinite.settles {document : Document} (finite : document.IsFinite) :
    Settles document document.settled := by
  cases document with
  | null => exact .null
  | bool value => exact .bool value
  | string value => exact .string value
  | integer value =>
      rcases settled_integer finite with same | isRounded
      · rw [same]
        exact .integer value
      · rw [isRounded]
        exact .rounded value
  | decimal value =>
      rw [settled_decimal finite]
      exact .decimal value
  | array items =>
      rw [settled_array]
      exact .array items
  | object members =>
      rw [settled_object]
      exact .object members

namespace Settles

variable {first second : Document}

theorem isNull_eq (settles : Settles first second) : second.isNull = first.isNull := by
  cases settles <;> rfl

theorem eq_string {text : String} (settles : Settles first second)
    (isText : second = .string text) : first = .string text := by
  cases settles <;> cases isText
  rfl

theorem eq_array {items : List Document} (settles : Settles first second)
    (isArray : second = .array items) : ∃ others, first = .array others := by
  cases settles <;> cases isArray
  exact ⟨_, rfl⟩

theorem eq_object {members : List (String × Document)} (settles : Settles first second)
    (isObject : second = .object members) : ∃ others, first = .object others := by
  cases settles <;> cases isObject
  exact ⟨_, rfl⟩

end Settles

/-- What is written has finite numbers again. -/
theorem isFinite_settled : (document : Document) → document.IsFinite → document.settled.IsFinite
  | null, _ => trivial
  | bool _, _ => trivial
  | string _, _ => trivial
  | integer value, finite => by
      rcases settled_integer finite with same | isRounded
      · rw [same]
        exact finite
      · rw [isRounded]
        exact Value.isFinite_ofInteger finite
  | decimal value, finite => by
      rw [settled_decimal finite]
      exact finite
  | array items, finite => by
      have each (item : Document) (member : item ∈ items) : item.settled.IsFinite :=
        isFinite_settled item (finite.item member)
      rw [settled_array, IsFinite, allFinite_iff]
      simpa using each
  | object members, finite => by
      have each (pair : String × Document) (member : pair ∈ members) : pair.2.settled.IsFinite :=
        isFinite_settled pair.2 (finite.member member)
      rw [settled_object, IsFinite, membersFinite_iff]
      intro pair isPair
      obtain ⟨other, member, rfl⟩ := List.mem_map.mp isPair
      exact each other member
termination_by document => document
decreasing_by
  · exact sizeOf_item member
  · exact sizeOf_member member

end Document

end Statute
