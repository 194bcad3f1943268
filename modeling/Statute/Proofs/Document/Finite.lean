/-
This file proves that values survive being written and read again, and that a document of finite numbers
keeps its shape.
-/

import Statute.Proofs.Collections
import Statute.Proofs.Double.Rounding
import Statute.Value.Document

namespace Statute

namespace Double

/-- An integer of at most 64 bits is far from the largest float. -/
theorem isFinite_ofInt {value : Int} (small : value.natAbs ≤ 2 ^ 64) :
    (ofInt value).isFinite = true := by
  have below : wholeRank value.natAbs < infinityRank := wholeRank_lt_infinity small
  rw [wholeRank] at below
  simp only [ofInt, ofRatio, ofUnits, ofRank, isFinite, bne_iff_ne, ne_eq]
  omega

end Double

namespace Document

/-- The numbers of a text: integers of 64 bits, with or without a sign, and finite floats. -/
def IsNumber : Document → Prop
  | integer value => Int64.minValue.toInt ≤ value ∧ value < UInt64.size
  | decimal value => value.isFinite = true
  | _ => True

mutual

/-- All numbers at any depth are those of texts. -/
def IsFinite : Document → Prop
  | array items => AllFinite items
  | object members => MembersFinite members
  | leaf => leaf.IsNumber

def AllFinite : List Document → Prop
  | [] => True
  | item :: rest => item.IsFinite ∧ AllFinite rest

def MembersFinite : List (String × Document) → Prop
  | [] => True
  | (_, member) :: rest => member.IsFinite ∧ MembersFinite rest

end

theorem sizeOf_item {items : List Document} {item : Document} (member : item ∈ items) :
    sizeOf item < sizeOf (array items) := by
  have smaller := List.sizeOf_lt_of_mem member
  rw [array.sizeOf_spec]
  omega

theorem sizeOf_member {members : List (String × Document)} {pair : String × Document}
    (member : pair ∈ members) : sizeOf pair.2 < sizeOf (object members) := by
  have smaller := List.sizeOf_lt_of_mem member
  obtain ⟨name, document⟩ := pair
  rw [Prod.mk.sizeOf_spec] at smaller
  rw [object.sizeOf_spec]
  dsimp only
  omega

theorem sizeOf_get? {members : List (String × Document)} {name : String} {member : Document}
    (found : Entries.get? name members = some member) :
    sizeOf member < sizeOf (object members) :=
  sizeOf_member (Entries.mem_of_get? found)

theorem allFinite_iff {items : List Document} :
    AllFinite items ↔ ∀ item ∈ items, item.IsFinite := by
  induction items with
  | nil => simp [AllFinite]
  | cons item rest inductionHypothesis => simp [AllFinite, inductionHypothesis]

theorem membersFinite_iff {members : List (String × Document)} :
    MembersFinite members ↔ ∀ pair ∈ members, pair.2.IsFinite := by
  induction members with
  | nil => simp [MembersFinite]
  | cons head rest inductionHypothesis => simp [MembersFinite, inductionHypothesis]

theorem IsFinite.item {items : List Document} {item : Document} (finite : (array items).IsFinite)
    (member : item ∈ items) : item.IsFinite :=
  allFinite_iff.mp (by simpa only [IsFinite] using finite) item member

theorem IsFinite.member {members : List (String × Document)} {pair : String × Document}
    (finite : (object members).IsFinite) (member : pair ∈ members) : pair.2.IsFinite :=
  membersFinite_iff.mp (by simpa only [IsFinite] using finite) pair member

theorem IsFinite.get? {members : List (String × Document)} {name : String} {member : Document}
    (finite : (object members).IsFinite) (found : Entries.get? name members = some member) :
    member.IsFinite :=
  finite.member (Entries.mem_of_get? found)

end Document

namespace Value

@[simp]
theorem ofItems_eq_map (items : List Document) : ofItems items = items.map ofDocument := by
  induction items with
  | nil => rfl
  | cons item rest inductionHypothesis => rw [ofItems, inductionHypothesis, List.map_cons]

@[simp]
theorem ofMembers_eq_mapValues (members : List (String × Document)) :
    ofMembers members = Entries.mapValues ofDocument members := by
  induction members with
  | nil => rfl
  | cons head rest inductionHypothesis =>
      obtain ⟨name, member⟩ := head
      rw [ofMembers, inductionHypothesis]
      rfl

@[simp]
theorem toItems_eq_map (items : List Value) : toItems items = items.map toDocument := by
  induction items with
  | nil => rfl
  | cons item rest inductionHypothesis => rw [toItems, inductionHypothesis, List.map_cons]

@[simp]
theorem toMembers_eq_mapValues (fields : Record) :
    toMembers fields = Entries.mapValues toDocument fields := by
  induction fields with
  | nil => rfl
  | cons head rest inductionHypothesis =>
      obtain ⟨name, value⟩ := head
      rw [toMembers, inductionHypothesis]
      rfl

/-- An integer that fits in 64 bits with a sign is written as it was. -/
theorem toDocument_ofInteger {value : Int} (fits : Int64.minValue.toInt ≤ value ∧
    value ≤ Int64.maxValue.toInt) : (ofInteger value).toDocument = .integer value := by
  rw [ofInteger, if_pos fits, toDocument, Int64.toInt_ofInt_of_le fits.1 (by
    have most : Int64.maxValue.toInt = 2 ^ 63 - 1 := rfl
    omega)]

/-- The float of an integer of a text is finite. -/
theorem isFinite_ofInteger {value : Int} (number : (Document.integer value).IsNumber) :
    (Double.ofInt value).isFinite = true := by
  refine Double.isFinite_ofInt ?_
  have least : Int64.minValue.toInt = -2 ^ 63 := rfl
  have most : (UInt64.size : Int) = 2 ^ 64 := rfl
  obtain ⟨above, below⟩ := number
  omega

theorem reread_ofInteger {value : Int} (number : (Document.integer value).IsNumber) :
    (ofInteger value).reread = ofInteger value := by
  by_cases small : Int64.minValue.toInt ≤ value ∧ value ≤ Int64.maxValue.toInt
  · rw [reread, toDocument_ofInteger small, ofDocument]
  · have finite := isFinite_ofInteger number
    rw [ofInteger, if_neg small, reread, toDocument, if_pos finite, ofDocument]

/-- A value that was read from finite numbers survives being written. -/
theorem reread_ofDocument : (document : Document) → document.IsFinite →
    (ofDocument document).reread = ofDocument document
  | .null, _ => rfl
  | .bool _, _ => rfl
  | .string _, _ => rfl
  | .integer value, finite => reread_ofInteger finite
  | .decimal value, finite => by
      have isFinite : value.isFinite = true := finite
      rw [ofDocument, reread, toDocument, if_pos isFinite, ofDocument]
  | .array items, finite => by
      have each (item : Document) (member : item ∈ items) :
          ofDocument (ofDocument item).toDocument = ofDocument item :=
        reread_ofDocument item (finite.item member)
      rw [ofDocument, reread, toDocument, ofDocument]
      simpa using each
  | .object members, finite => by
      have each (pair : String × Document) (member : pair ∈ members) :
          ofDocument (ofDocument pair.2).toDocument = ofDocument pair.2 :=
        reread_ofDocument pair.2 (finite.member member)
      rw [ofDocument, reread, toDocument, ofDocument]
      simpa [Entries.mapValues] using each
termination_by document => document
decreasing_by
  · exact Document.sizeOf_item member
  · exact Document.sizeOf_member member

end Value

end Statute
