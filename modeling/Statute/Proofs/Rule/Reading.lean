/-
This file proves which documents are read as operations, conditions, groups and tests. A reader takes
the first member of a name, and the items of an array one by one.
-/

import Statute.Proofs.Document.Finite
import Statute.Rule.Requirement

namespace Statute

open Document (object array)

/-- A null stands for no expression. -/
def Expr.ofNullable (document : Document) : Option Expr :=
  if document.isNull then none else some (Expr.ofDocument document)

namespace Expr

@[simp]
theorem ofItems_eq_map (items : List Document) : ofItems items = items.map ofDocument := by
  induction items with
  | nil => rfl
  | cons item rest inductionHypothesis => rw [ofItems, inductionHypothesis, List.map_cons]

@[simp]
theorem ofNullables_eq_map (items : List Document) : ofNullables items = items.map ofNullable := by
  induction items with
  | nil => rfl
  | cons item rest inductionHypothesis =>
      rw [ofNullables, inductionHypothesis, List.map_cons]
      rfl

@[simp]
theorem ofMember?_eq_bind (name : String) (members : List (String × Document)) :
    ofMember? name members = (Entries.get? name members).bind ofNullable := by
  induction members with
  | nil => rfl
  | cons head rest inductionHypothesis =>
      obtain ⟨other, member⟩ := head
      rw [ofMember?, Entries.get?]
      split
      · rfl
      · exact inductionHypothesis

theorem ofDocument_array (items : List Document) :
    ofDocument (array items) = .list (items.map ofDocument) := by
  rw [ofDocument, ofItems_eq_map]

theorem ofDocument_object (members : List (String × Document)) :
    ofDocument (object members) =
      match Operation.ofMembers? members with
      | some node => .operation node
      | none => .literal (Value.ofDocument (object members)) := by
  rw [ofDocument]
  rfl

end Expr

namespace Condition

@[simp]
theorem ofItems?_eq_mapM (items : List Document) : ofItems? items = items.mapM ofDocument? := by
  induction items with
  | nil => rfl
  | cons item rest inductionHypothesis =>
      rw [ofItems?, inductionHypothesis, List.mapM_cons]
      cases ofDocument? item <;> cases rest.mapM ofDocument? <;> rfl

@[simp]
theorem ofMember?_eq (name : String) (members : List (String × Document)) :
    ofMember? name members =
      match Entries.get? name members with
      | none => some none
      | some member => ofNullable? member := by
  induction members with
  | nil => rfl
  | cons head rest inductionHypothesis =>
      obtain ⟨other, member⟩ := head
      rw [ofMember?, Entries.get?]
      split
      · rfl
      · exact inductionHypothesis

end Condition

namespace Document

/-- Nothing, a null or a text. -/
def IsTextOrNothing : Option Document → Prop
  | none => True
  | some null => True
  | some (string _) => True
  | some _ => False

/-- The parts of a condition are the members of an object, or at most three items of an array. -/
def IsCondition : Document → Prop
  | object _ => True
  | array items => items.length ≤ 3
  | _ => False

/-- Nothing, a null or an array of conditions. -/
def AreConditions : Option Document → Prop
  | none => True
  | some null => True
  | some (array items) => ∀ item ∈ items, item.IsCondition
  | some _ => False

theorem optional?_text?_isSome (member : Option Document) :
    (optional? text? member).isSome ↔ IsTextOrNothing member := by
  cases member with
  | none => simp [optional?, IsTextOrNothing]
  | some document => cases document <;> simp [optional?, text?, IsTextOrNothing]

end Document

/-- A condition that is an array holds its parts in order, so there may be fewer but not more. -/
theorem Condition.ofDocument?_isSome (document : Document) :
    (Condition.ofDocument? document).isSome ↔ document.IsCondition := by
  cases document with
  | array items =>
      rw [ofDocument?, Expr.ofNullables_eq_map, ofParts?, List.length_map]
      by_cases few : items.length ≤ 3 <;> simp [few, Document.IsCondition]
  | _ => simp [ofDocument?, Document.IsCondition]

theorem Condition.ofMember?_isSome (members : List (String × Document)) :
    (Condition.ofMember? "conditions" members).isSome ↔
      Document.AreConditions (Entries.get? "conditions" members) := by
  rw [ofMember?_eq]
  cases Entries.get? "conditions" members with
  | none => simp [Document.AreConditions]
  | some member =>
      cases member with
      | array items =>
          simp [ofNullable?, Document.AreConditions, Option.isSome_mapM, ofDocument?_isSome]
      | _ => simp [ofNullable?, Document.AreConditions]

/-- An operation is written with a name, and no part is malformed that has a form of its own. -/
structure Operation.IsWritten (members : List (String × Document)) : Prop where
  name : ∃ name, Entries.get? "operation" members = some (.string name)
  conditions : Document.AreConditions (Entries.get? "conditions" members)
  combine : Document.IsTextOrNothing (Entries.get? "combine" members)
  unit : Document.IsTextOrNothing (Entries.get? "unit" members)

namespace Operation

variable {members : List (String × Document)}

/-- The operation of well-formed members has the name that they give. -/
theorem ofMembers?_of_isWritten (written : IsWritten members) :
    ∃ node, ofMembers? members = some node ∧
      Entries.get? "operation" members = some (.string node.name) := by
  obtain ⟨name, named⟩ := written.name
  obtain ⟨branches, isBranches⟩ := Option.isSome_iff_exists.mp
    ((Condition.ofMember?_isSome members).mpr written.conditions)
  obtain ⟨combine, isCombine⟩ := Option.isSome_iff_exists.mp
    ((Document.optional?_text?_isSome _).mpr written.combine)
  obtain ⟨unit, isUnit⟩ := Option.isSome_iff_exists.mp
    ((Document.optional?_text?_isSome _).mpr written.unit)
  refine ⟨⟨name, Expr.ofMember? "subject" members, Expr.ofMember? "value" members,
    Expr.ofMember? "values" members, branches, combine, unit⟩, ?_, named⟩
  simp only [ofMembers?, assemble?, textMember?, named, isBranches, isCombine, isUnit]
  rfl

theorem isWritten_of_ofMembers? {node : Operation} (read : ofMembers? members = some node) :
    IsWritten members := by
  simp only [ofMembers?, assemble?, textMember?, Option.bind_eq_bind, Option.bind_eq_some_iff] at read
  obtain ⟨name, named, branches, isBranches, combine, isCombine, unit, isUnit, -⟩ := read
  refine ⟨⟨name, ?_⟩, (Condition.ofMember?_isSome members).mp (isBranches ▸ rfl),
    (Document.optional?_text?_isSome _).mp (isCombine ▸ rfl),
    (Document.optional?_text?_isSome _).mp (isUnit ▸ rfl)⟩
  obtain ⟨document, found, isText⟩ := Option.bind_eq_some_iff.mp named
  cases document <;> cases isText
  exact found

theorem ofMembers?_eq_none (malformed : ¬IsWritten members) : ofMembers? members = none := by
  cases read : ofMembers? members with
  | none => rfl
  | some node => exact absurd (isWritten_of_ofMembers? read) malformed

end Operation

namespace Requirement

@[simp]
theorem ofItems_eq_map (items : List Document) : ofItems items = items.map ofDocument := by
  induction items with
  | nil => rfl
  | cons item rest inductionHypothesis => rw [ofItems, inductionHypothesis, List.map_cons]

@[simp]
theorem ofMember?_eq_bind (name : String) (members : List (String × Document)) :
    ofMember? name members = (Entries.get? name members).bind ofArray? := by
  induction members with
  | nil => rfl
  | cons head rest inductionHypothesis =>
      obtain ⟨other, member⟩ := head
      rw [ofMember?, Entries.get?]
      split
      · rfl
      · exact inductionHypothesis

theorem ofDocument_object (members : List (String × Document)) :
    ofDocument (object members) =
      match (Entries.get? "all" members).bind ofArray?, (Entries.get? "or" members).bind ofArray? with
      | some requirements, _ => .all requirements
      | none, some requirements => .any requirements
      | none, none => .test (Expr.ofDocument (object members)) := by
  rewrite [ofDocument, ofMember?_eq_bind, ofMember?_eq_bind]
  rfl

variable {members : List (String × Document)}

/-- A group lists its members or alternatives. -/
def IsGroup (members : List (String × Document)) : Prop :=
  ∃ name ∈ ["all", "or"], ∃ items, Entries.get? name members = some (array items)

theorem ofArray?_eq_some_iff {member : Option Document} {requirements : List Requirement} :
    member.bind ofArray? = some requirements ↔
      ∃ items, member = some (array items) ∧ items.map ofDocument = requirements := by
  cases member with
  | none => simp
  | some document => cases document <;> simp [ofArray?]

theorem ofArray?_eq_none {member : Option Document} (noArray : ∀ items, member ≠ some (array items)) :
    member.bind ofArray? = none := by
  cases listed : member.bind ofArray? with
  | none => rfl
  | some requirements =>
      obtain ⟨items, isArray, -⟩ := ofArray?_eq_some_iff.mp listed
      exact absurd isArray (noArray items)

theorem ofDocument_all {items : List Document}
    (listed : Entries.get? "all" members = some (array items)) :
    ofDocument (object members) = .all (items.map ofDocument) := by
  rw [ofDocument_object, listed]
  simp [ofArray?]

theorem ofDocument_any {items : List Document}
    (noAll : ∀ items, Entries.get? "all" members ≠ some (array items))
    (listed : Entries.get? "or" members = some (array items)) :
    ofDocument (object members) = .any (items.map ofDocument) := by
  rw [ofDocument_object, ofArray?_eq_none noAll, listed]
  simp [ofArray?]

theorem ofDocument_test (noGroup : ¬IsGroup members) :
    ofDocument (object members) = .test (Expr.ofDocument (object members)) := by
  have noArray (name : String) (grouping : name ∈ ["all", "or"]) (items : List Document) :
      Entries.get? name members ≠ some (array items) := fun listed =>
    noGroup ⟨name, grouping, items, listed⟩
  rw [ofDocument_object, ofArray?_eq_none (noArray "all" (by decide)),
    ofArray?_eq_none (noArray "or" (by decide))]

end Requirement

end Statute
