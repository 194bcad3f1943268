/-
This file proves that expressions, requirements and actions survive being written and read again. The
written form of each falls into the same variant, because a document of finite numbers keeps its shape.
-/

import Statute.Proofs.Document.Roundtrip
import Statute.Proofs.Document.Settling
import Statute.Proofs.Rule.Reading
import Statute.Rule.Action

namespace Statute

open Document (object array)

namespace Document

namespace Settles

variable {first second : Document}

theorem isTextOrNothing (settles : Settles first second) (isText : IsTextOrNothing (some second)) :
    IsTextOrNothing (some first) := by
  cases settles <;> exact isText

theorem isCondition (settles : Settles first second) (isCondition : second.IsCondition) :
    first.IsCondition := by
  cases settles with
  | array items => simpa only [IsCondition, List.length_map] using isCondition
  | rounded value => cases isCondition
  | _ => exact isCondition

end Settles

theorem areConditions_of_settled {member : Option Document} (finite : IsFiniteMember member)
    (conditions : AreConditions (member.map settled)) : AreConditions member := by
  cases member with
  | none => trivial
  | some document =>
      have isFinite := finite document rfl
      have settles := isFinite.settles
      rw [Option.map_some] at conditions
      generalize document.settled = second at settles conditions
      cases settles with
      | array items =>
          intro item member
          have itemFinite := isFinite.item member
          exact itemFinite.settles.isCondition (conditions _ (List.mem_map_of_mem member))
      | rounded value => cases conditions
      | _ => exact conditions

theorem isTextOrNothing_of_settled {member : Option Document} (finite : IsFiniteMember member)
    (isText : IsTextOrNothing (member.map settled)) : IsTextOrNothing member := by
  cases member with
  | none => trivial
  | some document => exact (finite document rfl).settles.isTextOrNothing isText

end Document

/-- Writing a record makes no operation of it. -/
theorem Operation.isWritten_of_settled {members : List (String × Document)}
    (finite : (object members).IsFinite)
    (written : IsWritten (Entries.mapValues Document.settled members)) : IsWritten members := by
  obtain ⟨⟨name, named⟩, conditions, combine, unit⟩ := written
  rw [Entries.get?_mapValues] at named conditions combine unit
  obtain ⟨document, found, isText⟩ := Option.map_eq_some_iff.mp named
  have isName := (finite.get? found).settles.eq_string isText
  exact ⟨⟨name, isName ▸ found⟩,
    Document.areConditions_of_settled (finite.isFiniteMember _) conditions,
    Document.isTextOrNothing_of_settled (finite.isFiniteMember _) combine,
    Document.isTextOrNothing_of_settled (finite.isFiniteMember _) unit⟩

/-- Nor does it make a group of it. -/
theorem Requirement.isGroup_of_settled {members : List (String × Document)}
    (finite : (object members).IsFinite)
    (group : IsGroup (Entries.mapValues Document.settled members)) : IsGroup members := by
  obtain ⟨name, grouping, items, listed⟩ := group
  rw [Entries.get?_mapValues] at listed
  obtain ⟨document, found, isArray⟩ := Option.map_eq_some_iff.mp listed
  obtain ⟨others, rfl⟩ := (finite.get? found).settles.eq_array isArray
  exact ⟨name, grouping, others, found⟩

namespace Expr

@[simp]
theorem toItems_eq_map (items : List Expr) : toItems items = items.map toDocument := by
  induction items with
  | nil => rfl
  | cons item rest inductionHypothesis => rw [toItems, inductionHypothesis, List.map_cons]

@[simp]
theorem toOptional_eq_map (part : Option Expr) : toOptional part = part.map toDocument := by
  cases part <;> rfl

/-- The documents that are neither arrays nor objects are literals. -/
theorem ofDocument_leaf {document : Document} (noArray : ∀ items, document ≠ array items)
    (noObject : ∀ members, document ≠ object members) :
    ofDocument document = .literal (Value.ofDocument document) := by
  cases document with
  | array items => exact absurd rfl (noArray items)
  | object members => exact absurd rfl (noObject members)
  | _ => rfl

/-- An expression that was read from a document is written with finite numbers and read again there. -/
structure IsStable (document : Document) : Prop where
  finite : (ofDocument document).toDocument.IsFinite
  again : ofDocument (ofDocument document).toDocument = ofDocument document

theorem isStable_leaf {document : Document} (finite : document.IsFinite)
    (noArray : ∀ items, document ≠ array items) (noObject : ∀ members, document ≠ object members) :
    IsStable document := by
  have same : Value.ofDocument document.settled = Value.ofDocument document :=
    Value.reread_ofDocument document finite
  have settledLeaf := @ofDocument_leaf document.settled
    (fun items isArray =>
      have ⟨others, isOther⟩ := finite.settles.eq_array isArray
      noArray others isOther)
    (fun members isObject =>
      have ⟨others, isOther⟩ := finite.settles.eq_object isObject
      noObject others isOther)
  constructor
  · rw [ofDocument_leaf noArray noObject]
    exact Document.isFinite_settled document finite
  · rw [ofDocument_leaf noArray noObject, toDocument, ← Document.settled, settledLeaf, same]

/-- A part that is there is read again where it is written, and a part that is not is left out. -/
structure IsKept (part : Option Expr) : Prop where
  finite : Document.IsFiniteMember (part.map toDocument)
  again : (part.map toDocument).bind ofNullable = part

theorem IsKept.none : IsKept none :=
  ⟨nofun, rfl⟩

theorem isNull_toDocument {document : Document} (finite : document.IsFinite) :
    (ofDocument document).toDocument.isNull = document.isNull := by
  cases document with
  | array items =>
      rw [ofDocument_array, toDocument]
      rfl
  | object members =>
      rw [ofDocument_object]
      cases Operation.ofMembers? members with
      | some node => rfl
      | none => exact finite.settles.isNull_eq
  | _ => exact finite.settles.isNull_eq

theorem isKept_ofNullable {document : Document} (finite : document.IsFinite)
    (stable : IsStable document) : IsKept (ofNullable document) := by
  have same := isNull_toDocument finite
  unfold ofNullable
  cases isNull : document.isNull with
  | true => exact .none
  | false =>
      rw [isNull] at same
      constructor
      · intro written isWritten
        cases isWritten
        exact stable.finite
      · simp [ofNullable, same, stable.again]

/-- What a member gives is kept when everything inside the object is. -/
theorem isKept_member {members : List (String × Document)} (finite : (object members).IsFinite)
    (stable : ∀ part, sizeOf part < sizeOf (object members) → part.IsFinite → IsStable part)
    (name : String) : IsKept ((Entries.get? name members).bind ofNullable) := by
  cases found : Entries.get? name members with
  | none => exact .none
  | some part =>
      have partFinite := finite.get? found
      have smaller := Document.sizeOf_get? found
      exact isKept_ofNullable partFinite (stable part smaller partFinite)

end Expr

namespace Condition

@[simp]
theorem toItems_eq_map (conditions : List Condition) :
    toItems conditions = conditions.map toDocument := by
  induction conditions with
  | nil => rfl
  | cons condition rest inductionHypothesis => rw [toItems, inductionHypothesis, List.map_cons]

@[simp]
theorem toOptional_eq_map (conditions : Option (List Condition)) :
    toOptional conditions = conditions.map fun conditions => array (conditions.map toDocument) := by
  cases conditions with
  | none => rfl
  | some conditions => rw [toOptional, toItems_eq_map, Option.map_some]

/-- A condition that is written with finite numbers and read again. -/
def IsKept (condition : Condition) : Prop :=
  condition.toDocument.IsFinite ∧ ofDocument? condition.toDocument = some condition

theorem isKept_of_parts {condition : Condition} (test : Expr.IsKept condition.test)
    (result : Expr.IsKept condition.result) (otherwise : Expr.IsKept condition.otherwise) :
    condition.IsKept := by
  obtain ⟨first, second, third⟩ := condition
  dsimp only at test result otherwise
  rw [IsKept, toDocument]
  constructor
  · apply Document.MembersFinite.ofMembers
    simp [test.finite, result.finite, otherwise.finite]
  · rw [Document.ofMembers, ofDocument?]
    simp [test.again, result.again, otherwise.again]

/-- Both forms of a condition are written as an object. -/
theorem isKept {document : Document} {condition : Condition} (finite : document.IsFinite)
    (stable : ∀ part, sizeOf part < sizeOf document → part.IsFinite → Expr.IsStable part)
    (isRead : ofDocument? document = some condition) : condition.IsKept := by
  cases document with
  | object members =>
      simp only [ofDocument?, Expr.ofMember?_eq_bind, Option.some.injEq] at isRead
      cases isRead
      exact isKept_of_parts (Expr.isKept_member finite stable _)
        (Expr.isKept_member finite stable _) (Expr.isKept_member finite stable _)
  | array items =>
      have kept (index : Nat) : Expr.IsKept (items.map Expr.ofNullable)[index]?.join := by
        rw [List.getElem?_map]
        cases found : items[index]? with
        | none => exact .none
        | some part =>
            have member := List.mem_of_getElem? found
            have partFinite := finite.item member
            exact Expr.isKept_ofNullable partFinite
              (stable part (Document.sizeOf_item member) partFinite)
      rw [ofDocument?, Expr.ofNullables_eq_map, ofParts?] at isRead
      split at isRead
      · cases isRead
        exact isKept_of_parts (kept 0) (kept 1) (kept 2)
      · cases isRead
  | _ => cases isRead

end Condition

namespace Operation

variable {members : List (String × Document)} {node : Operation}

/-- The operation of an object depends on the members of these names only. -/
theorem ofMembers?_congr {others : List (String × Document)}
    (same : ∀ name ∈ ["operation", "subject", "value", "values", "conditions", "combine", "unit"],
      Entries.get? name others = Entries.get? name members) :
    ofMembers? others = ofMembers? members := by
  simp only [List.forall_mem_cons] at same
  obtain ⟨name, subject, value, values, conditions, combine, unit, -⟩ := same
  simp only [ofMembers?, assemble?, textMember?, Expr.ofMember?_eq_bind, Condition.ofMember?_eq, name,
    subject, value, values, conditions, combine, unit]

/-- What an operation that was read has for each of its members. -/
structure IsReadFrom (node : Operation) (members : List (String × Document)) : Prop where
  name : Entries.get? "operation" members = some (.string node.name)
  subject : node.subject = (Entries.get? "subject" members).bind Expr.ofNullable
  value : node.value = (Entries.get? "value" members).bind Expr.ofNullable
  values : node.values = (Entries.get? "values" members).bind Expr.ofNullable
  conditions : Condition.ofMember? "conditions" members = some node.conditions

theorem isReadFrom_of_ofMembers? (isRead : ofMembers? members = some node) :
    node.IsReadFrom members := by
  have written := isWritten_of_ofMembers? isRead
  obtain ⟨_, isNode, named⟩ := ofMembers?_of_isWritten written
  rw [isRead] at isNode
  cases isNode
  simp only [ofMembers?, assemble?, Expr.ofMember?_eq_bind, Option.bind_eq_bind,
    Option.bind_eq_some_iff, Option.pure_def, Option.some.injEq] at isRead
  obtain ⟨_, -, branches, isBranches, _, -, _, -, rfl⟩ := isRead
  exact ⟨named, rfl, rfl, rfl, isBranches⟩

theorem get?_toMembers (wanted : String) (node : Operation) :
    Entries.get? wanted node.toMembers =
      if wanted = "operation" then some (.string node.name)
      else if wanted = "subject" then node.subject.map Expr.toDocument
      else if wanted = "value" then node.value.map Expr.toDocument
      else if wanted = "values" then node.values.map Expr.toDocument
      else if wanted = "conditions" then
        node.conditions.map fun conditions => array (conditions.map Condition.toDocument)
      else if wanted = "combine" then node.combine.map .string
      else if wanted = "unit" then node.unit.map .string
      else none := by
  obtain ⟨name, subject, value, values, conditions, combine, unit⟩ := node
  rw [toMembers, membersOf]
  simp only [Expr.toOptional_eq_map, Condition.toOptional_eq_map, Entries.get?_ofList_append,
    Entries.get?_ofList_cons, Document.get?_ofList_optionalMember]
  by_cases isName : wanted = "operation"
  · simp [isName]
  by_cases isSubject : wanted = "subject"
  · simp [isSubject]
  by_cases isValue : wanted = "value"
  · simp [isValue]
  by_cases areValues : wanted = "values"
  · simp [areValues]
  by_cases areConditions : wanted = "conditions"
  · simp [areConditions]
  by_cases isCombine : wanted = "combine"
  · simp [isCombine]
  simp [isName, isSubject, isValue, areValues, areConditions, isCombine]

theorem sorted_toMembers (node : Operation) : Entries.Sorted node.toMembers := by
  obtain ⟨name, subject, value, values, conditions, combine, unit⟩ := node
  exact Entries.sorted_ofList _

/-- An operation that is written with finite numbers and read again. -/
def IsKept (node : Operation) : Prop :=
  (object node.toMembers).IsFinite ∧ ofMembers? node.toMembers = some node

/-- An operation is kept when its parts are. -/
theorem isKept_of_parts (subject : Expr.IsKept node.subject) (value : Expr.IsKept node.value)
    (values : Expr.IsKept node.values)
    (conditions : ∀ branches, node.conditions = some branches →
      ∀ branch ∈ branches, branch.IsKept) : node.IsKept := by
  have text (part : Option String) :
      Document.WritesFinite .string part ∧
        Document.optional? Document.text? (part.map .string) = some part := by
    cases part with
    | none => exact ⟨nofun, rfl⟩
    | some text => exact ⟨fun _ written => Option.some.inj written ▸ trivial, rfl⟩
  have branchesFinite : Document.IsFiniteMember (node.conditions.map fun conditions =>
      array (conditions.map Condition.toDocument)) := by
    intro document isDocument
    obtain ⟨branches, present, rfl⟩ := Option.map_eq_some_iff.mp isDocument
    rw [Document.IsFinite, Document.allFinite_iff, List.forall_mem_map]
    exact fun branch member => (conditions branches present branch member).1
  have branchesAgain : Condition.ofMember? "conditions" node.toMembers = some node.conditions := by
    rw [Condition.ofMember?_eq, get?_toMembers]
    cases present : node.conditions with
    | none => rfl
    | some branches =>
        have again := Option.mapM_map fun branch member =>
          (conditions branches present branch member).2
        simp [Condition.ofNullable?, again]
  obtain ⟨name, first, second, third, fourth, combine, unit⟩ := node
  dsimp only at subject value values branchesFinite
  constructor
  · rw [toMembers, membersOf, Expr.toOptional_eq_map, Expr.toOptional_eq_map, Expr.toOptional_eq_map,
      Condition.toOptional_eq_map]
    apply Document.MembersFinite.ofMembers
    simp [text, subject.finite, value.finite, values.finite, branchesFinite]
  · simp only [ofMembers?, assemble?, textMember?, branchesAgain, Expr.ofMember?_eq_bind]
    simp [get?_toMembers, Document.required?, Document.text?, text, subject.again, value.again,
      values.again]

/-- An operation is kept when everything inside the object that it was read from is. -/
theorem isKept (finite : (object members).IsFinite)
    (stable : ∀ part, sizeOf part < sizeOf (object members) → part.IsFinite → Expr.IsStable part)
    (isRead : ofMembers? members = some node) : node.IsKept := by
  have read := isReadFrom_of_ofMembers? isRead
  refine isKept_of_parts (read.subject ▸ Expr.isKept_member finite stable _)
    (read.value ▸ Expr.isKept_member finite stable _)
    (read.values ▸ Expr.isKept_member finite stable _) ?_
  intro branches present branch member
  have conditions := read.conditions
  rw [Condition.ofMember?_eq, present] at conditions
  cases found : Entries.get? "conditions" members with
  | none =>
      rw [found] at conditions
      cases conditions
  | some document =>
      have documentFinite := finite.get? found
      have smaller := Document.sizeOf_get? found
      rw [found] at conditions
      cases document with
      | array items =>
          simp only [Condition.ofNullable?, Condition.ofItems?_eq_mapM, Option.map_eq_some_iff,
            Option.some.injEq, exists_eq_right] at conditions
          obtain ⟨item, isItem, isBranch⟩ := Option.mem_of_mapM conditions member
          have inside := Document.sizeOf_item isItem
          exact Condition.isKept (documentFinite.item isItem)
            (fun part below => stable part (by omega)) isBranch
      | _ => cases conditions

/-- A written operation is no group. -/
theorem not_isGroup_toMembers (node : Operation) : ¬Requirement.IsGroup node.toMembers := by
  rintro ⟨name, grouping, items, listed⟩
  rw [get?_toMembers] at listed
  simp only [List.mem_cons, List.not_mem_nil, or_false] at grouping
  rcases grouping with rfl | rfl <;> simp at listed

end Operation

/-- A literal record that was read is neither an operation nor anything else where it is written. -/
theorem Expr.isStable_record {members : List (String × Document)} (finite : (object members).IsFinite)
    (noOperation : Operation.ofMembers? members = none) : IsStable (object members) := by
  have literal : ofDocument (object members) = .literal (Value.ofDocument (object members)) := by
    rw [ofDocument_object, noOperation]
  have unwritten : ¬Operation.IsWritten (Entries.mapValues Document.settled members) := by
    intro written
    obtain ⟨node, isNode, -⟩ := Operation.ofMembers?_of_isWritten
      (Operation.isWritten_of_settled finite written)
    rw [noOperation] at isNode
    cases isNode
  have same : Value.ofDocument (object members).settled = Value.ofDocument (object members) :=
    Value.reread_ofDocument (object members) finite
  constructor
  · rw [literal]
    exact Document.isFinite_settled _ finite
  · rw [literal, toDocument, ← Document.settled]
    rw [Document.settled_object] at same ⊢
    rw [ofDocument_object, Operation.ofMembers?_eq_none unwritten, same]

/-- An expression that was read is read again where it is written. -/
theorem Expr.isStable : (document : Document) → document.IsFinite → IsStable document
  | array items, finite => by
      have each (item : Document) (member : item ∈ items) : IsStable item :=
        isStable item (finite.item member)
      constructor
      · rw [ofDocument_array, toDocument, toItems_eq_map, Document.IsFinite, Document.allFinite_iff,
          List.map_map, List.forall_mem_map]
        exact fun item member => (each item member).finite
      · rw [ofDocument_array, toDocument, toItems_eq_map, ofDocument_array]
        simpa using fun item member => (each item member).again
  | object members, finite => by
      cases isRead : Operation.ofMembers? members with
      | none => exact isStable_record finite isRead
      | some node =>
          -- Parts and branches of the operation are inside the object, though not all are its members.
          obtain ⟨nodeFinite, again⟩ := Operation.isKept finite (fun part below => isStable part) isRead
          have operation : ofDocument (object members) = .operation node := by
            rw [ofDocument_object, isRead]
          constructor
          · rw [operation]
            exact nodeFinite
          · rw [operation, toDocument, ofDocument_object, again]
  | .null, finite => isStable_leaf finite nofun nofun
  | .bool _, finite => isStable_leaf finite nofun nofun
  | .integer _, finite => isStable_leaf finite nofun nofun
  | .decimal _, finite => isStable_leaf finite nofun nofun
  | .string _, finite => isStable_leaf finite nofun nofun
termination_by document => document
decreasing_by
  · exact Document.sizeOf_item member
  · exact below

namespace Requirement

@[simp]
theorem toItems_eq_map (members : List Requirement) : toItems members = members.map toDocument := by
  induction members with
  | nil => rfl
  | cons member rest inductionHypothesis => rw [toItems, inductionHypothesis, List.map_cons]

theorem ofDocument_noObject {document : Document} (noObject : ∀ members, document ≠ object members) :
    ofDocument document = .test (Expr.ofDocument document) := by
  rw [ofDocument]
  exact noObject

/-- A test is written as something else than a group. -/
theorem ofDocument_toDocument_test {document : Document} (finite : document.IsFinite)
    (noGroup : ∀ members, document = object members → ¬IsGroup members) :
    ofDocument (Expr.ofDocument document).toDocument =
      .test (Expr.ofDocument (Expr.ofDocument document).toDocument) := by
  cases document with
  | array items =>
      rw [Expr.ofDocument_array, Expr.toDocument]
      exact ofDocument_noObject nofun
  | object members =>
      rw [Expr.ofDocument_object]
      cases Operation.ofMembers? members with
      | some node =>
          rw [Expr.toDocument]
          exact ofDocument_test (Operation.not_isGroup_toMembers node)
      | none =>
          rw [Expr.toDocument, ← Document.settled, Document.settled_object]
          exact ofDocument_test fun group => noGroup members rfl (isGroup_of_settled finite group)
  | _ =>
      refine ofDocument_noObject fun members isObject => ?_
      obtain ⟨others, ⟨⟩⟩ := finite.settles.eq_object isObject

/-- A requirement that was read from a document is written with finite numbers and read again there. -/
structure IsStable (document : Document) : Prop where
  finite : (ofDocument document).toDocument.IsFinite
  again : ofDocument (ofDocument document).toDocument = ofDocument document

theorem isStable_test {document : Document} (finite : document.IsFinite)
    (isTest : ofDocument document = .test (Expr.ofDocument document))
    (noGroup : ∀ members, document = object members → ¬IsGroup members) : IsStable document := by
  have stable := Expr.isStable document finite
  constructor
  · rw [isTest]
    exact stable.finite
  · rw [isTest, toDocument, ofDocument_toDocument_test finite noGroup, stable.again]

/-- The members of a group are written with finite numbers and read again. -/
theorem items_of_isStable {items : List Document} (each : ∀ item ∈ items, IsStable item) :
    (array (toItems (items.map ofDocument))).IsFinite ∧
      (toItems (items.map ofDocument)).map ofDocument = items.map ofDocument := by
  constructor
  · rw [Document.IsFinite, Document.allFinite_iff, toItems_eq_map, List.map_map, List.forall_mem_map]
    exact fun item member => (each item member).finite
  · rw [toItems_eq_map]
    simpa using fun item member => (each item member).again

theorem isStable_all {document : Document} {items : List Document}
    (isGroup : ofDocument document = .all (items.map ofDocument))
    (each : ∀ item ∈ items, IsStable item) : IsStable document := by
  obtain ⟨finite, again⟩ := items_of_isStable each
  constructor
  · rw [isGroup]
    exact ⟨finite, trivial⟩
  · rw [isGroup, toDocument, ofDocument_all rfl, again]

theorem isStable_any {document : Document} {items : List Document}
    (isGroup : ofDocument document = .any (items.map ofDocument))
    (each : ∀ item ∈ items, IsStable item) : IsStable document := by
  obtain ⟨finite, again⟩ := items_of_isStable each
  have noAll (written : Document) (others : List Document) :
      Entries.get? "all" [("or", written)] ≠ some (array others) := nofun
  constructor
  · rw [isGroup]
    exact ⟨finite, trivial⟩
  · rw [isGroup, toDocument, ofDocument_any (noAll _) rfl, again]

/-- A requirement that was read is read again where it is written. -/
theorem isStable : (document : Document) → document.IsFinite → IsStable document
  | object members, finite => by
      -- Members go before alternatives, so an object with both lists is written without the second.
      by_cases hasAll : ∃ items, Entries.get? "all" members = some (array items)
      · obtain ⟨items, listed⟩ := hasAll
        have smaller := Document.sizeOf_get? listed
        exact isStable_all (ofDocument_all listed) fun item member =>
          isStable item ((finite.get? listed).item member)
      · have noAll (items : List Document) (listed : Entries.get? "all" members = some (array items)) :
            False := hasAll ⟨items, listed⟩
        by_cases hasAny : ∃ items, Entries.get? "or" members = some (array items)
        · obtain ⟨items, listed⟩ := hasAny
          have smaller := Document.sizeOf_get? listed
          exact isStable_any (ofDocument_any noAll listed) fun item member =>
            isStable item ((finite.get? listed).item member)
        · have noGroup : ¬IsGroup members := by
            simp only [IsGroup, List.mem_cons, List.not_mem_nil, or_false, exists_eq_or_imp,
              exists_eq_left]
            exact not_or.mpr ⟨hasAll, hasAny⟩
          refine isStable_test finite (ofDocument_test noGroup) fun others same => ?_
          cases same
          exact noGroup
  | array _, finite => isStable_test finite (ofDocument_noObject nofun) nofun
  | .null, finite => isStable_test finite (ofDocument_noObject nofun) nofun
  | .bool _, finite => isStable_test finite (ofDocument_noObject nofun) nofun
  | .integer _, finite => isStable_test finite (ofDocument_noObject nofun) nofun
  | .decimal _, finite => isStable_test finite (ofDocument_noObject nofun) nofun
  | .string _, finite => isStable_test finite (ofDocument_noObject nofun) nofun
termination_by document => document
decreasing_by
  all_goals
    have inside := Document.sizeOf_item member
    omega

theorem restores : Document.Restores (fun item => some (ofDocument item)) toDocument := by
  intro document requirement finite isRead
  cases isRead
  have stable := isStable document finite
  exact ⟨stable.finite, congrArg some stable.again⟩

end Requirement

namespace Action

theorem get?_operationMembers (wanted : String) (members : List (String × Document)) :
    Entries.get? wanted (operationMembers members) =
      if wanted = "output" ∨ wanted = "value" then none else Entries.get? wanted members := by
  induction members with
  | nil => simp [operationMembers, Entries.get?]
  | cons head rest inductionHypothesis =>
      obtain ⟨name, member⟩ := head
      unfold operationMembers at inductionHypothesis ⊢
      by_cases own : name = "output" ∨ name = "value"
      · rw [List.filter_cons_of_neg (by simpa using fun notOutput => own.resolve_left notOutput),
          inductionHypothesis]
        split
        · rfl
        · rename_i other
          have different : wanted ≠ name := by
            rintro rfl
            exact other own
          rw [Entries.get?, if_neg different]
      · rw [List.filter_cons_of_pos (by simpa [not_or] using own), Entries.get?, Entries.get?,
          inductionHypothesis]
        split
        · rename_i same
          rw [if_neg (same ▸ own)]
        · rfl

/-- The members of a written action. Its operation leaves its own two members alone. -/
theorem get?_written {action : Action} (noValue : ∀ node, action.operation = some node →
    node.value = none) : ∃ members, action.toDocument = object members ∧
      Entries.get? "output" members = some (.string action.output) ∧
      Entries.get? "value" members = action.value.map Expr.toDocument ∧
      ∀ wanted, wanted ≠ "output" → wanted ≠ "value" → Entries.get? wanted members =
        action.operation.bind fun node => Entries.get? wanted node.toMembers := by
  refine ⟨_, rfl, ?_⟩
  obtain ⟨output, value, operation⟩ := action
  cases operation with
  | none =>
      simp only [Entries.get?_ofList_append, Entries.get?_ofList_cons,
        Document.get?_ofList_optionalMember, Entries.get?_ofList_nil]
      refine ⟨by simp, by simp, fun wanted notOutput notValue => by simp [notOutput, notValue]⟩
  | some node =>
      have absent := noValue node rfl
      simp only [Entries.get?_ofList_append, Entries.get?_ofList_cons,
        Document.get?_ofList_optionalMember, node.sorted_toMembers.get?_ofList,
        Operation.get?_toMembers]
      refine ⟨by simp, by simp [absent], fun wanted notOutput notValue => ?_⟩
      simp [notOutput, notValue]

/-- The operation of a written action is that of the action. Where the action has none, no member is left
that names one. -/
theorem ofMembers?_written {action : Action} {written : List (String × Document)}
    (noValue : ∀ node, action.operation = some node → node.value = none)
    (kept : ∀ node, action.operation = some node → node.IsKept)
    (others : ∀ wanted, wanted ≠ "output" → wanted ≠ "value" → Entries.get? wanted written =
      action.operation.bind fun node => Entries.get? wanted node.toMembers) :
    Operation.ofMembers? (operationMembers written) = action.operation := by
  cases isNode : action.operation with
  | none =>
      refine Operation.ofMembers?_eq_none fun well => ?_
      obtain ⟨name, named⟩ := well.name
      rw [get?_operationMembers, others _ (by decide) (by decide), isNode] at named
      simp at named
  | some node =>
      rw [← (kept node isNode).2]
      refine Operation.ofMembers?_congr fun name isName => ?_
      -- The action keeps `value` for itself, so its operation must have none to begin with.
      rw [get?_operationMembers]
      by_cases isValue : name = "value"
      · rw [isValue, Operation.get?_toMembers, noValue node isNode]
        rfl
      · have notOutput : name ≠ "output" := by
          rintro rfl
          simp at isName
        rw [if_neg (not_or.mpr ⟨notOutput, isValue⟩), others name notOutput isValue, isNode]
        rfl

theorem ofDocument?_toDocument {action : Action} (value : Expr.IsKept action.value)
    (noValue : ∀ node, action.operation = some node → node.value = none)
    (kept : ∀ node, action.operation = some node → node.IsKept) :
    ofDocument? action.toDocument = some action := by
  obtain ⟨written, isWritten, output, valueFound, others⟩ := get?_written noValue
  have operation := ofMembers?_written noValue kept others
  rw [isWritten, ofDocument?, output, Expr.ofMember?_eq_bind, valueFound, value.again, operation]
  rfl

theorem isFinite_toDocument {action : Action} (value : Expr.IsKept action.value)
    (kept : ∀ node, action.operation = some node → node.IsKept) : action.toDocument.IsFinite := by
  obtain ⟨output, part, operation⟩ := action
  have valueFinite : Document.WritesFinite Expr.toDocument part := value.finite
  apply Document.MembersFinite.ofMembers
  cases operation with
  | none => simp [valueFinite]
  | some node =>
      have nodeFinite : Document.MembersFinite node.toMembers := (kept node rfl).1
      simp [valueFinite, nodeFinite]

/-- An action that was read is read again where it is written, with the same operation or none. -/
theorem restores : Document.Restores ofDocument? toDocument := by
  intro document action finite isRead
  cases document with
  | object members =>
      simp only [ofDocument?, Expr.ofMember?_eq_bind, Option.bind_eq_bind, Option.bind_eq_some_iff,
        Option.pure_def, Option.some.injEq] at isRead
      obtain ⟨output, -, rfl⟩ := isRead
      have stable (part : Document) (partFinite : part.IsFinite) : Expr.IsStable part :=
        Expr.isStable part partFinite
      have partsFinite : (object (operationMembers members)).IsFinite := by
        rw [Document.IsFinite, Document.membersFinite_iff]
        exact fun pair member => finite.member (List.mem_of_mem_filter member)
      have value := Expr.isKept_member finite (fun part _ => stable part) "value"
      have kept (node : Operation)
          (isNode : Operation.ofMembers? (operationMembers members) = some node) : node.IsKept :=
        Operation.isKept partsFinite (fun part _ => stable part) isNode
      refine ⟨isFinite_toDocument value kept, ofDocument?_toDocument value ?_ kept⟩
      intro node isNode
      rw [(Operation.isReadFrom_of_ofMembers? isNode).value, get?_operationMembers]
      rfl
  | _ => cases isRead

end Action

end Statute
