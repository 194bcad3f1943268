/-
This file proves for the readers of members, lists and texts that they find again what was written.
-/

import Statute.Document.Fields
import Statute.Proofs.Document.Settling

namespace Statute.Document

variable {α : Type} {read : Document → Option α} {write : α → Document}

/-- What is read from a document of finite numbers is written as such a document, and is found again
there. -/
def Restores (read : Document → Option α) (write : α → Document) : Prop :=
  ∀ document value, IsFinite document → read document = some value →
    (write value).IsFinite ∧ read (write value) = some value

/-- A member is absent or has finite numbers. -/
def IsFiniteMember (member : Option Document) : Prop :=
  ∀ document, member = some document → document.IsFinite

/-- A value that is there is written with finite numbers. -/
def WritesFinite (write : α → Document) (value : Option α) : Prop :=
  IsFiniteMember (value.map write)

@[simp]
theorem membersFinite_nil : MembersFinite [] :=
  trivial

@[simp]
theorem membersFinite_cons (name : String) (member : Document) (rest : List (String × Document)) :
    MembersFinite ((name, member) :: rest) ↔ member.IsFinite ∧ MembersFinite rest :=
  Iff.rfl

@[simp]
theorem membersFinite_append (first second : List (String × Document)) :
    MembersFinite (first ++ second) ↔ MembersFinite first ∧ MembersFinite second := by
  simp only [membersFinite_iff, List.forall_mem_append]

@[simp]
theorem membersFinite_optionalMember (name : String) (value : Option α) :
    MembersFinite (optionalMember name write value) ↔ WritesFinite write value := by
  cases value <;> simp [optionalMember, MembersFinite, WritesFinite, IsFiniteMember]

@[simp]
theorem writesFinite_id (member : Option Document) : WritesFinite id member ↔ IsFiniteMember member := by
  rw [WritesFinite, Option.map_id, id]

@[simp]
theorem isFinite_string (text : String) : (string text).IsFinite :=
  trivial

/-- The members of a written structure are among those that it was written from. -/
theorem MembersFinite.ofMembers {members : List (String × Document)} (finite : MembersFinite members) :
    (ofMembers members).IsFinite := by
  rw [Document.ofMembers, IsFinite, membersFinite_iff]
  exact fun pair member => membersFinite_iff.mp finite pair (Entries.mem_ofList member)

theorem IsFinite.isFiniteMember {members : List (String × Document)}
    (finite : (object members).IsFinite) (name : String) :
    IsFiniteMember (Entries.get? name members) :=
  fun _ found => finite.get? found

theorem isFiniteMember_of_fields? {document : Document} {names : List String}
    {field : String → Option Document} (finite : document.IsFinite)
    (isField : fields? names document = some field) (name : String) :
    IsFiniteMember (field name) := by
  intro member found
  cases document with
  | object members =>
      cases isField
      exact finite.get? found
  | array items =>
      rw [fields?] at isField
      split at isField
      · cases isField
        exact finite.item (List.of_mem_zip (Entries.mem_of_get? found)).2
      · cases isField
  | _ => cases isField

@[simp]
theorem get?_ofList_optionalMember (wanted name : String) (value : Option α) :
    Entries.get? wanted (Entries.ofList (optionalMember name write value)) =
      if wanted = name then value.map write else none := by
  cases value with
  | none => simp [optionalMember]
  | some value => simp [optionalMember]

namespace Restores

theorem text : Restores text? string := by
  intro document value _ isRead
  exact ⟨trivial, rfl⟩

theorem flag : Restores flag? bool := by
  intro document value _ isRead
  exact ⟨trivial, rfl⟩

theorem natural : Restores natural? fun value => integer value := by
  intro document value finite isRead
  cases document with
  | integer whole =>
      rw [natural?] at isRead
      split at isRead
      · rename_i inRange
        cases isRead
        dsimp only
        rw [natural?, Int.toNat_of_nonneg inRange.1, if_pos inRange]
        exact ⟨finite, rfl⟩
      · cases isRead
  | _ => cases isRead

theorem float : Restores float? decimal := by
  intro document value finite isRead
  cases document with
  | integer whole =>
      cases isRead
      exact ⟨Value.isFinite_ofInteger finite, rfl⟩
  | decimal number =>
      cases isRead
      exact ⟨finite, rfl⟩
  | _ => cases isRead

theorem value : Restores (fun document => some (Value.ofDocument document)) Value.toDocument := by
  intro document value finite isRead
  cases isRead
  exact ⟨isFinite_settled document finite,
    congrArg some (Value.reread_ofDocument document finite)⟩

theorem list (each : Restores read write) :
    Restores (list? read) fun values => array (values.map write) := by
  intro document values finite isRead
  cases document with
  | array items =>
      have again (value : α) (member : value ∈ values) :
          (write value).IsFinite ∧ read (write value) = some value := by
        obtain ⟨item, isItem, isValue⟩ := Option.mem_of_mapM isRead member
        exact each item value (finite.item isItem) isValue
      constructor
      · rw [IsFinite, allFinite_iff, List.forall_mem_map]
        exact fun value member => (again value member).1
      · exact Option.mapM_map fun value member => (again value member).2
  | _ => cases isRead

theorem entries (each : Restores read write) :
    Restores (entries? read) fun values => object (Entries.mapValues write values) := by
  intro document values finite isRead
  cases document with
  | object members =>
      have again (pair : String × α) (member : pair ∈ values) :
          (write pair.2).IsFinite ∧ read (write pair.2) = some pair.2 := by
        obtain ⟨other, isOther, isPair⟩ := Option.mem_of_mapM isRead member
        obtain ⟨value, isValue, rfl⟩ := Option.map_eq_some_iff.mp isPair
        exact each other.2 value (finite.member isOther) isValue
      constructor
      · rw [IsFinite, membersFinite_iff, Entries.mapValues, List.forall_mem_map]
        exact fun pair member => (again pair member).1
      · refine Option.mapM_map fun pair member => ?_
        dsimp only
        rw [(again pair member).2, Option.map_some]
  | _ => cases isRead

/-- A structure is written as an object of its members, so its reader finds again what it found when it
does so for a table of members that are those of the object. -/
theorem fields {names : List String} {build : (String → Option Document) → Option α}
    {members : α → List (String × Document)}
    (again : ∀ field value, (∀ name, IsFiniteMember (field name)) → build field = some value →
      MembersFinite (members value) ∧
        build (fun name => Entries.get? name (Entries.ofList (members value))) = some value) :
    Restores (fun document => fields? names document >>= build) fun value =>
      ofMembers (members value) := by
  intro document value finite isRead
  obtain ⟨field, isField, isBuilt⟩ := Option.bind_eq_some_iff.mp isRead
  have ⟨membersFinite, found⟩ :=
    again field value (isFiniteMember_of_fields? finite isField) isBuilt
  exact ⟨membersFinite.ofMembers, found⟩

variable {member : Option Document}

theorem required {value : α} (restores : Restores read write) (finite : IsFiniteMember member)
    (isRead : required? read member = some value) :
    (write value).IsFinite ∧ required? read (some (write value)) = some value := by
  obtain ⟨document, found, isValue⟩ := Option.bind_eq_some_iff.mp isRead
  exact restores document value (finite document found) isValue

/-- A reader that does not take a null never finds one written, so nothing is taken for absent. -/
theorem optional {value : Option α} (restores : Restores read write) (noNull : read null = none)
    (finite : IsFiniteMember member) (isRead : optional? read member = some value) :
    WritesFinite write value ∧ optional? read (value.map write) = some value := by
  cases value with
  | none => exact ⟨nofun, rfl⟩
  | some content =>
      have ⟨contentFinite, again⟩ : (write content).IsFinite ∧ read (write content) = some content := by
        unfold optional? at isRead
        split at isRead
        · cases isRead
        · cases isRead
        · rename_i document _
          obtain ⟨present, isPresent, ⟨⟩⟩ := Option.map_eq_some_iff.mp isRead
          exact restores document content (finite document rfl) isPresent
      refine ⟨fun document written => Option.some.inj written ▸ contentFinite, ?_⟩
      rw [Option.map_some]
      unfold optional?
      split
      · rename_i absent
        cases absent
      · rename_i isNull
        rw [Option.some.inj isNull, noNull] at again
        cases again
      · rename_i isWritten
        rw [← Option.some.inj isWritten, again, Option.map_some]

theorem nullable {value : Option α} (restores : Restores read write) (noNull : read null = none)
    (finite : IsFiniteMember member) (isRead : optional? read member = some value) :
    (Document.nullable write value).IsFinite ∧
      optional? read (some (Document.nullable write value)) = some value := by
  cases value with
  | none => exact ⟨trivial, rfl⟩
  | some content =>
      obtain ⟨contentFinite, again⟩ := restores.optional noNull finite isRead
      exact ⟨contentFinite _ rfl, again⟩

theorem defaulted {default value : α} (restores : Restores read write)
    (ofDefault : (write default).IsFinite ∧ read (write default) = some default)
    (finite : IsFiniteMember member) (isRead : defaulted? read default member = some value) :
    (write value).IsFinite ∧ defaulted? read default (some (write value)) = some value := by
  cases member with
  | none =>
      cases isRead
      exact ofDefault
  | some document => exact restores document value (finite document rfl) isRead

/-- An absent list is written as an empty one. -/
theorem listed {values : List α} (each : Restores read write) (finite : IsFiniteMember member)
    (isRead : defaulted? (list? read) [] member = some values) :
    (array (values.map write)).IsFinite ∧
      defaulted? (list? read) [] (some (array (values.map write))) = some values :=
  each.list.defaulted ⟨trivial, rfl⟩ finite isRead

/-- Absent entries are written as an empty object. -/
theorem named {values : Entries α} (each : Restores read write) (finite : IsFiniteMember member)
    (isRead : defaulted? (entries? read) [] member = some values) :
    (object (Entries.mapValues write values)).IsFinite ∧
      defaulted? (entries? read) [] (some (object (Entries.mapValues write values))) = some values :=
  each.entries.defaulted ⟨trivial, rfl⟩ finite isRead

end Restores

end Statute.Document
