/-
This file proves that values are loosely equal exactly when they have the same contents, so that loose
equality is an equivalence among the values without a NaN.
-/

import Statute.Proofs.Value.Order

namespace Statute

namespace Value

/-- The contents of a value, with every number, text and flag at its place on its scale. -/
inductive Content
  | null
  | graded (grade : Grade)
  | list (items : List Content)
  | record (fields : List (String × Content))

/-- A row whose members are all there. -/
def joined? {α : Type} (first : Option α) (rest : Option (List α)) : Option (List α) :=
  match first, rest with
  | some first, some rest => some (first :: rest)
  | _, _ => none

theorem isSome_joined? {α : Type} (first : Option α) (rest : Option (List α)) :
    (joined? first rest).isSome = (first.isSome && rest.isSome) := by
  cases first <;> cases rest <;> rfl

mutual

/-- The contents of a value in which no NaN occurs. -/
def content? : Value → Option Content
  | null => some .null
  | list items => (contents? items).map .list
  | record fields => (fieldContents? fields).map .record
  | other => other.grade?.map .graded

def contents? : List Value → Option (List Content)
  | [] => some []
  | item :: rest => joined? item.content? (contents? rest)

def fieldContents? : List (String × Value) → Option (List (String × Content))
  | [] => some []
  | (name, value) :: rest => joined? (value.content?.map (name, ·)) (fieldContents? rest)

end

mutual

/-- A NaN occurs somewhere in the value. -/
def hasNaN : Value → Bool
  | float value => value.isNaN
  | list items => itemsHaveNaN items
  | record fields => fieldsHaveNaN fields
  | _ => false

def itemsHaveNaN : List Value → Bool
  | [] => false
  | item :: rest => item.hasNaN || itemsHaveNaN rest

def fieldsHaveNaN : List (String × Value) → Bool
  | [] => false
  | (_, value) :: rest => value.hasNaN || fieldsHaveNaN rest

end

mutual

theorem isSome_content? : (value : Value) → value.content?.isSome = !value.hasNaN
  | null => rfl
  | bool _ => rfl
  | int _ => rfl
  | float value => by cases value <;> rfl
  | string _ => rfl
  | list items => by
      rw [content?, hasNaN, Option.isSome_map, isSome_contents? items]
  | record fields => by
      rw [content?, hasNaN, Option.isSome_map, isSome_fieldContents? fields]

theorem isSome_contents? : (items : List Value) → (contents? items).isSome = !itemsHaveNaN items
  | [] => rfl
  | item :: rest => by
      rw [contents?, itemsHaveNaN, Bool.not_or, isSome_joined?, isSome_content? item,
        isSome_contents? rest]

theorem isSome_fieldContents? : (fields : List (String × Value)) →
    (fieldContents? fields).isSome = !fieldsHaveNaN fields
  | [] => rfl
  | (name, value) :: rest => by
      rw [fieldContents?, fieldsHaveNaN, Bool.not_or, isSome_joined?, Option.isSome_map,
        isSome_content? value, isSome_fieldContents? rest]

end

/-- Both are there, and they are the same. -/
def Meet {α : Type} (first second : Option α) : Prop :=
  ∃ common, first = some common ∧ second = some common

namespace Meet

variable {α β : Type} {first second third : Option α}

@[simp]
theorem some_iff {left right : α} : Meet (some left) (some right) ↔ left = right := by
  simp [Meet, eq_comm]

@[simp]
theorem none_left : ¬ Meet none first := by
  simp [Meet]

@[simp]
theorem none_right : ¬ Meet first none := by
  simp [Meet]

theorem self_iff : Meet first first ↔ first.isSome = true := by
  simp [Meet, Option.isSome_iff_exists]

theorem symm (meets : Meet first second) : Meet second first := by
  obtain ⟨common, isFirst, isSecond⟩ := meets
  exact ⟨common, isSecond, isFirst⟩

theorem trans (left : Meet first second) (right : Meet second third) : Meet first third := by
  obtain ⟨common, isFirst, isSecond⟩ := left
  obtain ⟨other, isOther, isThird⟩ := right
  obtain rfl : common = other := Option.some.inj (isSecond.symm.trans isOther)
  exact ⟨common, isFirst, isThird⟩

theorem map_iff {map : α → β} (injective : ∀ left right, map left = map right → left = right) :
    Meet (first.map map) (second.map map) ↔ Meet first second := by
  cases first <;> cases second <;> simp
  exact ⟨injective _ _, congrArg map⟩

theorem joined_iff {others rest : Option (List α)} :
    Meet (joined? first others) (joined? second rest) ↔ Meet first second ∧ Meet others rest := by
  cases first <;> cases second <;> cases others <;> cases rest <;> simp [joined?]

theorem joined_nil {others : Option (List α)} : ¬ Meet (joined? first others) (some []) := by
  cases first <;> cases others <;> simp [joined?]

theorem pair_iff {name other : String} :
    Meet (first.map (name, ·)) (second.map (other, ·)) ↔ name = other ∧ Meet first second := by
  cases first <;> cases second <;> simp

end Meet

theorem numericEq_iff (first second : Double) :
    first.numericEq second = true ↔ Meet first.place second.place := by
  rw [Double.numericEq, Double.compare]
  cases first.place <;> cases second.place <;> simp

/-- Numbers have one content if they are numerically equal. -/
theorem meet_number (first second : Double) :
    Meet ((first.place.map Grade.number).map Content.graded)
      ((second.place.map Grade.number).map Content.graded) ↔ first.numericEq second = true := by
  rw [Meet.map_iff fun _ _ => Content.graded.inj, Meet.map_iff fun _ _ => Grade.number.inj,
    numericEq_iff]

mutual

theorem looseEq_iff : (first second : Value) →
    (first.looseEq second = true ↔ Meet first.content? second.content?)
  | null, second => by cases second <;> simp [looseEq, same, content?, grade?, Meet]
  | bool _, second => by
      cases second with
      | bool _ => simp [looseEq, same, content?, grade?]
      | _ => simp [looseEq, same, content?, grade?, Meet]
  | string _, second => by
      cases second with
      | string _ => simp [looseEq, same, content?, grade?]
      | _ => simp [looseEq, same, content?, grade?, Meet]
  | int _, second => by
      cases second with
      | int _ => exact (meet_number _ _).symm
      | float _ => exact (meet_number _ _).symm
      | _ => simp [looseEq, same, content?, grade?, Meet]
  | float _, second => by
      cases second with
      | int _ => exact (meet_number _ _).symm
      | float _ => exact (meet_number _ _).symm
      | _ => simp [looseEq, same, content?, grade?, Meet]
  | list items, second => by
      cases second with
      | list others =>
          rw [looseEq, looseEqItems_iff items others, content?, content?,
            Meet.map_iff fun _ _ => Content.list.inj]
      | _ => simp [looseEq, same, content?, Meet]
  | record fields, second => by
      cases second with
      | record others =>
          rw [looseEq, looseEqFields_iff fields others, content?, content?,
            Meet.map_iff fun _ _ => Content.record.inj]
      | _ => simp [looseEq, same, content?, Meet]

theorem looseEqItems_iff : (items others : List Value) →
    (looseEqItems items others = true ↔ Meet (contents? items) (contents? others))
  | [], [] => by simp [looseEqItems, contents?]
  | [], _ :: _ => by
      simpa [looseEqItems, contents?] using fun meets => Meet.joined_nil (Meet.symm meets)
  | _ :: _, [] => by simp [looseEqItems, contents?, Meet.joined_nil]
  | item :: rest, other :: others => by
      rw [looseEqItems, Bool.and_eq_true, looseEq_iff item other, looseEqItems_iff rest others,
        contents?, contents?, Meet.joined_iff]

theorem looseEqFields_iff : (fields others : List (String × Value)) →
    (looseEqFields fields others = true ↔ Meet (fieldContents? fields) (fieldContents? others))
  | [], [] => by simp [looseEqFields, fieldContents?]
  | [], _ :: _ => by
      simpa [looseEqFields, fieldContents?] using fun meets => Meet.joined_nil (Meet.symm meets)
  | _ :: _, [] => by simp [looseEqFields, fieldContents?, Meet.joined_nil]
  | (name, value) :: rest, (otherName, other) :: others => by
      rw [looseEqFields, Bool.and_eq_true, Bool.and_eq_true, beq_iff_eq, looseEq_iff value other,
        looseEqFields_iff rest others, fieldContents?, fieldContents?, Meet.joined_iff, Meet.pair_iff]

end

mutual

/-- The same values are loosely equal. -/
theorem looseEq_of_same : (first second : Value) → first.same second = true →
    first.looseEq second = true
  | null, second, isSame => by cases second <;> exact isSame
  | bool _, second, isSame => by cases second <;> exact isSame
  | string _, second, isSame => by cases second <;> exact isSame
  | int number, second, isSame => by
      cases second with
      | int other =>
          obtain rfl : number = other := by simpa [same] using isSame
          exact (looseEq_iff _ _).mpr (Meet.self_iff.mpr (isSome_content? (int number)))
      | _ => simp [same] at isSame
  | float _, second, isSame => by
      cases second with
      | float _ => exact isSame
      | _ => simp [same] at isSame
  | list items, second, isSame => by
      cases second with
      | list others => exact looseEqItems_of_same items others isSame
      | _ => simp [same] at isSame
  | record fields, second, isSame => by
      cases second with
      | record others => exact looseEqFields_of_same fields others isSame
      | _ => simp [same] at isSame

theorem looseEqItems_of_same : (items others : List Value) → sameItems items others = true →
    looseEqItems items others = true
  | [], [], _ => rfl
  | item :: rest, other :: others, areSame => by
      obtain ⟨isFirst, areOthers⟩ := Bool.and_eq_true_iff.mp areSame
      exact Bool.and_eq_true_iff.mpr
        ⟨looseEq_of_same item other isFirst, looseEqItems_of_same rest others areOthers⟩

theorem looseEqFields_of_same : (fields others : List (String × Value)) →
    sameFields fields others = true → looseEqFields fields others = true
  | [], [], _ => rfl
  | (_, value) :: rest, (_, other) :: others, areSame => by
      obtain ⟨isFirst, areOthers⟩ := Bool.and_eq_true_iff.mp areSame
      obtain ⟨isName, isValue⟩ := Bool.and_eq_true_iff.mp isFirst
      exact Bool.and_eq_true_iff.mpr ⟨Bool.and_eq_true_iff.mpr ⟨isName,
        looseEq_of_same value other isValue⟩, looseEqFields_of_same rest others areOthers⟩

end

/-- Loose equality is an equivalence among the values without a NaN. A value with a NaN is not even
equal to itself, and the same values are always loosely equal. -/
theorem looseEq_isPartialEquivalence (first second third : Value) :
    (first.looseEq second = true → second.looseEq first = true) ∧
    (first.looseEq second = true → second.looseEq third = true → first.looseEq third = true) ∧
    (first.looseEq first = true ↔ first.hasNaN = false) ∧
    (first.same second = true → first.looseEq second = true) := by
  refine ⟨?symmetric, ?transitive, ?reflexive, looseEq_of_same first second⟩
  case symmetric =>
    rw [looseEq_iff, looseEq_iff]
    exact Meet.symm
  case transitive =>
    rw [looseEq_iff, looseEq_iff, looseEq_iff]
    exact Meet.trans
  case reflexive =>
    rw [looseEq_iff, Meet.self_iff, isSome_content?, Bool.not_eq_true']

/-- An integer in a list may stand for a float, and the other way round. -/
theorem looseEq_isPartialEquivalence_mixed :
    (list [int 2, null]).looseEq (list [float (Double.ofInt 2), null]) = true ∧
    (list [float (Double.ofInt 2), null]).looseEq (list [int 2, null]) = true ∧
    (list [float .nan]).looseEq (list [float .nan]) = false := by
  have mixed : (list [int 2, null]).looseEq (list [float (Double.ofInt 2), null]) = true := by
    decide +kernel
  refine ⟨mixed, (looseEq_isPartialEquivalence _ _ null).1 mixed, ?_⟩
  have reflexive := (looseEq_isPartialEquivalence (list [float .nan]) null null).2.2.1
  rw [Bool.eq_false_iff, Ne, reflexive]
  decide

end Value

end Statute
