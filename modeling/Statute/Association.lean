/-
This file keeps values under keys in the order in which the keys were first used.
-/

namespace Statute

/-- An association holds each key once. -/
abbrev Association (κ α : Type) := List (κ × α)

namespace Association

variable {κ α : Type} [DecidableEq κ]

/-- The value under a key. -/
def get? (key : κ) : Association κ α → Option α
  | [] => none
  | (other, value) :: rest => if key = other then some value else get? key rest

/-- A used key keeps its place and takes the new value. A new key goes to the end. -/
def set (key : κ) (value : α) : Association κ α → Association κ α
  | [] => [(key, value)]
  | (other, present) :: rest =>
      if key = other then (key, value) :: rest else (other, present) :: set key value rest

/-- The values in the order of their keys. -/
def values (association : Association κ α) : List α :=
  association.map Prod.snd

theorem get?_set (association : Association κ α) (key wanted : κ) (value : α) :
    get? wanted (set key value association) =
      if wanted = key then some value else get? wanted association := by
  induction association with
  | nil => simp [set, get?]
  | cons head rest inductionHypothesis =>
      obtain ⟨other, present⟩ := head
      by_cases same : key = other
      · subst same
        by_cases found : wanted = key <;> simp [set, get?, found]
      · by_cases found : wanted = other
        · subst found
          simp [set, get?, same, Ne.symm same]
        · simp [set, get?, same, found, inductionHypothesis]

/-- A second value under a key replaces the first. -/
theorem set_set (association : Association κ α) (key : κ) (first second : α) :
    set key second (set key first association) = set key second association := by
  induction association with
  | nil => simp [set]
  | cons head rest inductionHypothesis =>
      obtain ⟨other, present⟩ := head
      by_cases same : key = other
      · simp [set, same]
      · simp [set, same, inductionHypothesis]

/-- Only a new key makes an association longer. -/
theorem length_set (association : Association κ α) (key : κ) (value : α) :
    (set key value association).length =
      if (get? key association).isSome then association.length else association.length + 1 := by
  induction association with
  | nil => simp [set, get?]
  | cons head rest inductionHypothesis =>
      obtain ⟨other, present⟩ := head
      by_cases same : key = other
      · simp [set, get?, same]
      · simp only [set, get?, same, if_false, List.length_cons, inductionHypothesis]
        split <;> rfl

end Association

/-- An index lists identifiers under keys, each identifier once under a key. -/
abbrev Index (κ ι : Type) := Association κ (List ι)

namespace Index

variable {κ ι : Type} [DecidableEq κ] [DecidableEq ι]

/-- The identifiers under a key, in the order in which they were filed. -/
def under (key : κ) (index : Index κ ι) : List ι :=
  (Association.get? key index).getD []

/-- An identifier is filed under a key, unless it is already. -/
def file (key : κ) (identifier : ι) (index : Index κ ι) : Index κ ι :=
  if (under key index).contains identifier then index
  else Association.set key (under key index ++ [identifier]) index

end Index

end Statute
