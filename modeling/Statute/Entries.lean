/-
This file keeps named entries as lists in increasing order of their names.
-/

namespace Statute

/-- Entries hold each name once, in the order of the names' code points. -/
abbrev Entries (α : Type) := List (String × α)

namespace Entries

variable {α β : Type}

/-- A stored name keeps its place and takes the new value; a new name is put in order. -/
def insert (name : String) (value : α) : Entries α → Entries α
  | [] => [(name, value)]
  | (other, present) :: rest =>
      if name = other then (name, value) :: rest
      else if name < other then (name, value) :: (other, present) :: rest
      else (other, present) :: insert name value rest

/-- The entry stored under a name. -/
def get? (name : String) : Entries α → Option α
  | [] => none
  | (other, present) :: rest => if name = other then some present else get? name rest

/-- True when the name has an entry. -/
def contains (name : String) (entries : Entries α) : Bool :=
  (get? name entries).isSome

/-- Pairs are inserted from left to right, so the last of a name wins. -/
def ofList (pairs : List (String × α)) : Entries α :=
  pairs.foldl (fun entries pair => insert pair.1 pair.2 entries) []

/-- The second collection overrides the first. -/
def merge (first second : Entries α) : Entries α :=
  second.foldl (fun entries pair => insert pair.1 pair.2 entries) first

/-- The stored names in order. -/
def keys (entries : Entries α) : List String :=
  entries.map Prod.fst

/-- The stored values in the order of their names. -/
def values (entries : Entries α) : List α :=
  entries.map Prod.snd

/-- A function on the values leaves the names as they are. -/
def mapValues (f : α → β) (entries : Entries α) : Entries β :=
  entries.map fun pair => (pair.1, f pair.2)

/-- Only an absent name receives the value. -/
def insertNew (name : String) (value : α) (entries : Entries α) : Entries α :=
  if contains name entries then entries else insert name value entries

/-- A name joins an ordered list of names unless it is in it. -/
def insertName (name : String) : List String → List String
  | [] => [name]
  | other :: rest =>
      if name = other then other :: rest
      else if name < other then name :: other :: rest
      else other :: insertName name rest

theorem get?_insert (entries : Entries α) (name wanted : String) (value : α) :
    get? wanted (insert name value entries) =
      if wanted = name then some value else get? wanted entries := by
  induction entries with
  | nil => simp [insert, get?]
  | cons head rest inductionHypothesis =>
      obtain ⟨other, present⟩ := head
      by_cases same : name = other
      · subst same
        by_cases found : wanted = name <;> simp [insert, get?, found]
      · by_cases before : name < other
        · simp [insert, get?, same, before]
        · by_cases found : wanted = other
          · simp [insert, get?, same, before, found]
            intro equal
            exact absurd equal.symm same
          · simp [insert, get?, same, before, found, inductionHypothesis]

end Entries

end Statute
