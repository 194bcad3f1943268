/-
This file proves what associations, sorted entries and indexes hold after they were changed, and what is
read from lists item by item.
-/

import Mathlib.Data.List.Nodup
import Statute.Association
import Statute.Entries

namespace Statute

namespace Option

variable {α β : Type} {read : α → Option β} {write : β → α}

/-- All items of a list can be read when each can. -/
theorem isSome_mapM (read : α → Option β) (items : List α) :
    (items.mapM read).isSome ↔ ∀ item ∈ items, (read item).isSome := by
  induction items with
  | nil => simp
  | cons item rest inductionHypothesis =>
      rw [List.mapM_cons, List.forall_mem_cons, ← inductionHypothesis]
      cases read item <;> cases rest.mapM read <;> simp

/-- What was read from a list was read from one of its items. -/
theorem mem_of_mapM {items : List α} {values : List β}
    (isRead : items.mapM read = some values) {value : β} (member : value ∈ values) :
    ∃ item ∈ items, read item = some value := by
  induction items generalizing values with
  | nil =>
      cases isRead
      cases member
  | cons item rest inductionHypothesis =>
      simp only [List.mapM_cons, Option.bind_eq_bind, Option.bind_eq_some_iff, Option.pure_def,
        Option.some.injEq] at isRead
      obtain ⟨first, isFirst, others, areOthers, rfl⟩ := isRead
      rcases List.mem_cons.mp member with rfl | later
      · exact ⟨item, List.mem_cons_self, isFirst⟩
      · obtain ⟨other, isOther, isValue⟩ := inductionHypothesis areOthers later
        exact ⟨other, List.mem_cons_of_mem _ isOther, isValue⟩

/-- What is read again from every item is read again from the list of them. -/
theorem mapM_map {values : List β} (again : ∀ value ∈ values, read (write value) = some value) :
    (values.map write).mapM read = some values := by
  induction values with
  | nil => rfl
  | cons value rest inductionHypothesis =>
      obtain ⟨first, others⟩ := List.forall_mem_cons.mp again
      rw [List.map_cons, List.mapM_cons, first, inductionHypothesis others]
      rfl

end Option

section EraseDups

variable {α : Type} [BEq α] [LawfulBEq α]

/-- Without repetitions each item is there once. -/
theorem nodup_eraseDups (items : List α) :
    items.eraseDups.Nodup := by
  induction length : items.length using Nat.strongRecOn generalizing items with
  | ind count inductionHypothesis =>
      cases items with
      | nil => exact List.nodup_nil
      | cons item rest =>
          have shorter : (rest.filter fun other => !other == item).length < count := by
            rw [← length]
            exact Nat.lt_succ_of_le (List.length_filter_le _ _)
          rw [List.eraseDups_cons, List.nodup_cons]
          exact ⟨by simp [List.mem_eraseDups], inductionHypothesis _ shorter _ rfl⟩

/-- An item that comes last stays only if it is new. -/
theorem eraseDups_concat (items : List α) (item : α) :
    (items ++ [item]).eraseDups =
      if item ∈ items.eraseDups then items.eraseDups else items.eraseDups ++ [item] := by
  rw [List.eraseDups_append]
  by_cases known : item ∈ items
  · simp [List.removeAll, List.mem_eraseDups, known]
  · simp [List.removeAll, List.mem_eraseDups, known, List.eraseDups_cons]

end EraseDups

namespace Association

variable {κ α : Type} [DecidableEq κ]

theorem get?_eq_none_iff {association : Association κ α} {key : κ} :
    get? key association = none ↔ key ∉ association.map Prod.fst := by
  induction association with
  | nil => simp [get?]
  | cons head rest inductionHypothesis =>
      obtain ⟨other, value⟩ := head
      by_cases same : key = other
      · simp [get?, same]
      · simp [get?, same, inductionHypothesis]

/-- Where each key is held once, a held pair is what a lookup finds. -/
theorem get?_eq_some_iff {association : Association κ α} (distinct : (association.map Prod.fst).Nodup)
    {key : κ} {value : α} : get? key association = some value ↔ (key, value) ∈ association := by
  induction association with
  | nil => simp [get?]
  | cons head rest inductionHypothesis =>
      obtain ⟨other, present⟩ := head
      rw [List.map_cons, List.nodup_cons] at distinct
      by_cases same : key = other
      · subst same
        have absent : (key, value) ∉ rest := fun member =>
          distinct.1 (List.mem_map.mpr ⟨_, member, rfl⟩)
        simp [get?, absent, eq_comm]
      · simp [get?, same, inductionHypothesis distinct.2]

theorem set_of_get?_none {association : Association κ α} {key : κ}
    (isNew : get? key association = none) (value : α) :
    set key value association = association ++ [(key, value)] := by
  induction association with
  | nil => rfl
  | cons head rest inductionHypothesis =>
      obtain ⟨other, present⟩ := head
      by_cases same : key = other
      · simp [get?, same] at isNew
      · simp only [get?, same, if_false] at isNew
        simp [set, same, inductionHypothesis isNew]

/-- A value that replaces another one passes the same test, so the same keys pass. -/
theorem map_filter_set {association : Association κ α} {key : κ} {old value : α}
    (found : get? key association = some old) (test : α → Bool) (same : test value = test old) :
    ((set key value association).filter fun pair => test pair.2).map Prod.fst =
      (association.filter fun pair => test pair.2).map Prod.fst := by
  induction association with
  | nil => cases found
  | cons head rest inductionHypothesis =>
      obtain ⟨other, present⟩ := head
      by_cases equal : key = other
      · subst equal
        obtain rfl : present = old := by simpa [get?] using found
        cases passes : test present <;> simp [set, same, passes]
      · simp only [get?, equal, if_false] at found
        have kept := inductionHypothesis found
        cases passes : test present <;> simp [set, equal, passes, kept]

/-- A value that replaces another one and looks the same leaves the views of the values as they
are. -/
theorem map_values_set {β : Type} {association : Association κ α} {key : κ} {old value : α}
    (found : get? key association = some old) (view : α → β) (same : view value = view old) :
    (values (set key value association)).map view = (values association).map view := by
  induction association with
  | nil => cases found
  | cons head rest inductionHypothesis =>
      obtain ⟨other, present⟩ := head
      by_cases equal : key = other
      · subst equal
        obtain rfl : present = old := by simpa [get?] using found
        simp [set, values, same]
      · simp only [get?, equal, if_false] at found
        simpa [set, values, equal] using inductionHypothesis found

theorem map_fst_set {association : Association κ α} {key : κ} {old : α}
    (found : get? key association = some old) (value : α) :
    (set key value association).map Prod.fst = association.map Prod.fst := by
  simpa using map_filter_set found (fun _ => true) rfl

theorem nodup_set {association : Association κ α} (distinct : (association.map Prod.fst).Nodup)
    (key : κ) (value : α) : ((set key value association).map Prod.fst).Nodup := by
  cases found : get? key association with
  | some old =>
      rw [map_fst_set found]
      exact distinct
  | none =>
      have absent : key ∉ association.map Prod.fst := get?_eq_none_iff.mp found
      rw [set_of_get?_none found, List.map_append, List.map_singleton]
      refine List.nodup_append.mpr ⟨distinct, List.nodup_singleton key, ?_⟩
      intro other member last isLast same
      rw [same, List.mem_singleton.mp isLast] at member
      exact absent member

/-- Associations with the same keys, each held once, are the same when lookups find the same. -/
theorem eq_of_get? {first second : Association κ α} (distinct : (first.map Prod.fst).Nodup)
    (keys : first.map Prod.fst = second.map Prod.fst)
    (same : ∀ key, get? key first = get? key second) : first = second := by
  induction first generalizing second with
  | nil => exact (List.map_eq_nil_iff.mp keys.symm).symm
  | cons head rest inductionHypothesis =>
      obtain ⟨key, value⟩ := head
      obtain ⟨⟨other, present⟩, others, rfl, rfl, otherKeys⟩ := List.map_eq_cons_iff.mp keys.symm
      obtain ⟨absent, distinctRest⟩ := List.nodup_cons.mp distinct
      have sameValue : value = present := by simpa [get?] using same other
      have sameRest (wanted : κ) : get? wanted rest = get? wanted others := by
        by_cases isHead : wanted = other
        · rw [isHead, get?_eq_none_iff.mpr absent, get?_eq_none_iff.mpr (otherKeys ▸ absent)]
        · simpa [get?, isHead] using same wanted
      rw [sameValue, inductionHypothesis distinctRest otherKeys.symm sameRest]

end Association

namespace Entries

variable {α : Type}

/-- The names increase. -/
def Sorted (entries : Entries α) : Prop :=
  entries.Pairwise fun first second => first.1 < second.1

theorem mem_insert {entries : Entries α} {name : String} {value : α} {pair : String × α}
    (member : pair ∈ insert name value entries) : pair = (name, value) ∨ pair ∈ entries := by
  induction entries with
  | nil => exact .inl (List.mem_singleton.mp member)
  | cons head rest inductionHypothesis =>
      obtain ⟨other, present⟩ := head
      unfold insert at member
      split at member
      · rcases List.mem_cons.mp member with isNew | isOld
        · exact .inl isNew
        · exact .inr (List.mem_cons_of_mem _ isOld)
      · split at member
        · exact List.mem_cons.mp member
        · rcases List.mem_cons.mp member with isHead | isLater
          · exact .inr (isHead ▸ List.mem_cons_self)
          · exact (inductionHypothesis isLater).imp_right (List.mem_cons_of_mem _)

/-- What is inserted last wins, so nothing else is in the result. -/
theorem mem_merge {entries : Entries α} {pairs : List (String × α)} {pair : String × α}
    (member : pair ∈ merge entries pairs) : pair ∈ entries ∨ pair ∈ pairs := by
  induction pairs generalizing entries with
  | nil => exact .inl member
  | cons head rest inductionHypothesis =>
      rcases inductionHypothesis member with inserted | later
      · rcases mem_insert inserted with rfl | isOld
        · exact .inr List.mem_cons_self
        · exact .inl isOld
      · exact .inr (List.mem_cons_of_mem _ later)

theorem mem_ofList {pairs : List (String × α)} {pair : String × α} (member : pair ∈ ofList pairs) :
    pair ∈ pairs :=
  (mem_merge member).resolve_left (List.not_mem_nil)

/-- What a lookup finds is there, whether the names increase or not. -/
theorem mem_of_get? {entries : Entries α} {name : String} {value : α}
    (found : get? name entries = some value) : (name, value) ∈ entries := by
  induction entries with
  | nil => cases found
  | cons head rest inductionHypothesis =>
      obtain ⟨other, present⟩ := head
      unfold get? at found
      split at found
      · rename_i same
        cases found
        exact same ▸ List.mem_cons_self
      · exact List.mem_cons_of_mem _ (inductionHypothesis found)

theorem get?_eq_none_iff {entries : Entries α} {name : String} :
    get? name entries = none ↔ name ∉ entries.keys := by
  induction entries with
  | nil => simp [get?, keys]
  | cons head rest inductionHypothesis =>
      by_cases same : name = head.1
      · simp [get?, keys, same]
      · simpa [get?, keys, same] using inductionHypothesis

theorem Sorted.insert {entries : Entries α} (sorted : entries.Sorted) (name : String) (value : α) :
    (Entries.insert name value entries).Sorted := by
  induction entries with
  | nil => exact List.pairwise_singleton _ _
  | cons head rest inductionHypothesis =>
      obtain ⟨other, present⟩ := head
      obtain ⟨first, others⟩ := List.pairwise_cons.mp sorted
      unfold Entries.insert
      split
      · rename_i same
        subst same
        exact List.pairwise_cons.mpr ⟨first, others⟩
      · rename_i different
        split
        · rename_i before
          refine List.pairwise_cons.mpr ⟨fun pair member => ?_, sorted⟩
          rcases List.mem_cons.mp member with rfl | later
          · exact before
          · exact String.lt_trans before (first pair later)
        · rename_i notBefore
          refine List.pairwise_cons.mpr ⟨fun pair member => ?_, inductionHypothesis others⟩
          rcases mem_insert member with rfl | later
          · by_contra notAfter
            exact different (String.le_antisymm (String.not_lt.mp notAfter)
              (String.not_lt.mp notBefore))
          · exact first pair later

/-- Sorted entries hold what a lookup finds. -/
theorem Sorted.get?_eq_some_iff {entries : Entries α} (sorted : entries.Sorted) {name : String}
    {value : α} : get? name entries = some value ↔ (name, value) ∈ entries := by
  induction entries with
  | nil => simp [get?]
  | cons head rest inductionHypothesis =>
      obtain ⟨other, present⟩ := head
      obtain ⟨first, others⟩ := List.pairwise_cons.mp sorted
      by_cases same : name = other
      · subst same
        have absent : (name, value) ∉ rest := fun member =>
          String.lt_irrefl name (first _ member)
        simp [get?, absent, eq_comm]
      · simp [get?, same, inductionHypothesis others]

theorem sorted_ofList (pairs : List (String × α)) : Sorted (ofList pairs) := by
  have preserved (entries : Entries α) (sorted : entries.Sorted) : (merge entries pairs).Sorted := by
    induction pairs generalizing entries with
    | nil => exact sorted
    | cons head rest inductionHypothesis =>
        exact inductionHypothesis _ (sorted.insert head.1 head.2)
  exact preserved [] List.Pairwise.nil

theorem merge_append (entries : Entries α) (first second : List (String × α)) :
    merge entries (first ++ second) = merge (merge entries first) second :=
  List.foldl_append

/-- What is merged goes before what was there. -/
theorem get?_merge (wanted : String) (entries : Entries α) (pairs : List (String × α)) :
    get? wanted (merge entries pairs) = (get? wanted (ofList pairs)).or (get? wanted entries) := by
  induction pairs generalizing entries with
  | nil => rfl
  | cons head rest inductionHypothesis =>
      have whole : merge entries (head :: rest) = merge (insert head.1 head.2 entries) rest := rfl
      have alone : ofList (head :: rest) = merge (insert head.1 head.2 []) rest := rfl
      rw [whole, alone, inductionHypothesis, inductionHypothesis, get?_insert, get?_insert]
      by_cases same : wanted = head.1
      · simp [same]
      · simp [same, get?]

@[simp]
theorem get?_ofList_nil (wanted : String) : get? wanted (ofList ([] : List (String × α))) = none :=
  rfl

@[simp]
theorem get?_ofList_append (wanted : String) (first second : List (String × α)) :
    get? wanted (ofList (first ++ second)) =
      (get? wanted (ofList second)).or (get? wanted (ofList first)) := by
  have merged : ofList (first ++ second) = merge (ofList first) second := merge_append [] first second
  rw [merged, get?_merge]

@[simp]
theorem get?_ofList_cons (wanted name : String) (value : α) (rest : List (String × α)) :
    get? wanted (ofList ((name, value) :: rest)) =
      (get? wanted (ofList rest)).or (if wanted = name then some value else none) :=
  get?_merge wanted [(name, value)] rest

/-- The last pair of a name gives the value under it. -/
theorem get?_ofList_eq_getLast? (wanted : String) (pairs : List (String × α)) :
    get? wanted (ofList pairs) =
      (pairs.filter fun pair => pair.1 = wanted).getLast?.map Prod.snd := by
  induction pairs with
  | nil => rfl
  | cons head rest inductionHypothesis =>
      obtain ⟨name, value⟩ := head
      rw [get?_ofList_cons, inductionHypothesis]
      by_cases same : wanted = name
      · rw [if_pos same, List.filter_cons_of_pos (by simp [same]), List.getLast?_cons]
        cases (rest.filter fun pair => pair.1 = wanted).getLast? <;> rfl
      · rw [if_neg same, List.filter_cons_of_neg (by simp [Ne.symm same]), Option.or_none]

/-- Sorted entries hold each name once, so putting them in order does not change what is found. -/
theorem Sorted.get?_ofList {entries : Entries α} (sorted : entries.Sorted) (wanted : String) :
    get? wanted (ofList entries) = get? wanted entries := by
  induction entries with
  | nil => rfl
  | cons head rest inductionHypothesis =>
      obtain ⟨name, value⟩ := head
      obtain ⟨first, others⟩ := List.pairwise_cons.mp sorted
      rw [get?_ofList_cons, inductionHypothesis others, get?]
      by_cases same : wanted = name
      · subst same
        have absent : get? wanted rest = none := by
          cases found : get? wanted rest with
          | none => rfl
          | some present => exact absurd (first _ (mem_of_get? found)) (String.lt_irrefl wanted)
        simp [absent]
      · simp [same]

theorem get?_mapValues {β : Type} (f : α → β) (wanted : String) (entries : Entries α) :
    get? wanted (mapValues f entries) = (get? wanted entries).map f := by
  induction entries with
  | nil => rfl
  | cons head rest inductionHypothesis =>
      have mapped : mapValues f (head :: rest) = (head.1, f head.2) :: mapValues f rest := rfl
      rw [mapped, get?, get?, inductionHypothesis]
      split <;> rfl

theorem Sorted.mapValues {β : Type} {entries : Entries α} (sorted : entries.Sorted) (f : α → β) :
    (Entries.mapValues f entries).Sorted :=
  List.pairwise_map.mpr sorted

/-- A choice of entries that keeps their names is sorted. -/
theorem Sorted.filterMap {β : Type} {entries : Entries α} (sorted : entries.Sorted)
    {choose : String × α → Option (String × β)}
    (keeps : ∀ pair chosen, choose pair = some chosen → chosen.1 = pair.1) :
    Entries.Sorted (entries.filterMap choose) := by
  refine List.Pairwise.filterMap _ (fun first second before one isOne other isOther => ?_) sorted
  rw [keeps first one isOne, keeps second other isOther]
  exact before

/-- Sorted entries are the same when they hold the same pairs. -/
theorem Sorted.eq_of_mem_iff {first second : Entries α} (isFirst : first.Sorted)
    (isSecond : second.Sorted) (same : ∀ pair, pair ∈ first ↔ pair ∈ second) : first = second := by
  have nodup {entries : Entries α} (sorted : entries.Sorted) : entries.Nodup := by
    refine sorted.imp fun before equal => ?_
    rw [equal] at before
    exact String.lt_irrefl _ before
  have perm := (List.perm_ext_iff_of_nodup (nodup isFirst) (nodup isSecond)).mpr same
  refine perm.eq_of_pairwise (fun earlier later _ _ before after => ?_) isFirst isSecond
  exact absurd (String.lt_trans before after) (String.lt_irrefl _)

/-- Sorted entries are the same when lookups find the same. -/
theorem Sorted.eq_of_get? {first second : Entries α} (isFirst : first.Sorted)
    (isSecond : second.Sorted) (same : ∀ name, get? name first = get? name second) :
    first = second := by
  refine isFirst.eq_of_mem_iff isSecond fun (name, value) => ?_
  rw [← isFirst.get?_eq_some_iff, ← isSecond.get?_eq_some_iff, same]

/-- Sorted entries stay as they are when they are put in order. -/
theorem Sorted.ofList_eq {entries : Entries α} (sorted : entries.Sorted) : ofList entries = entries :=
  (sorted_ofList entries).eq_of_get? sorted sorted.get?_ofList

end Entries

namespace Index

variable {κ ι : Type} [DecidableEq κ] [DecidableEq ι]

/-- An identifier that was filed is listed last under its key, unless it was listed already. -/
theorem under_file (index : Index κ ι) (key wanted : κ) (identifier : ι) :
    under wanted (file key identifier index) =
      if wanted = key ∧ identifier ∉ under key index then under key index ++ [identifier]
      else under wanted index := by
  by_cases listed : identifier ∈ under key index
  · have filed : file key identifier index = index := by
      rw [file, if_pos (by simpa using listed)]
    rw [filed, if_neg fun isNew => isNew.2 listed]
  · have filed : file key identifier index =
        Association.set key (under key index ++ [identifier]) index := by
      rw [file, if_neg (by simpa using listed)]
    rw [filed, under, Association.get?_set]
    by_cases same : wanted = key
    · rw [if_pos same, if_pos ⟨same, listed⟩, Option.getD_some]
    · rw [if_neg same, if_neg fun isNew => same isNew.1, under]

/-- An index lists the identifiers that belong to a key, each once. -/
structure Lists (index : Index κ ι) (belongs : κ → ι → Prop) : Prop where
  nodup : ∀ key, (under key index).Nodup
  mem : ∀ key identifier, identifier ∈ under key index ↔ belongs key identifier

theorem Lists.file {index : Index κ ι} {belongs : κ → ι → Prop} (lists : index.Lists belongs)
    (key : κ) (identifier : ι) :
    (Index.file key identifier index).Lists fun other listed =>
      belongs other listed ∨ other = key ∧ listed = identifier := by
  constructor
  · intro wanted
    rw [under_file]
    split
    · rename_i isNew
      refine List.nodup_append.mpr ⟨lists.nodup key, List.nodup_singleton _, ?_⟩
      intro listed member other isOther same
      rw [List.mem_singleton.mp isOther] at same
      exact isNew.2 (same ▸ member)
    · exact lists.nodup wanted
  · intro wanted listed
    rw [under_file, ← lists.mem]
    split
    · rename_i isNew
      rw [isNew.1, List.mem_append, List.mem_singleton]
      simp
    · rename_i isOld
      refine ⟨.inl, ?_⟩
      rintro (earlier | ⟨rfl, rfl⟩)
      · exact earlier
      · by_contra absent
        exact isOld ⟨rfl, absent⟩

omit [DecidableEq ι] in
theorem Lists.congr {index : Index κ ι} {belongs same : κ → ι → Prop} (lists : index.Lists belongs)
    (equal : ∀ key identifier, same key identifier ↔ belongs key identifier) : index.Lists same :=
  ⟨lists.nodup, fun key identifier => by rw [lists.mem, equal]⟩

end Index

end Statute
