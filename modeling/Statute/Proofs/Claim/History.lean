/-
This file proves what the indexes of claims hold after any row of commands.
-/

import Mathlib.Data.List.Range
import Statute.Claim.Store
import Statute.Proofs.Collections

namespace Statute

/-- What people do with the claims of a store. -/
inductive ClaimCommand
  | submit (filing : ClaimFiling)
  | approve (id : ClaimId) (verifier : String) (value : Value)
  | reject (id : ClaimId) (verifier reason : String)
  | link (id : ClaimId) (case : CaseId)
  | addEvidence (id : ClaimId) (evidence : String)

namespace ClaimStore

/-- The answer to a command. -/
def answer (store : ClaimStore) : ClaimCommand → Except CaseError (Claim × ClaimStore)
  | .submit filing => .ok (store.submit filing)
  | .approve id verifier value => store.approve id verifier value
  | .reject id verifier reason => store.reject id verifier reason
  | .link id case => store.link id case
  | .addEvidence id evidence => store.addEvidence id evidence

/-- The store after a command. One that fails changes nothing. -/
def after (store : ClaimStore) (command : ClaimCommand) : ClaimStore :=
  match store.answer command with
  | .ok (_, changed) => changed
  | .error _ => store

/-- The store after a row of commands. -/
def run (store : ClaimStore) (commands : List ClaimCommand) : ClaimStore :=
  commands.foldl after store

/-- The claims as a row of commands left them, one for each command that succeeded. -/
def versions (store : ClaimStore) : List ClaimCommand → List Claim
  | [] => []
  | command :: rest =>
      match store.answer command with
      | .ok (claim, changed) => claim :: changed.versions rest
      | .error _ => store.versions rest

/-- The stores that commands lead to. -/
def Reachable (store : ClaimStore) : Prop :=
  ∃ commands, store = empty.run commands

/-- The identifiers of the stored claims that pass a test, in the order of their first filing. -/
def idsWhere (store : ClaimStore) (test : Claim → Bool) : List ClaimId :=
  (store.claims.filter fun pair => test pair.2).map Prod.fst

/-- A claim belongs to a key when some version of it had the key. -/
def Had {κ : Type} (versions : List Claim) (has : κ → Claim → Prop) (key : κ) (id : ClaimId) : Prop :=
  ∃ version ∈ versions, version.id = id ∧ has key version

/-- Claims are numbered in the order of their first filing and keep matter and key. Services and
persons list the claims that have them, cases and claimants those that ever had them. -/
structure Filed (store : ClaimStore) (versions : List Claim) : Prop where
  numbers : store.claims.map Prod.fst = (List.range store.size).map fun place => ⟨place + 1⟩
  named : ∀ id claim, Association.get? id store.claims = some claim → claim.id = id
  latest : ∀ id claim, Association.get? id store.claims = some claim → claim ∈ versions
  identified : ∀ version ∈ versions, ∃ claim,
    Association.get? version.id store.claims = some claim
  byService : ∀ service, Index.under service store.byService =
    store.idsWhere fun claim => claim.matter.service = service
  byPerson : ∀ person, Index.under person store.byPerson =
    store.idsWhere fun claim => claim.matter.person = person
  byCase : store.byCase.Lists (Had versions fun case version => version.linkedCase = some case)
  byClaimant : store.byClaimant.Lists
    (Had versions fun claimant version => version.claimant = claimant)
  byMatter : ∀ matter key id, Entries.get? key (store.keysOf matter) = some id ↔
    ∃ claim, Association.get? id store.claims = some claim ∧ claim.matter = matter ∧
      claim.key = key
  sorted : ∀ matter, (store.keysOf matter).Sorted

/-- A claim takes the place of an earlier version of it, or it is the first claim of its matter and
key and takes the next number. -/
inductive Fits (store : ClaimStore) (claim : Claim) : Prop
  | again {earlier : Claim} (found : Association.get? claim.id store.claims = some earlier)
      (matter : earlier.matter = claim.matter) (key : earlier.key = claim.key)
  | first (next : claim.id = ⟨store.size + 1⟩)
      (absent : Entries.get? claim.key (store.keysOf claim.matter) = none)

section Had

variable {κ : Type} {has : κ → Claim → Prop} {versions : List Claim} {claim : Claim}

theorem had_append (key : κ) (id : ClaimId) :
    Had (versions ++ [claim]) has key id ↔
      Had versions has key id ∨ claim.id = id ∧ has key claim := by
  simp [Had, or_and_right, exists_or]

/-- A new version that has what an earlier one had adds nothing. -/
theorem had_append_of_mem {earlier : Claim} (member : earlier ∈ versions)
    (same : earlier.id = claim.id) (kept : ∀ key, has key claim → has key earlier) (key : κ)
    (id : ClaimId) : Had (versions ++ [claim]) has key id ↔ Had versions has key id := by
  rw [had_append, or_iff_left_iff_imp]
  rintro ⟨rfl, isHad⟩
  exact ⟨earlier, member, same, kept key isHad⟩

end Had

namespace Filed

variable {versions : List Claim} {store after : ClaimStore} {claim earlier : Claim}

theorem distinct (filed : store.Filed versions) : (store.claims.map Prod.fst).Nodup := by
  rw [filed.numbers]
  exact List.nodup_range.map fun first second same => by simpa using same

theorem next_free (filed : store.Filed versions) :
    Association.get? ⟨store.size + 1⟩ store.claims = none := by
  rw [Association.get?_eq_none_iff, filed.numbers]
  simp

theorem mem_idsWhere (filed : store.Filed versions) {test : Claim → Bool} {id : ClaimId} :
    id ∈ store.idsWhere test ↔
      ∃ claim, Association.get? id store.claims = some claim ∧ test claim = true := by
  simp only [idsWhere, List.mem_map, List.mem_filter, Prod.exists, exists_and_right,
    exists_eq_right, Association.get?_eq_some_iff filed.distinct]

/-- A claim that fits is counted among those that pass a test on its matter. -/
theorem idsWhere_put (filed : store.Filed versions) (fits : store.Fits claim)
    (claims : after.claims = Association.set claim.id claim store.claims) {test : Claim → Bool}
    (ofMatter : ∀ earlier : Claim, earlier.matter = claim.matter → test earlier = test claim) :
    after.idsWhere test =
      if test claim = true ∧ claim.id ∉ store.idsWhere test then store.idsWhere test ++ [claim.id]
      else store.idsWhere test := by
  have isThere : claim.id ∈ store.idsWhere test ↔
      ∃ found, Association.get? claim.id store.claims = some found ∧ test found = true :=
    filed.mem_idsWhere
  cases fits with
  | again found matter key =>
      have same := ofMatter _ matter
      have kept : after.idsWhere test = store.idsWhere test := by
        rw [idsWhere, claims, Association.map_filter_set found test same.symm, idsWhere]
      have listed : ¬(test claim = true ∧ claim.id ∉ store.idsWhere test) := fun isNew =>
        isNew.2 (isThere.mpr ⟨_, found, same.trans isNew.1⟩)
      rw [kept, if_neg listed]
  | first next absent =>
      have free : Association.get? claim.id store.claims = none := next ▸ filed.next_free
      have added : after.claims = store.claims ++ [(claim.id, claim)] := by
        rw [claims, Association.set_of_get?_none free]
      have isNew : claim.id ∉ store.idsWhere test := by simp [isThere, free]
      by_cases passes : test claim = true
      · have extended : after.idsWhere test = store.idsWhere test ++ [claim.id] := by
          simp [idsWhere, added, passes]
        rw [extended, if_pos ⟨passes, isNew⟩]
      · simp [idsWhere, added, passes]

/-- An index by matters that lists the stored claims lists a claim that fits once it is filed. -/
theorem under_put {index filedIndex : Index String ClaimId} {field : Claim → String}
    (filed : store.Filed versions) (fits : store.Fits claim)
    (claims : after.claims = Association.set claim.id claim store.claims)
    (ofMatter : ∀ earlier : Claim, earlier.matter = claim.matter → field earlier = field claim)
    (lists : ∀ key, Index.under key index = store.idsWhere fun claim => field claim = key)
    (files : ∀ key, Index.under key filedIndex =
      Index.under key (Index.file (field claim) claim.id index)) (key : String) :
    Index.under key filedIndex = after.idsWhere fun claim => field claim = key := by
  rw [files, Index.under_file, filed.idsWhere_put fits claims fun earlier same => by
    rw [ofMatter earlier same], lists, lists]
  by_cases same : key = field claim
  · simp [same]
  · simp [same, Ne.symm same]

/-- A claim that fits is found under its number, and every other claim as before. -/
theorem named_put (filed : store.Filed versions)
    (claims : after.claims = Association.set claim.id claim store.claims) {id : ClaimId}
    {found : Claim} (there : Association.get? id after.claims = some found) :
    found.id = id ∧ found ∈ versions ++ [claim] := by
  rw [claims, Association.get?_set] at there
  split at there
  · rename_i same
    cases there
    exact ⟨same.symm, by simp⟩
  · exact ⟨filed.named id found there, List.mem_append_left _ (filed.latest id found there)⟩

theorem numbers_put (filed : store.Filed versions) (fits : store.Fits claim)
    (claims : after.claims = Association.set claim.id claim store.claims) :
    after.claims.map Prod.fst = (List.range after.size).map fun place => ⟨place + 1⟩ := by
  rw [size, claims, Association.length_set]
  cases fits with
  | again found matter key =>
      rw [Association.map_fst_set found, found, if_pos Option.isSome_some, filed.numbers]
      rfl
  | first next absent =>
      have free : Association.get? claim.id store.claims = none := next ▸ filed.next_free
      rw [Association.set_of_get?_none free, free, List.map_append, filed.numbers]
      simp [List.range_succ, next, size]

/-- A claim that fits replaces a stored claim exactly when matter and key are the same. -/
theorem replaces_iff (filed : store.Filed versions) (fits : store.Fits claim) {id : ClaimId}
    {found : Claim} (there : Association.get? id store.claims = some found) :
    id = claim.id ↔ found.matter = claim.matter ∧ found.key = claim.key := by
  have listed : Entries.get? found.key (store.keysOf found.matter) = some id :=
    (filed.byMatter _ _ _).mpr ⟨found, there, rfl, rfl⟩
  cases fits with
  | again isEarlier matter key =>
      have earlierListed := (filed.byMatter _ _ _).mpr ⟨_, isEarlier, matter, key⟩
      constructor
      · rintro rfl
        rw [isEarlier] at there
        cases there
        exact ⟨matter, key⟩
      · rintro ⟨sameMatter, sameKey⟩
        rw [sameMatter, sameKey, earlierListed] at listed
        exact (Option.some.inj listed).symm
  | first next absent =>
      constructor
      · rintro rfl
        rw [next, filed.next_free] at there
        cases there
      · rintro ⟨sameMatter, sameKey⟩
        rw [sameMatter, sameKey, absent] at listed
        cases listed

/-- Keys lead to the claims of a matter also when a claim that fits is stored. -/
theorem byMatter_put (filed : store.Filed versions) (fits : store.Fits claim)
    (claims : after.claims = Association.set claim.id claim store.claims)
    (keys : ∀ matter key, Entries.get? key (after.keysOf matter) =
      if matter = claim.matter ∧ key = claim.key then some claim.id
      else Entries.get? key (store.keysOf matter)) (matter : Matter) (key : String) (id : ClaimId) :
    Entries.get? key (after.keysOf matter) = some id ↔
      ∃ found, Association.get? id after.claims = some found ∧ found.matter = matter ∧
        found.key = key := by
  rw [keys, claims]
  simp only [Association.get?_set]
  by_cases here : matter = claim.matter ∧ key = claim.key
  · rw [if_pos here, here.1, here.2]
    constructor
    · intro same
      exact ⟨claim, if_pos (Option.some.inj same).symm, rfl, rfl⟩
    · rintro ⟨found, there, isHere⟩
      split at there
      · rename_i same
        rw [same]
      · rename_i different
        exact absurd ((filed.replaces_iff fits there).mpr isHere) different
  · rw [if_neg here, filed.byMatter]
    constructor
    · rintro ⟨found, there, rfl, rfl⟩
      have different : id ≠ claim.id := fun same =>
        here ((filed.replaces_iff fits there).mp same)
      exact ⟨found, (if_neg different).trans there, rfl, rfl⟩
    · rintro ⟨found, there, rfl, rfl⟩
      split at there
      · cases there
        exact absurd ⟨rfl, rfl⟩ here
      · exact ⟨found, there, rfl, rfl⟩

/-- A claim that fits is put into the store and into all indexes. -/
theorem put (filed : store.Filed versions) (fits : store.Fits claim)
    (claims : after.claims = Association.set claim.id claim store.claims)
    (byService : ∀ service, Index.under service after.byService =
      Index.under service (Index.file claim.matter.service claim.id store.byService))
    (byPerson : ∀ person, Index.under person after.byPerson =
      Index.under person (Index.file claim.matter.person claim.id store.byPerson))
    (byCase : after.byCase.Lists
      (Had (versions ++ [claim]) fun case version => version.linkedCase = some case))
    (byClaimant : after.byClaimant.Lists
      (Had (versions ++ [claim]) fun claimant version => version.claimant = claimant))
    (keys : ∀ matter key, Entries.get? key (after.keysOf matter) =
      if matter = claim.matter ∧ key = claim.key then some claim.id
      else Entries.get? key (store.keysOf matter))
    (sorted : ∀ matter, (after.keysOf matter).Sorted) :
    after.Filed (versions ++ [claim]) where
  numbers := filed.numbers_put fits claims
  named := fun id found there => (filed.named_put claims there).1
  latest := fun id found there => (filed.named_put claims there).2
  identified := by
    intro version member
    rw [claims, Association.get?_set]
    split
    · exact ⟨claim, rfl⟩
    · rename_i different
      rcases List.mem_append.mp member with earlier | last
      · exact filed.identified version earlier
      · exact absurd (congrArg Claim.id (List.mem_singleton.mp last)) different
  byService := filed.under_put fits claims (fun _ same => by rw [same]) filed.byService byService
  byPerson := filed.under_put fits claims (fun _ same => by rw [same]) filed.byPerson byPerson
  byCase := byCase
  byClaimant := byClaimant
  byMatter := filed.byMatter_put fits claims keys
  sorted := sorted

/-- A claim that fits is entered in all indexes. -/
theorem enter (filed : store.Filed versions) (fits : store.Fits claim) :
    (store.enter claim).Filed (versions ++ [claim]) := by
  have keysOf (matter : Matter) : (store.enter claim).keysOf matter =
      if matter = claim.matter then Entries.insert claim.key claim.id (store.keysOf claim.matter)
      else store.keysOf matter := by
    rw [ClaimStore.keysOf, ClaimStore.enter, Association.get?_set]
    split <;> rfl
  refine filed.put fits rfl (fun _ => rfl) (fun _ => rfl) ?_ ?_ ?_ ?_
  · cases linked : claim.linkedCase with
    | none =>
        have same : (store.enter claim).byCase = store.byCase := by simp [ClaimStore.enter, linked]
        rw [same]
        exact filed.byCase.congr fun case id => by simp [had_append, linked]
    | some first =>
        have files : (store.enter claim).byCase = Index.file first claim.id store.byCase := by
          simp [ClaimStore.enter, linked]
        rw [files]
        refine (filed.byCase.file first claim.id).congr fun case id => ?_
        rw [had_append, linked, Option.some.injEq, eq_comm (a := first), eq_comm (b := id),
          and_comm]
  · refine (filed.byClaimant.file claim.claimant claim.id).congr fun claimant id => ?_
    rw [had_append, eq_comm (b := id), eq_comm (b := claimant), and_comm]
  · intro matter key
    rw [keysOf]
    by_cases same : matter = claim.matter
    · simp [same, Entries.get?_insert]
    · simp [same]
  · intro matter
    rw [keysOf]
    split
    · exact (filed.sorted claim.matter).insert claim.key claim.id
    · exact filed.sorted matter

/-- A stored claim is revised, which leaves its matter, key and claimant as they are. -/
theorem revised (filed : store.Filed versions)
    (found : Association.get? claim.id store.claims = some earlier)
    (matter : earlier.matter = claim.matter) (key : earlier.key = claim.key)
    (claimant : earlier.claimant = claim.claimant) {byCase : Index CaseId ClaimId}
    (lists : byCase.Lists
      (Had (versions ++ [claim]) fun case version => version.linkedCase = some case)) :
    { store with claims := Association.set claim.id claim store.claims, byCase }.Filed
      (versions ++ [claim]) := by
  have listed (test : Claim → Bool) (passes : test earlier = true) :
      claim.id ∈ store.idsWhere test := filed.mem_idsWhere.mpr ⟨earlier, found, passes⟩
  have keyed := (filed.byMatter _ _ _).mpr ⟨earlier, found, matter, key⟩
  refine filed.put (.again found matter key) rfl ?_ ?_ lists ?_ ?_ filed.sorted
  · intro service
    rw [Index.under_file, filed.byService claim.matter.service, if_neg]
    exact fun isNew => isNew.2 (listed _ (by simp [matter]))
  · intro person
    rw [Index.under_file, filed.byPerson claim.matter.person, if_neg]
    exact fun isNew => isNew.2 (listed _ (by simp [matter]))
  · exact filed.byClaimant.congr fun other id =>
      had_append_of_mem (filed.latest _ _ found) (filed.named _ _ found)
        (fun _ has => claimant.trans has) other id
  · intro other name
    split
    · rename_i here
      rw [here.1, here.2]
      exact keyed
    · rfl

/-- A filing fits, since it takes the number of the claim that it replaces. -/
theorem fits_submit (filed : store.Filed versions) (filing : ClaimFiling) :
    store.Fits (store.submit filing).1 := by
  have matter : (store.submit filing).1.matter = filing.matter := by
    unfold submit
    split <;> rfl
  have key : (store.submit filing).1.key = filing.key := by
    unfold submit
    split <;> rfl
  have id : (store.submit filing).1.id = store.idFor filing := by
    unfold submit
    split <;> rfl
  cases keyed : Entries.get? filing.key (store.keysOf filing.matter) with
  | none =>
      refine .first ?_ (by rw [matter, key, keyed])
      rw [id, idFor, keyed]
      rfl
  | some number =>
      obtain ⟨earlier, found, sameMatter, sameKey⟩ := (filed.byMatter _ _ _).mp keyed
      have isEarlier : store.idFor filing = number := by
        rw [idFor, keyed, Option.bind_some, found]
        exact filed.named number earlier found
      exact .again (by rw [id, isEarlier, found]) (sameMatter.trans matter.symm)
        (sameKey.trans key.symm)

theorem change_ok {id : ClaimId} {update : Claim → Except CaseError Claim} {changed : Claim}
    (isChanged : store.change id update = .ok (changed, after)) :
    ∃ claim, Association.get? id store.claims = some claim ∧ update claim = .ok changed ∧
      after = { store with claims := Association.set id changed store.claims } := by
  unfold change ClaimStore.claim at isChanged
  cases found : Association.get? id store.claims with
  | none => simp [found, bind, Except.bind] at isChanged
  | some claim =>
      cases updated : update claim with
      | error error => simp [found, updated, bind, Except.bind] at isChanged
      | ok result =>
          simp only [found, updated, bind, Except.bind, pure, Except.pure, Except.ok.injEq,
            Prod.mk.injEq] at isChanged
          obtain ⟨rfl, rfl⟩ := isChanged
          exact ⟨claim, rfl, updated, rfl⟩

/-- A change that leaves matter, key, claimant and case as they are revises a claim. -/
theorem change (filed : store.Filed versions) {id : ClaimId}
    {update : Claim → Except CaseError Claim}
    (isChanged : store.change id update = .ok (claim, after))
    (keeps : ∀ earlier changed, update earlier = .ok changed → changed.id = earlier.id ∧
      changed.matter = earlier.matter ∧ changed.key = earlier.key ∧
      changed.claimant = earlier.claimant ∧ changed.linkedCase = earlier.linkedCase) :
    after.Filed (versions ++ [claim]) := by
  obtain ⟨earlier, found, updated, rfl⟩ := change_ok isChanged
  obtain ⟨sameId, matter, key, claimant, linked⟩ := keeps _ _ updated
  obtain rfl : claim.id = id := sameId.trans (filed.named id earlier found)
  refine filed.revised found matter.symm key.symm claimant.symm ?_
  exact filed.byCase.congr fun case id =>
    had_append_of_mem (filed.latest _ _ found) (filed.named _ _ found)
      (fun _ has => linked.symm.trans has) case id

/-- Only a claim without a case is linked to one. -/
theorem link_ok {id : ClaimId} {case : CaseId}
    (isLinked : store.link id case = .ok (claim, after)) :
    ∃ earlier, Association.get? id store.claims = some earlier ∧ earlier.linkedCase = none ∧
      claim = { earlier with linkedCase := some case } ∧
      after = { store with
        claims := Association.set id claim store.claims
        byCase := Index.file case id store.byCase } := by
  unfold ClaimStore.link at isLinked
  cases changed : store.change id (Claim.link case) with
  | error error => simp [changed, bind, Except.bind] at isLinked
  | ok pair =>
      obtain ⟨linked, between⟩ := pair
      simp only [changed, bind, Except.bind, pure, Except.pure, Except.ok.injEq,
        Prod.mk.injEq] at isLinked
      obtain ⟨rfl, rfl⟩ := isLinked
      obtain ⟨earlier, found, updated, rfl⟩ := change_ok changed
      unfold Claim.link at updated
      cases before : earlier.linkedCase with
      | some other => simp [before] at updated
      | none =>
          rw [before] at updated
          exact ⟨earlier, found, before, (Except.ok.inj updated).symm, rfl⟩

/-- A claim that is linked to a case is filed under it. -/
theorem link (filed : store.Filed versions) {id : ClaimId} {case : CaseId}
    (isLinked : store.link id case = .ok (claim, after)) : after.Filed (versions ++ [claim]) := by
  obtain ⟨earlier, found, _, isNew, rfl⟩ := link_ok isLinked
  have sameId : claim.id = id := by rw [isNew, filed.named id earlier found]
  have sameMatter : earlier.matter = claim.matter := by rw [isNew]
  have sameKey : earlier.key = claim.key := by rw [isNew]
  have sameClaimant : earlier.claimant = claim.claimant := by rw [isNew]
  have hasCase : claim.linkedCase = some case := by rw [isNew]
  subst sameId
  refine filed.revised found sameMatter sameKey sameClaimant
    ((filed.byCase.file case claim.id).congr fun other id => ?_)
  rw [had_append, hasCase, Option.some.injEq, eq_comm (a := case), eq_comm (b := id), and_comm]

theorem answer (filed : store.Filed versions) {command : ClaimCommand}
    (answered : store.answer command = .ok (claim, after)) : after.Filed (versions ++ [claim]) := by
  cases command with
  | submit filing =>
      cases answered
      exact filed.enter (filed.fits_submit filing)
  | approve id verifier value =>
      refine filed.change answered fun earlier changed updated => ?_
      cases updated
      exact ⟨rfl, rfl, rfl, rfl, rfl⟩
  | reject id verifier reason =>
      refine filed.change answered fun earlier changed updated => ?_
      cases updated
      exact ⟨rfl, rfl, rfl, rfl, rfl⟩
  | link id case => exact filed.link answered
  | addEvidence id evidence =>
      refine filed.change answered fun earlier changed updated => ?_
      unfold Claim.addEvidence at updated
      split at updated
      · cases updated
        exact ⟨rfl, rfl, rfl, rfl, rfl⟩
      · cases updated

/-- A change that keeps the identifier of a claim stores the claim under it. -/
theorem change_named (filed : store.Filed versions) {id : ClaimId}
    {update : Claim → Except CaseError Claim}
    (isChanged : store.change id update = .ok (claim, after))
    (sameId : ∀ earlier, update earlier = .ok claim → claim.id = earlier.id) :
    ∃ earlier, Association.get? claim.id store.claims = some earlier ∧ update earlier = .ok claim ∧
      after.claims = Association.set claim.id claim store.claims := by
  obtain ⟨earlier, found, updated, rfl⟩ := change_ok isChanged
  obtain rfl : claim.id = id := (sameId _ updated).trans (filed.named id earlier found)
  exact ⟨earlier, found, updated, rfl⟩

theorem approve_ok (filed : store.Filed versions) {id : ClaimId} {verifier : String} {value : Value}
    (approved : store.approve id verifier value = .ok (claim, after)) :
    ∃ earlier, Association.get? claim.id store.claims = some earlier ∧
      claim = earlier.approve verifier value ∧
      after.claims = Association.set claim.id claim store.claims := by
  obtain ⟨earlier, found, updated, isSet⟩ :=
    filed.change_named approved fun _ updated => by cases updated; rfl
  exact ⟨earlier, found, (Except.ok.inj updated).symm, isSet⟩

theorem reject_ok (filed : store.Filed versions) {id : ClaimId} {verifier reason : String}
    (rejected : store.reject id verifier reason = .ok (claim, after)) :
    ∃ earlier, Association.get? claim.id store.claims = some earlier ∧
      claim = earlier.reject verifier reason ∧
      after.claims = Association.set claim.id claim store.claims := by
  obtain ⟨earlier, found, updated, isSet⟩ :=
    filed.change_named rejected fun _ updated => by cases updated; rfl
  exact ⟨earlier, found, (Except.ok.inj updated).symm, isSet⟩

theorem addEvidence_ok (filed : store.Filed versions) {id : ClaimId} {evidence : String}
    (added : store.addEvidence id evidence = .ok (claim, after)) :
    ∃ earlier, Association.get? claim.id store.claims = some earlier ∧
      claim = { earlier with evidence := some evidence } ∧
      after.claims = Association.set claim.id claim store.claims := by
  have updates (earlier : Claim) (updated : earlier.addEvidence evidence = .ok claim) :
      claim = { earlier with evidence := some evidence } := by
    unfold Claim.addEvidence at updated
    split at updated
    · exact (Except.ok.inj updated).symm
    · cases updated
  obtain ⟨earlier, found, updated, isSet⟩ :=
    filed.change_named added fun earlier updated => by rw [updates earlier updated]
  exact ⟨earlier, found, updates earlier updated, isSet⟩

/-- A command that succeeds stores its claim under the claim's identifier. -/
theorem answer_claims (filed : store.Filed versions) {command : ClaimCommand}
    (answered : store.answer command = .ok (claim, after)) :
    after.claims = Association.set claim.id claim store.claims := by
  cases command with
  | submit filing => cases answered; rfl
  | approve id verifier value =>
      obtain ⟨_, _, _, isSet⟩ := filed.approve_ok answered
      exact isSet
  | reject id verifier reason =>
      obtain ⟨_, _, _, isSet⟩ := filed.reject_ok answered
      exact isSet
  | link id case =>
      obtain ⟨earlier, found, _, isNew, rfl⟩ := link_ok answered
      rw [show claim.id = id by rw [isNew, filed.named id earlier found]]
  | addEvidence id evidence =>
      obtain ⟨_, _, _, isSet⟩ := filed.addEvidence_ok answered
      exact isSet

theorem get?_answer (filed : store.Filed versions) {command : ClaimCommand}
    (answered : store.answer command = .ok (claim, after)) (id : ClaimId) :
    Association.get? id after.claims =
      if id = claim.id then some claim else Association.get? id store.claims := by
  rw [filed.answer_claims answered, Association.get?_set]

theorem empty : ClaimStore.empty.Filed [] := by
  refine ⟨rfl, ?_, ?_, ?_, ?_, ?_, ⟨?_, ?_⟩, ⟨?_, ?_⟩, ?_, ?_⟩ <;>
    simp [ClaimStore.empty, Association.get?, Entries.get?, Index.under, idsWhere, Had, keysOf,
      Entries.Sorted]

theorem run (filed : store.Filed versions) (commands : List ClaimCommand) :
    (store.run commands).Filed (versions ++ store.versions commands) := by
  induction commands generalizing store versions with
  | nil =>
      rw [ClaimStore.versions, List.append_nil]
      exact filed
  | cons command rest inductionHypothesis =>
      rw [ClaimStore.run, List.foldl_cons, ClaimStore.after, ClaimStore.versions]
      cases answered : store.answer command with
      | error error => exact inductionHypothesis filed
      | ok pair =>
          obtain ⟨claim, changed⟩ := pair
          rw [List.append_cons]
          exact inductionHypothesis (filed.answer answered)

end Filed

end ClaimStore

end Statute
