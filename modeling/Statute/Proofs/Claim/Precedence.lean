/-
This file proves which claim evaluations use where several claims give a value for one key.
-/

import Statute.Proofs.Claim.Assertions

namespace Statute

/-- The value of a matter that a filing is about. -/
def ClaimFiling.subject (filing : ClaimFiling) : Matter × String :=
  (filing.matter, filing.key)

/-- The value of a matter that a command files a claim about. -/
def ClaimCommand.filed? : ClaimCommand → Option (Matter × String)
  | .submit filing => some filing.subject
  | _ => none

namespace Claim

/-- The value of a matter that a claim is about. -/
def subject (claim : Claim) : Matter × String :=
  (claim.matter, claim.key)

/-- An approved claim has a value that its verifier accepted. -/
def IsVerified (claim : Claim) : Prop :=
  claim.status = .approved → claim.verifiedValue.isSome = true

theorem isVerified_approve (verifier : String) (value : Value) (claim : Claim) :
    (claim.approve verifier value).IsVerified :=
  fun _ => rfl

/-- Evaluations use the accepted value of a claim that is approved. -/
theorem IsVerified.effectiveValue {claim : Claim} (verified : claim.IsVerified)
    (approved : claim.status = .approved) : claim.verifiedValue = some claim.effectiveValue := by
  obtain ⟨value, accepted⟩ := Option.isSome_iff_exists.mp (verified approved)
  rw [Claim.effectiveValue, approved, accepted]

/-- Evaluations use the claimed value of a claim that waits for its review. -/
theorem effectiveValue_of_pending {claim : Claim} (pending : claim.status = .pending) :
    claim.effectiveValue = claim.newValue := by
  rw [Claim.effectiveValue, pending]

end Claim

namespace ClaimStore

/-- The claim that gives evaluations for a matter the value under a key. It is the claim about that
very value if this one counts, and else the last of all that were filed about the person under the
key, counted by first filings. -/
def prevailing? (store : ClaimStore) (matter : Matter) (approvedOnly : Bool) (key : String) :
    Option Claim :=
  (store.stored.find? fun claim => claim.subject = (matter, key) && claim.counts approvedOnly).or
    (store.stored.filter fun claim =>
      claim.matter.person = matter.person && claim.key = key && claim.counts approvedOnly).getLast?

/-- Some claim prevails as soon as one about the person counts. -/
theorem prevailing?_isSome (store : ClaimStore) (matter : Matter) (approvedOnly : Bool)
    (key : String) :
    (store.prevailing? matter approvedOnly key).isSome = true ↔
      ∃ claim ∈ store.stored, claim.matter.person = matter.person ∧ claim.key = key ∧
        claim.counts approvedOnly = true := by
  rw [prevailing?, Option.isSome_or, Bool.or_eq_true, List.find?_isSome, List.getLast?_isSome,
    ne_eq, List.filter_eq_nil_iff]
  simp only [Bool.and_eq_true, decide_eq_true_eq, and_assoc, not_forall, not_not, exists_prop]
  refine or_iff_right_of_imp ?_
  rintro ⟨claim, member, isAbout, counted⟩
  obtain ⟨rfl, rfl⟩ := Prod.mk.inj isAbout
  exact ⟨claim, member, rfl, rfl, counted⟩

namespace Filed

variable {versions : List Claim} {store after : ClaimStore} {claim : Claim}

/-- A claim that fits keeps the place of an earlier one about the same value, or comes last. -/
theorem subjects_put (filed : store.Filed versions) (fits : store.Fits claim)
    (claims : after.claims = Association.set claim.id claim store.claims) :
    after.stored.map Claim.subject =
      if claim.subject ∈ store.stored.map Claim.subject then store.stored.map Claim.subject
      else store.stored.map Claim.subject ++ [claim.subject] := by
  cases fits with
  | @again earlier found matter key =>
      have same : claim.subject = earlier.subject := by
        rw [Claim.subject, Claim.subject, matter, key]
      have member : earlier ∈ store.stored := by
        rw [filed.mem_stored, filed.named _ _ found, found]
      rw [if_pos (List.mem_map.mpr ⟨earlier, member, same.symm⟩), stored, claims]
      exact Association.map_values_set found Claim.subject same
  | first next absent =>
      have isNew : claim.subject ∉ store.stored.map Claim.subject := by
        intro member
        obtain ⟨earlier, isStored, same⟩ := List.mem_map.mp member
        obtain ⟨matter, key⟩ := Prod.mk.inj same
        have listed := (filed.byMatter _ _ _).mpr
          ⟨earlier, filed.mem_stored.mp isStored, matter, key⟩
        rw [absent] at listed
        cases listed
      have free : Association.get? claim.id store.claims = none := next ▸ filed.next_free
      rw [if_neg isNew, stored, claims, Association.set_of_get?_none free]
      simp [stored, Association.values]

/-- A command that files nothing revises a stored claim about the same value. -/
theorem revises (filed : store.Filed versions) {command : ClaimCommand}
    (noFiling : command.filed? = none) (answered : store.answer command = .ok (claim, after)) :
    ∃ earlier, Association.get? claim.id store.claims = some earlier ∧
      earlier.subject = claim.subject := by
  cases command with
  | submit filing => cases noFiling
  | approve id verifier value =>
      obtain ⟨earlier, found, rfl, _⟩ := filed.approve_ok answered
      exact ⟨earlier, found, rfl⟩
  | reject id verifier reason =>
      obtain ⟨earlier, found, rfl, _⟩ := filed.reject_ok answered
      exact ⟨earlier, found, rfl⟩
  | link id case =>
      obtain ⟨earlier, found, _, rfl, _⟩ := link_ok answered
      exact ⟨earlier, by rw [← found, ← filed.named id earlier found], rfl⟩
  | addEvidence id evidence =>
      obtain ⟨earlier, found, rfl, _⟩ := filed.addEvidence_ok answered
      exact ⟨earlier, found, rfl⟩

/-- Only the first filing about a value adds a claim. -/
theorem subjects_submit (filed : store.Filed versions) (filing : ClaimFiling) :
    (store.submit filing).2.stored.map Claim.subject =
      if filing.subject ∈ store.stored.map Claim.subject then store.stored.map Claim.subject
      else store.stored.map Claim.subject ++ [filing.subject] := by
  have isAbout : (store.submit filing).1.subject = filing.subject := by
    unfold ClaimStore.submit
    split <;> rfl
  rw [← isAbout]
  exact filed.subjects_put (filed.fits_submit filing) rfl

/-- A command that files nothing leaves the values that claims are about as they are. -/
theorem subjects_after (filed : store.Filed versions) {command : ClaimCommand}
    (noFiling : command.filed? = none) :
    (store.after command).stored.map Claim.subject = store.stored.map Claim.subject := by
  rw [ClaimStore.after]
  cases answered : store.answer command with
  | error error => rfl
  | ok pair =>
      obtain ⟨claim, changed⟩ := pair
      obtain ⟨earlier, found, same⟩ := filed.revises noFiling answered
      rw [stored, filed.answer_claims answered]
      exact Association.map_values_set found Claim.subject same.symm

/-- There is one claim for each value that claims were filed about. -/
theorem eq_of_subject {first second : Claim} (distinct : (store.stored.map Claim.subject).Nodup)
    (isFirst : first ∈ store.stored) (isSecond : second ∈ store.stored)
    (same : first.subject = second.subject) : first = second :=
  List.inj_on_of_nodup_map distinct isFirst isSecond same

/-- A lookup of a matter's claims gives the claim about the value, if it passes the filter. -/
theorem get?_ofMatter (filed : store.Filed versions) (matter : Matter) (filter : ClaimFilter)
    (key : String) (claim : Claim) :
    Entries.get? key (store.ofMatter matter filter) = some claim ↔
      claim ∈ store.stored ∧ claim.subject = (matter, key) ∧
        filter.admits claim.status = true := by
  rw [(filed.sorted_ofMatter matter filter).get?_eq_some_iff, filed.mem_ofMatter, Claim.subject,
    Prod.mk.injEq, and_assoc]

/-- The claim about the value itself is found among all stored claims. -/
theorem get?_ofMatter_eq_find? (filed : store.Filed versions)
    (distinct : (store.stored.map Claim.subject).Nodup) (matter : Matter) (approvedOnly : Bool)
    (key : String) :
    Entries.get? key (store.ofMatter matter ⟨approvedOnly, false⟩) =
      store.stored.find? fun claim =>
        claim.subject = (matter, key) && claim.counts approvedOnly := by
  refine Option.ext fun claim => ?_
  rw [filed.get?_ofMatter, Claim.admits_status]
  constructor
  · rintro ⟨member, isAbout, counted⟩
    cases found : store.stored.find? fun claim =>
        claim.subject = (matter, key) && claim.counts approvedOnly with
    | none =>
        have absent := List.find?_eq_none.mp found claim member
        simp [isAbout, counted] at absent
    | some other =>
        have passes := List.find?_some found
        simp only [Bool.and_eq_true, decide_eq_true_eq] at passes
        rw [eq_of_subject distinct (List.mem_of_find?_eq_some found) member
          (passes.1.trans isAbout.symm)]
  · intro found
    have passes := List.find?_some found
    simp only [Bool.and_eq_true, decide_eq_true_eq] at passes
    exact ⟨List.mem_of_find?_eq_some found, passes⟩

/-- What is claimed about a person anywhere is the value of the last claim. -/
theorem get?_anywhere (filed : store.Filed versions) (person : String) (approvedOnly : Bool)
    (key : String) :
    Entries.get? key (Entries.ofList ((store.ofPerson person ⟨approvedOnly, false⟩).map fun claim =>
        (claim.key, claim.effectiveValue))) =
      ((store.stored.filter fun claim =>
        claim.matter.person = person && claim.key = key && claim.counts approvedOnly).getLast?).map
          Claim.effectiveValue := by
  have chosen : (store.ofPerson person ⟨approvedOnly, false⟩).filter (fun claim => claim.key = key) =
      store.stored.filter fun claim =>
        claim.matter.person = person && claim.key = key && claim.counts approvedOnly := by
    rw [filed.ofPerson, List.filter_filter]
    refine List.filter_congr fun claim _ => ?_
    rw [Claim.admits_status]
    cases decide (claim.matter.person = person) <;> cases decide (claim.key = key) <;> simp
  rw [Entries.get?_ofList_eq_getLast?, List.filter_map, List.getLast?_map, Option.map_map, ← chosen]
  rfl

/-- The values of a matter are those of the claims that prevail. -/
theorem get?_values (filed : store.Filed versions)
    (distinct : (store.stored.map Claim.subject).Nodup) (matter : Matter) (approvedOnly : Bool)
    (key : String) :
    Entries.get? key (store.values matter approvedOnly) =
      (store.prevailing? matter approvedOnly key).map Claim.effectiveValue := by
  have sorted := (filed.sorted_ofMatter matter ⟨approvedOnly, false⟩).mapValues Claim.effectiveValue
  rw [values, Entries.get?_merge, sorted.get?_ofList, Entries.get?_mapValues, filed.get?_anywhere,
    filed.get?_ofMatter_eq_find? distinct, prevailing?, Option.map_or]

/-- A command leaves its claim with an accepted value if it is approved. -/
theorem answer_verified (filed : store.Filed versions)
    (verified : ∀ version ∈ versions, version.IsVerified) {command : ClaimCommand}
    (answered : store.answer command = .ok (claim, after)) : claim.IsVerified := by
  cases command with
  | submit filing =>
      cases answered
      split
      · exact Claim.isVerified_approve _ _ _
      · exact fun approved => nomatch approved
  | approve id verifier value =>
      obtain ⟨earlier, found, rfl, _⟩ := filed.approve_ok answered
      exact Claim.isVerified_approve _ _ _
  | reject id verifier reason =>
      obtain ⟨earlier, found, rfl, _⟩ := filed.reject_ok answered
      exact fun approved => nomatch approved
  | link id case =>
      obtain ⟨earlier, found, _, rfl, _⟩ := link_ok answered
      exact verified earlier (filed.latest _ _ found)
  | addEvidence id evidence =>
      obtain ⟨earlier, found, rfl, _⟩ := filed.addEvidence_ok answered
      exact verified earlier (filed.latest _ _ found)

end Filed

/-- Every version of a claim that is approved has an accepted value. -/
theorem run_verified (commands : List ClaimCommand) :
    ∀ version ∈ empty.versions commands, version.IsVerified := by
  have running {store : ClaimStore} {versions : List Claim} (filed : store.Filed versions)
      (verified : ∀ version ∈ versions, version.IsVerified) (commands : List ClaimCommand) :
      ∀ version ∈ store.versions commands, version.IsVerified := by
    induction commands generalizing store versions with
    | nil =>
        intro version member
        cases member
    | cons command rest inductionHypothesis =>
        unfold ClaimStore.versions
        cases answered : store.answer command with
        | error error => exact inductionHypothesis filed verified
        | ok pair =>
            obtain ⟨claim, changed⟩ := pair
            have isVerified := filed.answer_verified verified answered
            refine List.forall_mem_cons.mpr
              ⟨isVerified, inductionHypothesis (filed.answer answered) ?_⟩
            simpa [or_imp, forall_and] using ⟨verified, isVerified⟩
  refine running Filed.empty ?_ commands
  intro version member
  cases member

/-- Claims are kept in the order in which the values that they are about were first claimed. -/
theorem run_subjects (commands : List ClaimCommand) :
    (empty.run commands).stored.map Claim.subject =
      (commands.filterMap ClaimCommand.filed?).eraseDups := by
  induction commands using List.reverseRecOn with
  | nil => rfl
  | append_singleton commands command inductionHypothesis =>
      have filed := Filed.empty.run commands
      have last : empty.run (commands ++ [command]) = (empty.run commands).after command := by
        rw [ClaimStore.run, List.foldl_append]
        rfl
      rw [last, List.filterMap_append]
      cases files : command.filed? with
      | none =>
          rw [filed.subjects_after files, inductionHypothesis, List.filterMap_cons_none files,
            List.filterMap_nil, List.append_nil]
      | some subject =>
          rw [List.filterMap_cons_some files, List.filterMap_nil, eraseDups_concat,
            ← inductionHypothesis]
          cases command with
          | submit filing =>
              cases files
              exact filed.subjects_submit filing
          | approve => cases files
          | reject => cases files
          | link => cases files
          | addEvidence => cases files

/-- Whatever is done to claims, there is one for each value that was claimed, in the order of first
filings. A matter's claims are found under their keys if they pass the filter. An evaluation uses
under a key what was accepted, or is claimed and waits for review, in the claim about that very value,
or else in the last one about the person under the key, and it finds something there as soon as one of
them counts. -/
theorem run_values (commands : List ClaimCommand) :
    let store := empty.run commands
    (store.stored.map Claim.subject = (commands.filterMap ClaimCommand.filed?).eraseDups ∧
      store.stored.Pairwise fun first second => first.subject ≠ second.subject) ∧
    (∀ matter filter key claim, Entries.get? key (store.ofMatter matter filter) = some claim ↔
      claim ∈ store.stored ∧ claim.subject = (matter, key) ∧ filter.admits claim.status = true) ∧
    (∀ matter approvedOnly key, Entries.get? key (store.values matter approvedOnly) =
      (store.prevailing? matter approvedOnly key).map Claim.effectiveValue) ∧
    (∀ claim ∈ store.stored,
      (claim.status = .approved → claim.verifiedValue = some claim.effectiveValue) ∧
      (claim.status = .pending → claim.effectiveValue = claim.newValue)) ∧
    ∀ matter approvedOnly key,
      (Entries.get? key (store.values matter approvedOnly)).isSome = true ↔
        ∃ claim ∈ store.stored, claim.matter.person = matter.person ∧ claim.key = key ∧
          claim.counts approvedOnly = true := by
  intro store
  have filed : store.Filed (empty.versions commands) := Filed.empty.run commands
  have subjects := run_subjects commands
  have distinct : (store.stored.map Claim.subject).Nodup := by
    rw [subjects]
    exact nodup_eraseDups _
  refine ⟨⟨subjects, List.pairwise_map.mp distinct⟩, filed.get?_ofMatter,
    filed.get?_values distinct, fun claim member => ⟨fun approved => ?_, fun pending => ?_⟩,
    fun matter approvedOnly key => ?_⟩
  · have verified := run_verified commands claim (filed.latest _ _ (filed.mem_stored.mp member))
    exact verified.effectiveValue approved
  · exact Claim.effectiveValue_of_pending pending
  · rw [filed.get?_values distinct, Option.isSome_map, prevailing?_isSome]

end ClaimStore

end Statute
