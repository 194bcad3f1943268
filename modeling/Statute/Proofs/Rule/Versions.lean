/-
This file proves which version of a law a catalog selects, and that the order in which versions are added
does not matter as long as each version of a law is valid from a date of its own.
-/

import Mathlib.Data.List.Induction
import Mathlib.Data.List.Pairwise
import Mathlib.Order.Basic
import Statute.Proofs.Collections
import Statute.Proofs.Date.Order
import Statute.Rule.Catalog

namespace Statute

namespace Rule

/-- Of the added versions of a law that are valid on a date, the one in force is valid from the latest
date, and was added last of those valid from that date. -/
structure IsInForce (rules : List Rule) (law : String) (date : Date) (rule : Rule) : Prop where
  isOf : rule.law = law
  isValid : rule.validFrom ≤ date
  latest : ∃ before after, rules = before ++ rule :: after ∧
    (∀ other ∈ before, other.law = law → other.validFrom ≤ date →
      other.validFrom ≤ rule.validFrom) ∧
    ∀ other ∈ after, other.law = law → other.validFrom ≤ date → other.validFrom < rule.validFrom

variable {rules : List Rule} {law : String} {date : Date} {rule added : Rule}

namespace IsInForce

/-- No version that is valid on the date is valid from a later one. -/
theorem atLeast (inForce : IsInForce rules law date rule) :
    ∀ other ∈ rules, other.law = law → other.validFrom ≤ date →
      other.validFrom ≤ rule.validFrom := by
  obtain ⟨before, after, rfl, noneBefore, noneAfter⟩ := inForce.latest
  intro other member isOf isValid
  rcases List.mem_append.mp member with earlier | present
  · exact noneBefore other earlier isOf isValid
  · rcases List.mem_cons.mp present with rfl | later
    · exact le_rfl
    · exact (noneAfter other later isOf isValid).le

theorem mem (inForce : IsInForce rules law date rule) : rule ∈ rules := by
  obtain ⟨before, after, rfl, -⟩ := inForce.latest
  simp

/-- Only one version is in force. -/
theorem unique {other : Rule} (inForce : IsInForce rules law date rule)
    (otherInForce : IsInForce rules law date other) : rule = other := by
  obtain ⟨before, after, whole, -, noneAfter⟩ := inForce.latest
  obtain ⟨otherBefore, otherAfter, otherWhole, -, noOtherAfter⟩ := otherInForce.latest
  -- the one that was added later would be valid from a later date
  have ordered {before after otherBefore otherAfter : List Rule} {rule other : Rule}
      (same : before ++ rule :: after = otherBefore ++ other :: otherAfter) :
      rule = other ∨ other ∈ after ∨ rule ∈ otherAfter := by
    rcases List.append_eq_append_iff.mp same with ⟨between, -, rest⟩ | ⟨between, -, rest⟩
    · cases between with
      | nil => exact .inl (List.cons.inj rest).1
      | cons first others =>
          obtain ⟨-, rfl⟩ := List.cons.inj rest
          exact .inr (.inl (by simp))
    · cases between with
      | nil => exact .inl (List.cons.inj rest).1.symm
      | cons first others =>
          obtain ⟨-, rfl⟩ := List.cons.inj rest
          exact .inr (.inr (by simp))
  rcases ordered (whole.symm.trans otherWhole) with same | later | otherLater
  · exact same
  · exact absurd (noneAfter other later otherInForce.isOf otherInForce.isValid)
      (otherInForce.atLeast rule inForce.mem inForce.isOf inForce.isValid).not_gt
  · exact absurd (noOtherAfter rule otherLater inForce.isOf inForce.isValid)
      (inForce.atLeast other otherInForce.mem otherInForce.isOf otherInForce.isValid).not_gt

/-- A version that is added takes over when it is valid from no earlier date. -/
theorem ofAdded (isOf : added.law = law) (isValid : added.validFrom ≤ date)
    (latest : ∀ other ∈ rules, other.law = law → other.validFrom ≤ date →
      other.validFrom ≤ added.validFrom) :
    IsInForce (rules ++ [added]) law date added := by
  refine ⟨isOf, isValid, rules, [], rfl, latest, fun other member => ?_⟩
  cases member

/-- Otherwise the version in force stays the same. -/
theorem stays (inForce : IsInForce rules law date rule)
    (older : added.law = law → added.validFrom ≤ date → added.validFrom < rule.validFrom) :
    IsInForce (rules ++ [added]) law date rule := by
  obtain ⟨isOf, isValid, before, after, rfl, noneBefore, noneAfter⟩ := inForce
  refine ⟨isOf, isValid, before, after ++ [added], by simp, noneBefore, fun other member => ?_⟩
  rcases List.mem_append.mp member with earlier | isLast
  · exact noneAfter other earlier
  · rw [List.mem_singleton.mp isLast]
    exact older

end IsInForce

end Rule

namespace Catalog

variable {catalog : Catalog} {rules : List Rule} {law : String} {date : Date}

/-- The versions of a law. -/
def versions (catalog : Catalog) (law : String) : List Rule :=
  (Entries.get? law catalog).getD []

/-- The versions stand in the order of the dates from which they are valid. -/
def InOrder (versions : List Rule) : Prop :=
  versions.Pairwise fun first second => first.validFrom ≤ second.validFrom

theorem insertVersion_perm (rule : Rule) (versions : List Rule) :
    (insertVersion rule versions).Perm (rule :: versions) := by
  induction versions with
  | nil => rfl
  | cons first rest inductionHypothesis =>
      rw [insertVersion]
      split
      · rfl
      · exact (inductionHypothesis.cons first).trans (List.Perm.swap rule first rest)

theorem InOrder.insertVersion {versions : List Rule} (inOrder : InOrder versions) (rule : Rule) :
    InOrder (insertVersion rule versions) := by
  induction versions with
  | nil => exact List.pairwise_singleton _ _
  | cons first rest inductionHypothesis =>
      obtain ⟨least, others⟩ := List.pairwise_cons.mp inOrder
      rw [Catalog.insertVersion]
      split
      · rename_i before
        refine List.pairwise_cons.mpr ⟨fun version member => ?_, inOrder⟩
        have later : rule.validFrom < first.validFrom := Date.isBefore_iff_lt.mp before
        rcases List.mem_cons.mp member with rfl | behind
        · exact later.le
        · exact later.le.trans (least version behind)
      · rename_i notBefore
        refine List.pairwise_cons.mpr ⟨fun version member => ?_, inductionHypothesis others⟩
        have atMost : first.validFrom ≤ rule.validFrom := not_lt.mp notBefore
        rcases List.mem_cons.mp ((insertVersion_perm rule rest).mem_iff.mp member) with rfl | behind
        · exact atMost
        · exact least version behind

/-- The last version that is valid on a date. -/
def latest? (date : Date) (versions : List Rule) : Option Rule :=
  versions.reverse.find? fun rule => rule.validFrom.isAtMost date

theorem latest?_cons (first : Rule) (rest : List Rule) :
    latest? date (first :: rest) =
      (latest? date rest).or (if first.validFrom ≤ date then some first else none) := by
  rw [latest?, List.reverse_cons, List.find?_append, List.find?_singleton]
  rfl

theorem mem_of_latest? {versions : List Rule} {rule : Rule}
    (isLatest : latest? date versions = some rule) : rule ∈ versions :=
  List.mem_reverse.mp (List.mem_of_find?_eq_some isLatest)

/-- A version that is put in its place becomes the last valid one unless a valid one is valid from a
later date. -/
theorem InOrder.latest?_insertVersion {versions : List Rule} (inOrder : InOrder versions)
    (rule : Rule) :
    latest? date (Catalog.insertVersion rule versions) =
      if rule.validFrom ≤ date ∧
          ∀ version ∈ latest? date versions, version.validFrom ≤ rule.validFrom then some rule
      else latest? date versions := by
  induction versions with
  | nil =>
      rw [Catalog.insertVersion, latest?_cons]
      simp [latest?]
  | cons first rest inductionHypothesis =>
      obtain ⟨least, others⟩ := List.pairwise_cons.mp inOrder
      rw [Catalog.insertVersion]
      split
      · rename_i before
        have later : rule.validFrom < first.validFrom := Date.isBefore_iff_lt.mp before
        rw [latest?_cons rule]
        cases isLatest : latest? date (first :: rest) with
        | none => simp
        | some version =>
            have notBefore : first.validFrom ≤ version.validFrom := by
              rcases List.mem_cons.mp (mem_of_latest? isLatest) with rfl | behind
              · exact le_rfl
              · exact least version behind
            simp [(later.trans_le notBefore).not_ge]
      · rename_i notBefore
        have atMost : first.validFrom ≤ rule.validFrom := not_lt.mp notBefore
        rw [latest?_cons, latest?_cons, inductionHypothesis others]
        cases latest? date rest with
        | none =>
            by_cases isValid : rule.validFrom ≤ date
            · simp [isValid, atMost]
            · simp [isValid]
        | some version =>
            by_cases takes : rule.validFrom ≤ date ∧ version.validFrom ≤ rule.validFrom <;> simp [takes]

theorem version?_eq (catalog : Catalog) (law : String) (date : Date) :
    catalog.version? law date = latest? date (catalog.versions law) :=
  rfl

theorem versions_insert (catalog : Catalog) (rule : Rule) (law : String) :
    (catalog.insert rule).versions law =
      if law = rule.law then insertVersion rule (catalog.versions law) else catalog.versions law := by
  rw [versions, insert, Entries.get?_insert]
  split
  · rename_i same
    rw [same]
    rfl
  · rfl

/-- A catalog holds the added versions, law by law and in order. -/
structure Holds (catalog : Catalog) (rules : List Rule) : Prop where
  sorted : Entries.Sorted catalog
  inOrder : ∀ law, InOrder (catalog.versions law)
  perm : ∀ law, (catalog.versions law).Perm (rules.filter fun rule => rule.law = law)
  nonempty : ∀ law, Entries.get? law catalog ≠ some []

theorem Holds.insert (holds : catalog.Holds rules) (rule : Rule) :
    (catalog.insert rule).Holds (rules ++ [rule]) := by
  refine ⟨holds.sorted.insert _ _, fun law => ?_, fun law => ?_, fun law => ?_⟩
  · rw [versions_insert]
    split
    · exact (holds.inOrder law).insertVersion rule
    · exact holds.inOrder law
  · rw [versions_insert, List.filter_append]
    split
    · rename_i same
      rw [List.filter_cons_of_pos (by simp [same]), List.filter_nil]
      exact ((insertVersion_perm rule _).trans ((holds.perm law).cons rule)).trans
        (List.perm_append_singleton rule _).symm
    · rename_i different
      rw [List.filter_cons_of_neg (by simpa using Ne.symm different), List.filter_nil,
        List.append_nil]
      exact holds.perm law
  · rw [Catalog.insert, Entries.get?_insert]
    split
    · intro empty
      have members := insertVersion_perm rule ((Entries.get? rule.law catalog).getD [])
      rw [Option.some.inj empty] at members
      exact List.cons_ne_nil _ _ (List.nil_perm.mp members)
    · exact holds.nonempty law

theorem holds_ofRules (rules : List Rule) : (ofRules rules).Holds rules := by
  induction rules using List.reverseRecOn with
  | nil =>
      exact ⟨List.Pairwise.nil, fun law => List.Pairwise.nil, fun law => List.Perm.refl _,
        fun law found => by cases found⟩
  | append_singleton rules rule inductionHypothesis =>
      rw [ofRules, List.foldl_append]
      exact inductionHypothesis.insert rule

/-- A version that is added comes into force when it is valid from no earlier date than the one that
was in force. -/
theorem Holds.version?_insert (holds : catalog.Holds rules) (rule : Rule) (law : String) (date : Date) :
    (catalog.insert rule).version? law date =
      if rule.law = law ∧ rule.validFrom ≤ date ∧
          ∀ version ∈ catalog.version? law date, version.validFrom ≤ rule.validFrom then some rule
      else catalog.version? law date := by
  rw [version?_eq, versions_insert]
  by_cases same : law = rule.law
  · rw [if_pos same, (holds.inOrder law).latest?_insertVersion]
    simp only [same, true_and, version?_eq]
  · rw [if_neg same, if_neg fun takes => same takes.1.symm, version?_eq]

/-- The version of an added law that a catalog finds is in force, and it finds one as soon as one is
valid. -/
theorem version?_ofRules (rules : List Rule) (law : String) (date : Date) :
    (∀ rule, (ofRules rules).version? law date = some rule → Rule.IsInForce rules law date rule) ∧
      ((ofRules rules).version? law date = none →
        ∀ rule ∈ rules, rule.law = law → ¬ rule.validFrom ≤ date) := by
  induction rules using List.reverseRecOn with
  | nil =>
      refine ⟨fun rule found => ?_, fun _ rule member => ?_⟩
      · cases found
      · cases member
  | append_singleton rules added inductionHypothesis =>
      obtain ⟨sound, complete⟩ := inductionHypothesis
      have step : ofRules (rules ++ [added]) = (ofRules rules).insert added := by
        rw [ofRules, List.foldl_append]
        rfl
      rw [step, (holds_ofRules rules).version?_insert]
      split
      · rename_i takes
        obtain ⟨isOf, isValid, noneLater⟩ := takes
        refine ⟨fun rule found => ?_, nofun⟩
        cases found
        refine .ofAdded isOf isValid fun other member otherOf otherValid => ?_
        cases present : (ofRules rules).version? law date with
        | none => exact absurd otherValid (complete present other member otherOf)
        | some version =>
            exact ((sound version present).atLeast other member otherOf otherValid).trans
              (noneLater version present)
      · rename_i remains
        refine ⟨fun rule found => (sound rule found).stays fun isOf isValid => ?_,
          fun missing rule member isOf isValid => ?_⟩
        · by_contra notOlder
          refine remains ⟨isOf, isValid, fun version present => ?_⟩
          rw [found] at present
          cases present
          exact not_lt.mp notOlder
        · rcases List.mem_append.mp member with earlier | isLast
          · exact complete missing rule earlier isOf isValid
          · cases List.mem_singleton.mp isLast
            refine remains ⟨isOf, isValid, fun version present => ?_⟩
            rw [missing] at present
            cases present

theorem version?_eq_some {rule : Rule} (inForce : Rule.IsInForce rules law date rule) :
    (ofRules rules).version? law date = some rule := by
  obtain ⟨sound, complete⟩ := version?_ofRules rules law date
  cases found : (ofRules rules).version? law date with
  | none => exact absurd inForce.isValid (complete found rule inForce.mem inForce.isOf)
  | some version => rw [(sound version found).unique inForce]

/-- Of a catalog's versions of a law, in whatever order they are, only one list is in order when they
are valid from different dates. -/
theorem Holds.versions_eq {other : Catalog} {reordered : List Rule} (holds : catalog.Holds rules)
    (otherHolds : other.Holds reordered) (perm : rules.Perm reordered)
    (distinct : rules.Pairwise fun first second =>
      first.law = second.law → first.validFrom ≠ second.validFrom) (law : String) :
    catalog.versions law = other.versions law := by
  have added : (rules.filter fun rule => rule.law = law).Pairwise fun first second =>
      first.validFrom ≠ second.validFrom := by
    refine (distinct.filter _).imp_of_mem fun isFirst isSecond differ => ?_
    have ofLaw {rule : Rule} (member : rule ∈ rules.filter fun rule => rule.law = law) :
        rule.law = law := by
      simpa using (List.mem_filter.mp member).2
    exact differ ((ofLaw isFirst).trans (ofLaw isSecond).symm)
  have apart : (catalog.versions law).Pairwise fun first second =>
      first.validFrom ≠ second.validFrom :=
    ((holds.perm law).pairwise_iff fun differ => Ne.symm differ).mpr added
  have same : (catalog.versions law).Perm (other.versions law) :=
    ((holds.perm law).trans (perm.filter _)).trans (otherHolds.perm law).symm
  refine same.eq_of_pairwise (fun first second isFirst isSecond before after => ?_)
    (holds.inOrder law) (otherHolds.inOrder law)
  have symmetric : Std.Symm fun first second : Rule => first.validFrom ≠ second.validFrom :=
    ⟨fun _ _ => Ne.symm⟩
  by_contra differ
  exact apart.forall isFirst (same.mem_iff.mpr isSecond) differ (le_antisymm before after)

/-- So the order in which versions are added does not matter. -/
theorem ofRules_perm {reordered : List Rule} (perm : rules.Perm reordered)
    (distinct : rules.Pairwise fun first second =>
      first.law = second.law → first.validFrom ≠ second.validFrom) :
    ofRules reordered = ofRules rules := by
  have holds := holds_ofRules rules
  have otherHolds := holds_ofRules reordered
  refine otherHolds.sorted.eq_of_mem_iff holds.sorted fun ⟨law, versions⟩ => ?_
  rw [← otherHolds.sorted.get?_eq_some_iff, ← holds.sorted.get?_eq_some_iff]
  have same := holds.versions_eq otherHolds perm distinct law
  have found (catalog : Catalog) (nonempty : Entries.get? law catalog ≠ some []) :
      Entries.get? law catalog = some versions ↔
        catalog.versions law = versions ∧ versions ≠ [] := by
    rw [Catalog.versions]
    cases present : Entries.get? law catalog with
    | none => simp [eq_comm]
    | some stored =>
        rw [present] at nonempty
        simp only [Option.some.injEq, Option.getD_some, iff_self_and]
        rintro rfl isEmpty
        exact nonempty (congrArg some isEmpty)
  rw [found _ (otherHolds.nonempty law), found _ (holds.nonempty law), same]

/-- A catalog answers with the version of the law that is in force, if it belongs to the service that
asks, and it has one as soon as a version is valid. Versions that are valid from different dates may be
added in any order: the catalog selects, lists and matches the same. -/
theorem select_ofRules (rules : List Rule) :
    (∀ law date service,
      ((∀ rule ∈ rules, rule.law = law → ¬ rule.validFrom ≤ date) →
        (ofRules rules).select law date service =
          .error (.noApplicableVersion law service date.text)) ∧
      ((∃ rule ∈ rules, rule.law = law ∧ rule.validFrom ≤ date) →
        ∃ rule, Rule.IsInForce rules law date rule) ∧
      ∀ rule, Rule.IsInForce rules law date rule →
        (ofRules rules).select law date service =
          if rule.service = service then .ok rule
          else .error (.serviceMismatch law service rule.service)) ∧
    ∀ reordered, rules.Perm reordered →
      (rules.Pairwise fun first second =>
        first.law = second.law → first.validFrom ≠ second.validFrom) →
      (∀ law date service,
        (ofRules reordered).select law date service = (ofRules rules).select law date service) ∧
      (ofRules reordered).rules = (ofRules rules).rules ∧
      ∀ eventType data,
        (ofRules reordered).matching eventType data = (ofRules rules).matching eventType data := by
  refine ⟨fun law date service => ⟨fun noneValid => ?_, ?_, fun rule inForce => ?_⟩,
    fun reordered perm distinct => ?_⟩
  · have missing : (ofRules rules).version? law date = none := by
      cases found : (ofRules rules).version? law date with
      | none => rfl
      | some rule =>
          have inForce := (version?_ofRules rules law date).1 rule found
          exact absurd inForce.isValid (noneValid rule inForce.mem inForce.isOf)
    rw [select, missing]
  · rintro ⟨rule, member, isOf, isValid⟩
    cases found : (ofRules rules).version? law date with
    | none => exact absurd isValid ((version?_ofRules rules law date).2 found rule member isOf)
    | some version => exact ⟨version, (version?_ofRules rules law date).1 version found⟩
  · rw [select, version?_eq_some inForce]
  · rw [ofRules_perm perm distinct]
    exact ⟨fun _ _ _ => rfl, rfl, fun _ _ => rfl⟩

/-- A version of the law on a care allowance. -/
def allowanceVersion (uuid service : String) (validFrom : Date) : Rule :=
  { (default : Rule) with uuid, law := "zorgtoeslagwet", service, validFrom }

def firstAllowance : Rule := allowanceVersion "v2020" "TOESLAGEN" (.january 2020 (by decide))

def nextAllowance : Rule := allowanceVersion "v2021" "TOESLAGEN" (.january 2021 (by decide))

/-- It replaces the version that is valid from the same date. -/
def movedAllowance : Rule := allowanceVersion "v2021b" "BELASTINGDIENST" (.january 2021 (by decide))

/-- Before its first version the law has none, later the last added version of the year counts, for the
service that owns it, and two versions of different years may be added either way. -/
theorem select_ofRules_allowance :
    let added := [nextAllowance, movedAllowance, firstAllowance]
    let law := "zorgtoeslagwet"
    let early : Date := .january 2019 (by decide)
    let late : Date := .january 2022 (by decide)
    ((ofRules added).select law early "TOESLAGEN" =
        .error (.noApplicableVersion law "TOESLAGEN" early.text) ∧
      (ofRules added).select law late "BELASTINGDIENST" = .ok movedAllowance ∧
      (ofRules added).select law late "TOESLAGEN" =
        .error (.serviceMismatch law "TOESLAGEN" "BELASTINGDIENST")) ∧
    (ofRules [firstAllowance, nextAllowance]).rules =
      (ofRules [nextAllowance, firstAllowance]).rules := by
  intro added law early late
  obtain ⟨selects, -⟩ := select_ofRules added
  have inForce : Rule.IsInForce added law late movedAllowance := by
    refine ⟨rfl, by decide, [nextAllowance], [firstAllowance], rfl, ?_, ?_⟩
    · intro other member
      rw [List.mem_singleton.mp member]
      decide
    · intro other member
      rw [List.mem_singleton.mp member]
      decide
  have noneValid : ∀ rule ∈ added, rule.law = law → ¬ rule.validFrom ≤ early := by
    intro rule member
    simp only [added, List.mem_cons, List.not_mem_nil, or_false] at member
    rcases member with rfl | rfl | rfl <;> decide
  refine ⟨⟨(selects law early "TOESLAGEN").1 noneValid, ?_, ?_⟩, ?_⟩
  · exact ((selects law late "BELASTINGDIENST").2.2 movedAllowance inForce).trans (if_pos rfl)
  · exact ((selects law late "TOESLAGEN").2.2 movedAllowance inForce).trans (if_neg (by decide))
  · obtain ⟨-, reorders⟩ := select_ofRules [nextAllowance, firstAllowance]
    refine (reorders [firstAllowance, nextAllowance] (List.Perm.swap _ _ _) ?_).2.1
    exact List.pairwise_pair.mpr (by decide)

end Catalog

end Statute
