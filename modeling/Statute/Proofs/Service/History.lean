/-
This file proves that services answer what they would answer if they had not been asked before.
-/

import Mathlib.Data.List.Nodup
import Statute.Proofs.Evaluation.Preparation

namespace Statute

/-- What callers do with a registry: they look up the version that a service evaluates for a law and a
date, have a request answered, or set the flag of cancellation that tables raise as well. -/
inductive Query
  | version (service law : String) (date : Date)
  | answer (request : Request)
  | signal (raised : Bool)

/-- What callers get from a registry. -/
inductive Reply
  | version (found : Except EvaluationError Rule)
  | answer (answer : Except EvaluationError Outcome)
  | signalled

/-- What a version was prepared for. -/
def PreparedRule.key (entry : PreparedRule) : String × String × Date :=
  (entry.service, entry.law, entry.date)

theorem PreparedRule.key_eq_iff {entry : PreparedRule} {service law : String} {date : Date} :
    entry.key = (service, law, date) ↔
      entry.service = service ∧ entry.law = law ∧ entry.date = date := by
  rw [key, Prod.mk.injEq, Prod.mk.injEq]

namespace Shared

variable {shared : Shared} {entry : PreparedRule} {service law : String} {date : Date}

/-- Nothing is prepared yet, and the flag of the callers is up or down. -/
def fresh (raised : Bool) : Shared := ⟨raised, []⟩

theorem fresh_follows (catalog : Catalog) (raised : Bool) : (fresh raised).Follows catalog :=
  fun _ member => nomatch member

/-- At most one version is prepared for a service, a law and a date. -/
def IsDistinct (shared : Shared) : Prop :=
  (shared.prepared.map PreparedRule.key).Nodup

theorem prepared?_of_mem (distinct : shared.IsDistinct) (member : entry ∈ shared.prepared) :
    shared.prepared? entry.service entry.law entry.date = some entry.rule := by
  cases found : shared.prepared.find? fun other =>
      other.service = entry.service ∧ other.law = entry.law ∧ other.date = entry.date with
  | none =>
      have differs := List.find?_eq_none.mp found entry member
      simp at differs
  | some other =>
      have sameKey : other.key = entry.key :=
        PreparedRule.key_eq_iff.mpr (by simpa using List.find?_some found)
      have same := List.inj_on_of_nodup_map distinct (List.mem_of_find?_eq_some found) member sameKey
      rw [prepared?, found, same]
      rfl

theorem not_mem_key (absent : shared.prepared? service law date = none) :
    (service, law, date) ∉ shared.prepared.map PreparedRule.key := by
  intro listed
  obtain ⟨entry, member, same⟩ := List.mem_map.mp listed
  obtain ⟨rfl, rfl, rfl⟩ := PreparedRule.key_eq_iff.mp same
  rw [prepared?, Option.map_eq_none_iff] at absent
  have differs := List.find?_eq_none.mp absent entry member
  simp at differs

end Shared

namespace Registry

variable {registry : Registry} {claims : Option ClaimLookup} {shared : Shared}
  {service law : String} {date : Date} {rule : Rule} {holds : Shared → Prop}

/-- The reply to a query, and what is shared afterwards. -/
def reply (registry : Registry) (claims : Option ClaimLookup) (query : Query) (shared : Shared) :
    Reply × Shared :=
  match query with
  | .version service law date =>
      let (found, after) := registry.prepare service law date shared
      (.version found, after)
  | .answer request =>
      let (answer, after) := registry.evaluate claims request shared
      (.answer answer, after)
  | .signal raised => (.signalled, { shared with interrupted := raised })

/-- What is shared after queries, one behind the other. -/
def afterAll (registry : Registry) (claims : Option ClaimLookup) (queries : List Query)
    (shared : Shared) : Shared :=
  queries.foldl (fun current query => (registry.reply claims query current).2) shared

/-- Neither the tables nor the callers take a property away by means of the flag. -/
def IgnoresFlag (holds : Shared → Prop) : Prop :=
  ∀ (shared : Shared) (raised : Bool), holds shared → holds { shared with interrupted := raised }

/-- A query keeps what prepared versions keep. -/
theorem reply_keeps (ignores : IgnoresFlag holds) (prepares : registry.PreparesKeeping holds)
    (query : Query) (kept : holds shared) : holds (registry.reply claims query shared).2 := by
  cases query with
  | version service law date => exact prepares service law date shared kept
  | answer request =>
      exact provider_keeps (fun shared => ignores shared true) prepares claims
        (registry.nestingLimit + 1) request shared kept
  | signal raised => exact ignores shared raised kept

theorem afterAll_keeps (ignores : IgnoresFlag holds) (prepares : registry.PreparesKeeping holds)
    (queries : List Query) (kept : holds shared) :
    holds (registry.afterAll claims queries shared) := by
  induction queries generalizing shared with
  | nil => exact kept
  | cons query rest inductionHypothesis =>
      exact inductionHypothesis (reply_keeps ignores prepares query kept)

/-- A version that is prepared joins those that were prepared before. -/
theorem prepare_cases (registry : Registry) (service law : String) (date : Date) (shared : Shared) :
    (registry.prepare service law date shared).2 = shared ∨
      shared.prepared? service law date = none ∧
      ∃ rule, (registry.prepare service law date shared).2.prepared =
        ⟨service, law, date, rule⟩ :: shared.prepared := by
  unfold prepare
  split
  · exact .inl rfl
  · rename_i absent
    split
    · exact .inr ⟨absent, _, rfl⟩
    · exact .inl rfl

theorem preparesKeeping_distinct (registry : Registry) :
    registry.PreparesKeeping Shared.IsDistinct := by
  intro service law date shared distinct
  rcases registry.prepare_cases service law date shared with same | ⟨absent, rule, added⟩
  · rw [same]
    exact distinct
  · rw [Shared.IsDistinct, added]
    exact List.nodup_cons.mpr ⟨Shared.not_mem_key absent, distinct⟩

/-- No prepared version is lost or replaced. -/
theorem preparesKeeping_suffix (registry : Registry) (earlier : List PreparedRule) :
    registry.PreparesKeeping fun shared => earlier <:+ shared.prepared := by
  intro service law date shared kept
  rcases registry.prepare_cases service law date shared with same | ⟨_, rule, added⟩
  · rw [same]
    exact kept
  · rw [added]
    exact kept.trans (List.suffix_cons _ _)

/-- A version that is prepared already is given again, and nothing changes. -/
theorem prepare_again (prepared : shared.prepared? service law date = some rule) :
    registry.prepare service law date shared = (.ok rule, shared) := by
  rw [prepare, prepared]

/-- A version that is selected is prepared from then on. -/
theorem prepared?_prepare (follows : shared.Follows registry.catalog)
    (selected : registry.catalog.select law date service = .ok rule) :
    (registry.prepare service law date shared).2.prepared? service law date = some rule := by
  have given := prepare_ok follows selected
  unfold prepare at given ⊢
  split at given
  · rename_i other prepared
    cases given
    exact prepared
  · split at given
    · cases given
      simp [Shared.prepared?]
    · cases given

/-- Replies are those of a registry that was just built, whatever was prepared before. -/
theorem reply_of_follows (follows : shared.Follows registry.catalog) (query : Query) :
    (registry.reply claims query shared).1 =
      (registry.reply claims query (.fresh shared.interrupted)).1 := by
  have alike (cancellation : Cancellation) : Shared.Alike registry.catalog cancellation shared
      (.fresh shared.interrupted) := by
    refine ⟨?_, follows, Shared.fresh_follows _ _⟩
    cases cancellation <;> rfl
  cases query with
  | version service law date =>
      exact congrArg Reply.version (prepare_alike (alike .none) service law date).1
  | answer request =>
      exact congrArg Reply.answer (registry.evaluate_steady claims request _ _ (alike _)).1
  | signal raised => rfl

/-- After any queries, each reply is the one of a registry that was just built. Each prepared version
is the one that the catalog selects for its service, law and date, where none is selected none is
prepared, and a version that is selected is prepared when it is looked up. And once a version is
prepared, it stays the only one for its service, law and date, and every later lookup gives it. -/
theorem reply_fresh (registry : Registry) (claims : Option ClaimLookup) (raised : Bool)
    (queries : List Query) :
    let shared := registry.afterAll claims queries (.fresh raised)
    (∀ query, (registry.reply claims query shared).1 =
      (registry.reply claims query (.fresh shared.interrupted)).1) ∧
    (∀ entry ∈ shared.prepared,
      registry.catalog.select entry.law entry.date entry.service = .ok entry.rule) ∧
    (∀ service law date cause, registry.catalog.select law date service = .error cause →
      (∀ entry ∈ shared.prepared, entry.key ≠ (service, law, date)) ∧
      registry.prepare service law date shared = (.error (.rule cause), shared)) ∧
    (∀ service law date rule, registry.catalog.select law date service = .ok rule →
      ∃ after, registry.prepare service law date shared = (.ok rule, after) ∧
        after.prepared? service law date = some rule) ∧
    ∀ entry ∈ shared.prepared, ∀ more,
      let later := registry.afterAll claims more shared
      (∀ other, other ∈ later.prepared ∧ other.key = entry.key ↔ other = entry) ∧
      registry.prepare entry.service entry.law entry.date later = (.ok entry.rule, later) := by
  intro shared
  have follows : shared.Follows registry.catalog :=
    afterAll_keeps (fun _ _ kept => kept) registry.preparesKeeping_follows queries
      (Shared.fresh_follows _ raised)
  have distinct : shared.IsDistinct :=
    afterAll_keeps (fun _ _ kept => kept) registry.preparesKeeping_distinct queries List.nodup_nil
  clear_value shared
  refine ⟨reply_of_follows follows, follows, fun service law date cause failed => ?_,
    fun service law date rule selected => ?_, fun entry member more => ?_⟩
  · refine ⟨fun entry member same => ?_, prepare_error follows failed⟩
    obtain ⟨rfl, rfl, rfl⟩ := PreparedRule.key_eq_iff.mp same
    rw [follows entry member] at failed
    cases failed
  · exact ⟨_, Prod.ext (prepare_ok follows selected) rfl, prepared?_prepare follows selected⟩
  · intro later
    have laterDistinct : later.IsDistinct :=
      afterAll_keeps (fun _ _ kept => kept) registry.preparesKeeping_distinct more distinct
    have grown : shared.prepared <:+ later.prepared :=
      afterAll_keeps (fun _ _ kept => kept) (registry.preparesKeeping_suffix _) more
        (List.suffix_refl _)
    have stays := grown.subset member
    refine ⟨fun other => ⟨fun found => ?_, ?_⟩,
      prepare_again (Shared.prepared?_of_mem laterDistinct stays)⟩
    · exact List.inj_on_of_nodup_map laterDistinct found.1 stays found.2
    · rintro rfl
      exact ⟨stays, rfl⟩

end Registry

end Statute
