/-
This file proves that a run which remembers the values of calls follows one which makes every call.
-/

import Statute.Proofs.Date.Text
import Statute.Proofs.Evaluation.Calls

namespace Statute

/-- The answer of a provider depends on the request alone. -/
def Provider.IsFunction (provider : Provider) : Prop :=
  ∀ request first second, (provider request first).1 = (provider request second).1

namespace Call.Question

variable {question other : Question}

/-- Calls that ask for the same value make the same request. -/
theorem request_eq (same : question.record.AsksSame other.record) (surroundings : Surroundings) :
    question.request surroundings = other.request surroundings := by
  obtain ⟨path, property, ⟨service, field, law, arguments⟩, parameters, date⟩ := question
  obtain ⟨_, _, ⟨otherService, otherField, otherLaw, _⟩, otherParameters, otherDate⟩ := other
  simp only [CallRecord.AsksSame, record, CallRecord.mk.injEq, true_and] at same
  obtain ⟨rfl, rfl, rfl, rfl, dates⟩ := same
  rw [Date.text_injective dates]
  rfl

theorem field_eq (same : question.record.AsksSame other.record) :
    question.reference.field = other.reference.field :=
  congrArg CallRecord.field same

end Call.Question

section Simulation

variable (surroundings : Surroundings) (allowed : Note → Prop)

/-- A remembered value is what the provider answers to an allowed call with this key, and what the
answer lacked was noted. -/
def Progress.Remembers (progress : Progress) (key : String) (value : Value) : Prop :=
  ∃ (question : Call.Question) (outcome : Outcome), allowed (.call question.record) ∧
    question.key = key ∧
    (∀ shared, (surroundings.provider (question.request surroundings) shared).1 = .ok outcome) ∧
    value = question.valueIn outcome ∧
    (outcome.missingRequired = true → progress.missingRequired = true)

/-- Two runs agree in all that evaluations can see, as long as only allowed names are read. The
first run remembers nothing. -/
structure Agree (plain follower : Progress) : Prop where
  scope : follower.scope = plain.scope
  missing : follower.missingRequired = plain.missingRequired
  outputs : ∀ name, allowed (.read name) →
    Entries.get? name follower.outputs = Entries.get? name plain.outputs
  memoless : plain.memo = none
  remembers : ∀ key value, follower.remembered? key = some value →
    follower.Remembers surroundings allowed key value

/-- A run makes allowed calls only, and reads allowed names only if it succeeds. -/
structure Seen {α : Type} (run : Except EvaluationError α × Progress) : Prop where
  noted : ∀ note ∈ run.2.notes, allowed note
  reads : (∃ value, run.1 = .ok value) ∨ ∀ name, allowed (.read name)

/-- The second evaluation follows the first wherever this one keeps to what is allowed. -/
structure Follows {α : Type} (first second : Evaluation α) : Prop where
  bounded : Bounded first
  agrees : ∀ plain follower, Agree surroundings allowed plain follower →
    Seen allowed (first.runFrom surroundings plain) →
    (second.runFrom surroundings follower).1 = (first.runFrom surroundings plain).1 ∧
      Agree surroundings allowed (first.runFrom surroundings plain).2
        (second.runFrom surroundings follower).2

end Simulation

namespace Follows

variable {surroundings : Surroundings} {allowed : Note → Prop} {α β : Type}

/-- A step that changes both runs in the same way. -/
theorem ofRun {evaluation : Evaluation α} {result : Progress → α} {after : Progress → Progress}
    (bounded : Bounded evaluation)
    (ran : ∀ progress, evaluation.runFrom surroundings progress =
      (.ok (result progress), after progress))
    (agrees : ∀ plain follower, Agree surroundings allowed plain follower →
      result follower = result plain ∧ Agree surroundings allowed (after plain) (after follower)) :
    Follows surroundings allowed evaluation evaluation := by
  refine ⟨bounded, fun plain follower agree _ => ?_⟩
  rw [ran, ran]
  obtain ⟨same, kept⟩ := agrees plain follower agree
  exact ⟨by rw [same], kept⟩

theorem pure (value : α) : Follows surroundings allowed (pure value) (pure value) :=
  ofRun (.pure value) (fun _ => rfl) fun _ _ agree => ⟨rfl, agree⟩

theorem throw (error : EvaluationError) :
    Follows surroundings allowed (throw error : Evaluation α) (throw error) :=
  ⟨.throw error, fun _ _ agree _ => ⟨rfl, agree⟩⟩

theorem given (view : Surroundings → α) :
    Follows surroundings allowed (Evaluation.given view) (Evaluation.given view) :=
  ofRun (.given view) (fun _ => rfl) fun _ _ agree => ⟨rfl, agree⟩

theorem isMissing : Follows surroundings allowed Evaluation.isMissing Evaluation.isMissing :=
  ofRun .isMissing (fun _ => rfl) fun _ _ agree => ⟨agree.missing, agree⟩

theorem raiseFlag : Follows surroundings allowed Evaluation.raiseFlag Evaluation.raiseFlag :=
  ofRun .raiseFlag (fun _ => rfl) fun _ _ agree =>
    ⟨rfl, agree.scope, agree.missing, agree.outputs, agree.memoless, agree.remembers⟩

theorem annotate {change : TraceNode → TraceNode}
    (grows : ∀ node : TraceNode, node.Grows (change node)) :
    Follows surroundings allowed (Evaluation.annotate change) (Evaluation.annotate change) :=
  ofRun (.annotate grows) (fun _ => rfl) fun _ _ agree =>
    ⟨rfl, agree.scope, agree.missing, agree.outputs, agree.memoless, agree.remembers⟩

/-- Without a flag of cancellation the check for it does nothing. -/
theorem checkCancelled (quiet : surroundings.cancellation = .none) :
    Follows surroundings allowed Evaluation.checkCancelled Evaluation.checkCancelled := by
  have ran (progress : Progress) :
      Evaluation.checkCancelled.runFrom surroundings progress = (.ok (), progress) := by
    rw [Evaluation.runFrom_checkCancelled, quiet]
    rfl
  exact ofRun .checkCancelled ran fun _ _ agree => ⟨rfl, agree⟩

/-- A missing value is noted in both runs. -/
theorem noteMissing (property : Property) (value : Value) :
    Follows surroundings allowed (Resolution.noteMissing property value)
      (Resolution.noteMissing property value) := by
  refine ofRun (.noteMissing property value) (fun _ => rfl) fun plain follower agree => ⟨rfl, ?_⟩
  refine ⟨agree.scope, ?_, agree.outputs, agree.memoless, fun key value remembered => ?_⟩
  · simp [agree.missing]
  · obtain ⟨question, outcome, isAllowed, sameKey, answers, isValue, lacks⟩ :=
      agree.remembers key value remembered
    exact ⟨question, outcome, isAllowed, sameKey, answers, isValue,
      fun missing => by simp [lacks missing]⟩

theorem bind {first second : Evaluation α} {next other : α → Evaluation β}
    (follows : Follows surroundings allowed first second)
    (continues : ∀ value, Follows surroundings allowed (next value) (other value)) :
    Follows surroundings allowed (first >>= next) (second >>= other) := by
  refine ⟨.bind follows.bounded fun value => (continues value).bounded, ?_⟩
  intro plain follower agree seen
  cases ran : first.runFrom surroundings plain with
  | mk result between =>
      have firstSeen : Seen allowed (first.runFrom surroundings plain) := by
        rw [ran]
        cases result with
        | error error =>
            rw [Evaluation.runFrom_bind_of_error ran] at seen
            refine ⟨seen.noted, seen.reads.imp_left ?_⟩
            rintro ⟨_, impossible⟩
            cases impossible
        | ok value =>
            rw [Evaluation.runFrom_bind_of_ok ran] at seen
            have grows := (continues value).bounded.grows surroundings between
            exact ⟨fun note member => seen.noted note (grows.notes member), .inl ⟨value, rfl⟩⟩
      obtain ⟨same, agreeBetween⟩ := follows.agrees plain follower agree firstSeen
      rw [ran] at same agreeBetween
      cases otherRan : second.runFrom surroundings follower with
      | mk otherResult otherBetween =>
          rw [otherRan] at same agreeBetween
          obtain rfl : otherResult = result := same
          cases otherResult with
          | error error =>
              rw [Evaluation.runFrom_bind_of_error ran, Evaluation.runFrom_bind_of_error otherRan]
              exact ⟨rfl, agreeBetween⟩
          | ok value =>
              rw [Evaluation.runFrom_bind_of_ok ran] at seen ⊢
              rw [Evaluation.runFrom_bind_of_ok otherRan]
              exact (continues value).agrees between otherBetween agreeBetween seen

/-- Nodes that are opened and closed do not matter for what evaluations see. -/
theorem agree_inside {plain follower : Progress} (agree : Agree surroundings allowed plain follower)
    (node other : TraceNode) :
    Agree surroundings allowed (plain.inside node) (follower.inside other) :=
  ⟨agree.scope, agree.missing, agree.outputs, agree.memoless, agree.remembers⟩

theorem agree_outside {plain follower : Progress} (agree : Agree surroundings allowed plain follower)
    (result other : Value) :
    Agree surroundings allowed (plain.outside result) (follower.outside other) :=
  ⟨agree.scope, agree.missing, agree.outputs, agree.memoless, agree.remembers⟩

theorem inNode {node : TraceNode} (shown : α → Value) {body other : Evaluation α}
    (plainNode : node.IsPlain) (follows : Follows surroundings allowed body other) :
    Follows surroundings allowed (Evaluation.inNode node shown body)
      (Evaluation.inNode node shown other) := by
  refine ⟨.inNode shown plainNode.silent plainNode.noCall follows.bounded, ?_⟩
  intro plain follower agree seen
  rw [Evaluation.runFrom_inNode] at seen ⊢
  rw [Evaluation.runFrom_inNode]
  cases ran : body.runFrom surroundings (plain.inside node) with
  | mk result between =>
      have bodySeen : Seen allowed (body.runFrom surroundings (plain.inside node)) := by
        rw [ran] at seen ⊢
        cases result with
        | error error => exact ⟨seen.noted, seen.reads.imp_left fun ⟨_, no⟩ => by cases no⟩
        | ok value =>
            obtain ⟨grown, nodes, grows⟩ := follows.bounded.stays _ _ _ _ ran node _ rfl
            have closed := Progress.outside_extends nodes
              (by rw [grows.kind]; exact plainNode.noCall) (shown value)
            exact ⟨fun note member => seen.noted note (closed.notes member), .inl ⟨value, rfl⟩⟩
      obtain ⟨same, agreeBetween⟩ :=
        follows.agrees _ _ (agree_inside agree node node) bodySeen
      rw [ran] at same agreeBetween
      cases otherRan : other.runFrom surroundings (follower.inside node) with
      | mk otherResult otherBetween =>
          rw [otherRan] at same agreeBetween
          obtain rfl : otherResult = result := same
          cases otherResult with
          | error error => exact ⟨rfl, agreeBetween⟩
          | ok value => exact ⟨rfl, agree_outside agreeBetween _ _⟩

theorem within (scope : Record) {body other : Evaluation α}
    (follows : Follows surroundings allowed body other) :
    Follows surroundings allowed (Evaluation.within scope body) (Evaluation.within scope other) := by
  refine ⟨.within scope follows.bounded, ?_⟩
  intro plain follower agree seen
  have inner : Agree surroundings allowed { plain with scope } { follower with scope } :=
    ⟨rfl, agree.missing, agree.outputs, agree.memoless, agree.remembers⟩
  obtain ⟨same, kept⟩ := follows.agrees _ _ inner ⟨seen.noted, seen.reads⟩
  exact ⟨same, agree.scope, kept.missing, kept.outputs, kept.memoless, kept.remembers⟩

end Follows

namespace Resolution

/-- The bindings that go before outputs. -/
def binding? (surroundings : Surroundings) (scope : Record) (name : String) :
    Option (Origin × Value) :=
  [(Origin.scope, scope), (.definition, surroundings.definitions),
    (.parameter, surroundings.parameters)].findSome?
      fun (origin, record) => (Entries.get? name record).map fun value => (origin, value)

/-- Outputs come after all other bindings. -/
theorem bound?_eq (surroundings : Surroundings) (progress : Progress) (name : String) :
    bound? surroundings progress name =
      (binding? surroundings progress.scope name).or
        ((Entries.get? name progress.outputs).map fun value => (Origin.output, value)) := by
  simp only [bound?, binding?, List.findSome?_cons, List.findSome?_nil]
  cases Entries.get? name progress.scope <;> cases Entries.get? name surroundings.definitions <;>
    cases Entries.get? name surroundings.parameters <;> cases Entries.get? name progress.outputs <;>
    rfl

/-- The evaluation of a name that is no claim. -/
def unclaimed (lookUp : LookUp) (surroundings : Surroundings) (name : String) :
    Option (Origin × Value) → Evaluation Found
  | some (origin, value) => pure ⟨some origin, value⟩
  | none =>
      match Entries.get? name surroundings.properties with
      | some declared => resolveProperty lookUp name declared
      | none => pure ⟨some .nothing, .null⟩

theorem runFrom_resolveName_claim {surroundings : Surroundings} {name : String} {value : Value}
    (claimed : Entries.get? name surroundings.claims = some value) (lookUp : LookUp)
    (progress : Progress) :
    (resolveName lookUp name).runFrom surroundings progress =
      (resolveClaim (Entries.get? name surroundings.properties) value).runFrom surroundings
        progress := by
  rw [resolveName, Evaluation.runFrom_bind, Evaluation.runFrom_read]
  dsimp only
  rw [Evaluation.runFrom_bind, Evaluation.runFrom_get]
  dsimp only
  rw [claimed]

theorem runFrom_resolveName {surroundings : Surroundings} {name : String}
    (noClaim : Entries.get? name surroundings.claims = none) (lookUp : LookUp)
    (progress : Progress) :
    (resolveName lookUp name).runFrom surroundings progress =
      (unclaimed lookUp surroundings name (bound? surroundings progress name)).runFrom surroundings
        progress := by
  rw [resolveName, Evaluation.runFrom_bind, Evaluation.runFrom_read]
  dsimp only
  rw [Evaluation.runFrom_bind, Evaluation.runFrom_get]
  dsimp only
  rw [noClaim]
  cases bound? surroundings progress name with
  | some bound => rfl
  | none => cases declared : Entries.get? name surroundings.properties <;> simp [unclaimed, declared]

/-- The evaluation that stands behind a name, where claims, bindings and properties are known. -/
def chosen (lookUp : LookUp) (surroundings : Surroundings) (progress : Progress) (name : String) :
    Evaluation Found :=
  match Entries.get? name surroundings.claims with
  | some value => resolveClaim (Entries.get? name surroundings.properties) value
  | none => unclaimed lookUp surroundings name (bound? surroundings progress name)

theorem runFrom_resolveName_chosen (lookUp : LookUp) (name : String) (surroundings : Surroundings)
    (progress : Progress) :
    (resolveName lookUp name).runFrom surroundings progress =
      (chosen lookUp surroundings progress name).runFrom surroundings progress := by
  unfold chosen
  split
  · rename_i claimed
    exact runFrom_resolveName_claim claimed lookUp progress
  · rename_i noClaim
    exact runFrom_resolveName noClaim lookUp progress

/-- A name is a claim, which may be the value of a property, or it is bound, or a property, and two
lookups differ in the last case only. -/
theorem chosen_related (rel : Evaluation Found → Evaluation Found → Prop) (lookUp other : LookUp)
    {name : String} (constant : ∀ found, rel (pure found) (pure found))
    (claim : ∀ declared found, rel (annotateProperty declared >>= fun _ => pure found)
      (annotateProperty declared >>= fun _ => pure found))
    (surroundings : Surroundings) (progress : Progress)
    (property : ∀ declared, Entries.get? name surroundings.properties = some declared →
      rel (resolveProperty lookUp name declared) (resolveProperty other name declared)) :
    rel (chosen lookUp surroundings progress name) (chosen other surroundings progress name) := by
  unfold chosen
  cases Entries.get? name surroundings.claims with
  | some value =>
      cases declared : Entries.get? name surroundings.properties with
      | some property => exact claim property _
      | none => exact constant _
  | none =>
      cases bound? surroundings progress name with
      | some bound => exact constant _
      | none =>
          cases found : Entries.get? name surroundings.properties with
          | some declared =>
              simp only [unclaimed, found]
              exact property declared found
          | none =>
              simp only [unclaimed, found]
              exact constant _

/-- The value of a property comes from behind all bindings. -/
theorem propertyValue_origin {lookUp : LookUp} {path : String} {property : Property}
    {surroundings : Surroundings} {progress after : Progress} {found : Origin × Value}
    (ran : (propertyValue lookUp path property).runFrom surroundings progress =
      (.ok found, after)) : found.1.isBehindBindings = true := by
  obtain ⟨override, _, _, ran⟩ := Evaluation.runFrom_bind_ok ran
  split at ran
  · cases ran
    rfl
  · obtain ⟨stored, _, _, ran⟩ := Evaluation.runFrom_bind_ok ran
    split at ran
    · split at ran
      · obtain ⟨value, _, _, ran⟩ := Evaluation.runFrom_bind_ok ran
        cases ran
        rfl
      · cases ran
        rfl
    · cases ran
      rfl

theorem resolveProperty_origin {lookUp : LookUp} {path : String} {property : Property}
    {surroundings : Surroundings} {progress after : Progress} {found : Found}
    (ran : (resolveProperty lookUp path property).runFrom surroundings progress =
      (.ok found, after)) : ∃ origin, found.origin = some origin ∧ origin.isBehindBindings = true := by
  obtain ⟨_, _, _, ran⟩ := Evaluation.runFrom_bind_ok ran
  obtain ⟨pair, _, valued, ran⟩ := Evaluation.runFrom_bind_ok ran
  obtain ⟨_, _, _, ran⟩ := Evaluation.runFrom_bind_ok ran
  cases ran
  exact ⟨pair.1, rfl, propertyValue_origin valued⟩

/-- A name that nothing binds before outputs shows that an output could have given it. -/
theorem unclaimed_origin {lookUp : LookUp} {surroundings : Surroundings} {name : String}
    {output : Option Value} {progress after : Progress} {found : Found}
    (ran : (unclaimed lookUp surroundings name
      (output.map fun value => (Origin.output, value))).runFrom surroundings progress =
        (.ok found, after)) :
    ∃ origin, found.origin = some origin ∧ origin.isBehindBindings = true := by
  cases output with
  | some value =>
      cases ran
      exact ⟨.output, rfl, rfl⟩
  | none =>
      unfold unclaimed at ran
      simp only [Option.map_none] at ran
      split at ran
      · exact resolveProperty_origin ran
      · cases ran
        exact ⟨.nothing, rfl, rfl⟩

end Resolution

namespace Follows

variable {surroundings : Surroundings} {allowed : Note → Prop} {path : String}

/-- The progress of a lookup before its path is resolved. -/
def lookedUp (path : String) (progress : Progress) : Progress :=
  (progress.withAccess path).inside (TraceNode.resolving path)

/-- When a lookup ends, its node says what its body and its origin say. -/
theorem notes_recorded {body : Evaluation Resolution.Found} (bounded : Bounded body)
    {plain between : Progress} {found : Resolution.Found}
    (ran : body.runFrom surroundings (lookedUp path plain) = (.ok found, between)) :
    between.notes ⊆ ((between.withFound path found).outside found.value).notes ∧
      ∀ origin, found.origin = some origin → origin.isBehindBindings = true →
        .read path ∈ ((between.withFound path found).outside found.value).notes := by
  obtain ⟨grown, nodes, grows⟩ := bounded.stays _ _ _ _ ran _ _ rfl
  have opened := Resolution.notes_withFound path found nodes
  have isLookUp : (grown.withOrigin found.origin).kind = .resolve := by
    have same : (grown.withOrigin found.origin).kind = grown.kind := by
      cases found.origin <;> rfl
    rw [same, grows.kind]
    rfl
  have closed := Progress.outside_extends opened (by rw [isLookUp]; decide) found.value
  refine ⟨fun note member => closed.notes ((Bounded.withFound_extends nodes grows).notes member), ?_⟩
  intro origin hasOrigin behind
  apply closed.notes
  rw [Progress.notes, opened, List.flatMap_cons]
  apply List.mem_append_left
  have kind : grown.kind = .resolve := grows.kind
  have named : grown.path = some path := grows.path
  have own : (grown.withOrigin found.origin).ownNotes = [.read path] := by
    rw [hasOrigin]
    simp [TraceNode.withOrigin, TraceNode.ownNotes, kind, named, behind]
  rw [TraceNode.openNotes, own]
  exact List.mem_append_left _ (List.mem_singleton_self _)

/-- What the run of a lookup is seen to do holds of its body, and a name that an output could have
given may be read. -/
theorem recorded_seen {body : Evaluation Resolution.Found} (bounded : Bounded body)
    {plain : Progress}
    (seen : Seen allowed ((Resolution.recorded path body).runFrom surroundings plain)) :
    Seen allowed (body.runFrom surroundings (lookedUp path plain)) ∧
      ∀ found between, body.runFrom surroundings (lookedUp path plain) = (.ok found, between) →
        ∀ origin, found.origin = some origin → origin.isBehindBindings = true →
        allowed (.read path) := by
  rw [Resolution.runFrom_recorded, ← lookedUp] at seen
  cases ran : body.runFrom surroundings (lookedUp path plain) with
  | mk result between =>
      rw [ran] at seen
      cases result with
      | error error =>
          refine ⟨⟨seen.noted, seen.reads.imp_left fun ⟨_, no⟩ => by cases no⟩, ?_⟩
          intro found between impossible
          cases impossible
      | ok found =>
          obtain ⟨notes, reads⟩ := notes_recorded bounded ran
          refine ⟨⟨fun note member => seen.noted note (notes member), .inl ⟨found, rfl⟩⟩, ?_⟩
          intro found between same origin hasOrigin behind
          cases same
          exact seen.noted _ (reads origin hasOrigin behind)

/-- A lookup follows another when its body does, given that a name which an output could have given
may be read. -/
theorem recorded_agrees {body other : Evaluation Resolution.Found} (bounded : Bounded body)
    {plain follower : Progress} (agree : Agree surroundings allowed plain follower)
    (seen : Seen allowed ((Resolution.recorded path body).runFrom surroundings plain))
    (agrees : Agree surroundings allowed (lookedUp path plain) (lookedUp path follower) →
      Seen allowed (body.runFrom surroundings (lookedUp path plain)) →
      (∀ found between, body.runFrom surroundings (lookedUp path plain) = (.ok found, between) →
        ∀ origin, found.origin = some origin → origin.isBehindBindings = true →
        allowed (.read path)) →
      (other.runFrom surroundings (lookedUp path follower)).1 =
          (body.runFrom surroundings (lookedUp path plain)).1 ∧
        Agree surroundings allowed (body.runFrom surroundings (lookedUp path plain)).2
          (other.runFrom surroundings (lookedUp path follower)).2) :
    ((Resolution.recorded path other).runFrom surroundings follower).1 =
        ((Resolution.recorded path body).runFrom surroundings plain).1 ∧
      Agree surroundings allowed ((Resolution.recorded path body).runFrom surroundings plain).2
        ((Resolution.recorded path other).runFrom surroundings follower).2 := by
  have begun : Agree surroundings allowed (lookedUp path plain) (lookedUp path follower) :=
    ⟨agree.scope, agree.missing, agree.outputs, agree.memoless, agree.remembers⟩
  obtain ⟨bodySeen, reads⟩ := recorded_seen bounded seen
  obtain ⟨same, kept⟩ := agrees begun bodySeen reads
  rw [Resolution.runFrom_recorded, Resolution.runFrom_recorded, ← lookedUp, ← lookedUp]
  cases ran : body.runFrom surroundings (lookedUp path plain) with
  | mk result between =>
      cases otherRan : other.runFrom surroundings (lookedUp path follower) with
      | mk otherResult otherBetween =>
          rw [ran, otherRan] at same kept
          obtain rfl : otherResult = result := same
          cases otherResult with
          | error error => exact ⟨rfl, kept⟩
          | ok found =>
              exact ⟨rfl, kept.scope, kept.missing, kept.outputs, kept.memoless, kept.remembers⟩

theorem recorded (path : String) {body other : Evaluation Resolution.Found}
    (follows : Follows surroundings allowed body other) :
    Follows surroundings allowed (Resolution.recorded path body) (Resolution.recorded path other) :=
  ⟨.recorded path follows.bounded, fun _ _ agree seen =>
    recorded_agrees follows.bounded agree seen fun begun bodySeen _ =>
      follows.agrees _ _ begun bodySeen⟩

theorem annotateProperty (property : Property) :
    Follows surroundings allowed (Resolution.annotateProperty property)
      (Resolution.annotateProperty property) :=
  ofRun (.annotateProperty property) (fun _ => rfl) fun _ _ agree =>
    ⟨rfl, agree.scope, agree.missing, agree.outputs, agree.memoless, agree.remembers⟩

theorem resolveClaim (property : Option Property) (value : Value) :
    Follows surroundings allowed (Resolution.resolveClaim property value)
      (Resolution.resolveClaim property value) := by
  unfold Resolution.resolveClaim
  split
  · exact bind (annotateProperty _) fun _ => pure _
  · exact pure _

/-- A name is resolved alike in both runs: what binds it before outputs is the same, and otherwise
the name is read, so its output is. -/
theorem recordedName (name : String) {lookUp other : LookUp}
    (follows : ∀ property, Follows surroundings allowed
      (Resolution.resolveProperty lookUp name property)
      (Resolution.resolveProperty other name property)) :
    Follows surroundings allowed (Resolution.recorded name (Resolution.resolveName lookUp name))
      (Resolution.recorded name (Resolution.resolveName other name)) := by
  have bounded := Bounded.resolveName fun property => (follows property).bounded
  refine ⟨.recorded name bounded, fun plain follower agree seen => ?_⟩
  refine recorded_agrees bounded agree seen fun begun bodySeen reads => ?_
  cases claimed : Entries.get? name surroundings.claims with
  | some value =>
      rw [Resolution.runFrom_resolveName_claim claimed] at bodySeen ⊢
      rw [Resolution.runFrom_resolveName_claim claimed]
      exact (resolveClaim _ value).agrees _ _ begun bodySeen
  | none =>
      rw [Resolution.runFrom_resolveName claimed] at bodySeen ⊢
      rw [Resolution.runFrom_resolveName claimed]
      rw [Resolution.runFrom_resolveName claimed] at reads
      rw [Resolution.bound?_eq] at bodySeen reads ⊢
      rw [Resolution.bound?_eq, begun.scope]
      cases bound : Resolution.binding? surroundings (lookedUp name plain).scope name with
      | some binding => exact ⟨rfl, begun⟩
      | none =>
          rw [bound, Option.none_or] at bodySeen reads
          rw [Option.none_or, Option.none_or]
          have isRead : allowed (.read name) := by
            rcases bodySeen.reads with ⟨found, succeeded⟩ | all
            · obtain ⟨origin, hasOrigin, behind⟩ :=
                Resolution.unclaimed_origin (Prod.ext succeeded rfl)
              exact reads found _ (Prod.ext succeeded rfl) origin hasOrigin behind
            · exact all name
          rw [begun.outputs name isRead]
          cases output : Entries.get? name (lookedUp name plain).outputs with
          | some value => exact ⟨rfl, begun⟩
          | none =>
              rw [output] at bodySeen
              unfold Resolution.unclaimed at bodySeen ⊢
              simp only [Option.map_none] at bodySeen ⊢
              cases declared : Entries.get? name surroundings.properties with
              | none => exact ⟨rfl, begun⟩
              | some property =>
                  rw [declared] at bodySeen
                  exact (follows property).agrees _ _ begun bodySeen

/-- Allowed calls that are kept under one key ask for the same value. -/
def TellsApart (allowed : Note → Prop) : Prop :=
  ∀ first second : CallRecord, allowed (.call first) → allowed (.call second) →
    first.key = second.key → first.AsksSame second

theorem remembered?_memoless {progress : Progress} (memoless : progress.memo = none) (key : String) :
    progress.remembered? key = none := by
  rw [Progress.remembered?, memoless]
  rfl

/-- A remembered value is the one that the call would give. -/
theorem obtain_remembered {question : Call.Question} {plain follower : Progress} {value : Value}
    (apart : TellsApart allowed) (agree : Agree surroundings allowed plain follower)
    (remembered : follower.remembered? question.key = some value)
    (isAllowed : allowed (.call question.record)) :
    ∃ outcome shared,
      surroundings.provider (question.request surroundings) plain.shared = (.ok outcome, shared) ∧
      value = question.valueIn outcome ∧
      (outcome.missingRequired = true → follower.missingRequired = true) := by
  obtain ⟨other, outcome, otherAllowed, sameKey, answers, isValue, lacks⟩ :=
    agree.remembers _ value remembered
  have same : question.record.AsksSame other.record :=
    apart _ _ isAllowed otherAllowed sameKey.symm
  refine ⟨outcome, _, Prod.ext ?_ rfl, ?_, lacks⟩
  · rw [Call.Question.request_eq same]
    exact answers plain.shared
  · rw [isValue, Call.Question.valueIn, Call.Question.valueIn, Call.Question.field_eq same]

/-- A call that fails in both runs. -/
theorem agree_afterFailure (quest : Call.Question) {plain follower : Progress}
    (agree : Agree surroundings allowed plain follower) (shared otherShared : Shared) :
    Agree surroundings allowed (quest.afterFailure shared plain)
      (quest.afterFailure otherShared follower) :=
  ⟨agree.scope, agree.missing, agree.outputs, agree.memoless, agree.remembers⟩

theorem memo_afterAnswer (quest : Call.Question) (outcome : Outcome) (shared : Shared)
    {plain : Progress} (memoless : plain.memo = none) :
    (quest.afterAnswer outcome shared plain).memo = none := by
  have memo : (quest.afterAnswer outcome shared plain).memo =
      plain.memo.map (Entries.insert quest.key (quest.valueIn outcome)) := rfl
  rw [memo, memoless]
  rfl

/-- A call that is answered in one run and remembered in the other. -/
theorem agree_remembered (quest : Call.Question) {plain follower : Progress} {outcome : Outcome}
    (agree : Agree surroundings allowed plain follower) (shared : Shared)
    (lacks : outcome.missingRequired = true → follower.missingRequired = true) :
    Agree surroundings allowed (quest.afterAnswer outcome shared plain) follower := by
  refine ⟨agree.scope, ?_, agree.outputs, memo_afterAnswer quest outcome shared agree.memoless,
    agree.remembers⟩
  have flag : (quest.afterAnswer outcome shared plain).missingRequired =
      (follower.missingRequired || outcome.missingRequired) := by
    rw [agree.missing]
    rfl
  rw [flag]
  cases lack : outcome.missingRequired with
  | false => rw [Bool.or_false]
  | true => rw [lacks lack, Bool.true_or]

/-- A call that is answered in both runs, and kept in one of them. -/
theorem agree_answered (quest : Call.Question) {plain follower : Progress} {outcome : Outcome}
    (agree : Agree surroundings allowed plain follower) (shared otherShared : Shared)
    (isAllowed : allowed (.call quest.record))
    (answers : ∀ shared,
      (surroundings.provider (quest.request surroundings) shared).1 = .ok outcome) :
    Agree surroundings allowed (quest.afterAnswer outcome shared plain)
      (quest.afterAnswer outcome otherShared follower) := by
  refine ⟨agree.scope, congrArg (· || outcome.missingRequired) agree.missing, agree.outputs,
    memo_afterAnswer quest outcome shared agree.memoless, ?_⟩
  have flag : (quest.afterAnswer outcome otherShared follower).missingRequired =
      (follower.missingRequired || outcome.missingRequired) := rfl
  intro key value held
  rw [Call.Question.remembered_afterAnswer] at held
  split at held
  · rename_i sameKey
    obtain ⟨_, _, isValue⟩ := Option.map_eq_some_iff.mp held
    refine ⟨quest, outcome, isAllowed, sameKey.symm, answers, isValue.symm, fun lacks => ?_⟩
    rw [flag, lacks, Bool.or_true]
  · obtain ⟨other, otherOutcome, otherAllowed, otherKey, otherAnswers, isValue, lacks⟩ :=
      agree.remembers key value held
    refine ⟨other, otherOutcome, otherAllowed, otherKey, otherAnswers, isValue, fun lack => ?_⟩
    rw [flag, lacks lack, Bool.true_or]

/-- A call that is made is noted, whether it is answered or fails. -/
theorem call_noted (quest : Call.Question) (plain : Progress) :
    .call quest.record ∈ ((Call.perform quest.path quest.property quest.reference quest.parameters
      quest.date).runFrom surroundings plain).2.notes := by
  cases answered : surroundings.provider (quest.request surroundings) plain.shared with
  | mk result shared =>
      cases result with
      | ok outcome =>
          rw [Call.runFrom_perform_ok answered]
          exact quest.notes_afterAnswer outcome shared plain List.mem_cons_self
      | error cause =>
          rw [Call.runFrom_perform_error answered, Call.Question.notes_afterFailure]
          exact List.mem_cons_self

/-- A call gives in both runs what the provider answers. -/
theorem obtain (functional : surroundings.provider.IsFunction) (apart : TellsApart allowed)
    (quest : Call.Question) :
    Follows surroundings allowed
      (Call.obtain quest.path quest.property quest.reference quest.parameters quest.date)
      (Call.obtain quest.path quest.property quest.reference quest.parameters quest.date) := by
  refine ⟨.obtain quest, fun plain follower agree seen => ?_⟩
  have forgotten := remembered?_memoless agree.memoless quest.key
  rw [Call.runFrom_obtain_none forgotten] at seen ⊢
  have isAllowed : allowed (.call quest.record) := seen.noted _ (call_noted quest plain)
  cases answered : surroundings.provider (quest.request surroundings) plain.shared with
  | mk result shared =>
      have answers (other : Shared) :
          (surroundings.provider (quest.request surroundings) other).1 = result := by
        rw [functional _ other plain.shared, answered]
      cases remembered : follower.remembered? quest.key with
      | some value =>
          obtain ⟨outcome, _, given, isValue, lacks⟩ :=
            obtain_remembered apart agree remembered isAllowed
          rw [answered] at given
          cases given
          rw [Call.runFrom_perform_ok answered, Call.runFrom_obtain_some remembered]
          have kept := agree_remembered quest agree shared lacks
          exact ⟨congrArg Except.ok isValue, kept.scope, kept.missing, kept.outputs, kept.memoless,
            kept.remembers⟩
      | none =>
          rw [Call.runFrom_obtain_none remembered]
          have otherAnswered : surroundings.provider (quest.request surroundings) follower.shared =
              (result, (surroundings.provider (quest.request surroundings) follower.shared).2) :=
            Prod.ext (answers follower.shared) rfl
          cases result with
          | error cause =>
              rw [Call.runFrom_perform_error answered, Call.runFrom_perform_error otherAnswered]
              exact ⟨rfl, agree_afterFailure quest agree shared _⟩
          | ok outcome =>
              rw [Call.runFrom_perform_ok answered, Call.runFrom_perform_ok otherAnswered]
              exact ⟨rfl, agree_answered quest agree shared _ isAllowed answers⟩

/-- The steps of lookups follow themselves. -/
theorem steps (functional : surroundings.provider.IsFunction)
    (quiet : surroundings.cancellation = .none) (apart : TellsApart allowed) :
    StepCongruence fun _ first second => Follows surroundings allowed first second where
  pure := pure
  throw := fun _ => throw _
  bind := bind
  given := fun _ => given _
  isMissing := isMissing
  checkCancelled := checkCancelled quiet
  raiseFlag := raiseFlag
  detail := fun value noCallDetail => annotate (.withDetail noCallDetail value)
  inNode := fun shown _ _ plain follows => inNode shown plain follows
  within := fun scope _ _ follows => within scope follows
  tooDeep := throw _
  obtain := fun path property reference parameters date =>
    obtain functional apart ⟨path, property, reference, parameters, date⟩
  annotateProperty := annotateProperty
  noteMissing := noteMissing
  recorded := fun path _ _ follows => recorded path follows
  recordedName := fun name _ _ follows => recordedName name follows

/-- Every lookup follows itself. -/
theorem congruence (functional : surroundings.provider.IsFunction)
    (quiet : surroundings.cancellation = .none) (apart : TellsApart allowed) :
    ValueCongruence fun _ first second => Follows surroundings allowed first second :=
  (steps functional quiet apart).lookups.values

end Follows

end Statute
