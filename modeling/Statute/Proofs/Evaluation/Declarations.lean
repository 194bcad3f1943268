/-
This file proves that traces show which values of declared properties were required.
-/

import Statute.Proofs.Evaluation.RuleTrace

namespace Statute

/-- The value of a property that nothing goes before is an override, or comes from a table or another
law, or is absent. -/
def Origin.isDeclared : Origin → Bool
  | overwrite => true
  | source => true
  | service => true
  | nothing => true
  | _ => false

namespace TraceNode

variable {properties : Entries Property} {first second : List TraceNode} {node : TraceNode}

/-- A node that found the value of a property through its declaration shows whether the property is
required. -/
def IsMarked (properties : Entries Property) (node : TraceNode) : Prop :=
  ∀ name origin property, node.kind = .resolve → node.path = some name →
    node.origin = some origin → origin.isDeclared = true →
    Entries.get? name properties = some property → node.required = property.required

/-- All nodes of trees are marked, as far as they belong to the same evaluation. -/
def AreMarked (properties : Entries Property) (trees : List TraceNode) : Prop :=
  ∀ node ∈ endedBelow .serviceEvaluation trees, node.IsMarked properties

@[simp]
theorem areMarked_nil : AreMarked properties [] := by
  simp [AreMarked, endedBelow]

@[simp]
theorem areMarked_cons : AreMarked properties (node :: first) ↔
    (node.kind = .serviceEvaluation ∨ AreMarked properties node.children ∧
      node.IsMarked properties) ∧ AreMarked properties first := by
  simp only [AreMarked, endedBelow, ended_eq]
  split
  · rename_i isCall
    simp [isCall]
  · rename_i noCall
    simp only [noCall, false_or, List.mem_append, List.mem_singleton, or_imp, forall_and,
      forall_eq]

@[simp]
theorem areMarked_append : AreMarked properties (first ++ second) ↔
    AreMarked properties first ∧ AreMarked properties second := by
  simp only [AreMarked, endedBelow_append, List.mem_append, or_imp, forall_and]

/-- A node that resolves nothing needs no mark. -/
theorem IsPlain.isMarked (plain : node.IsPlain) : node.IsMarked properties :=
  fun _ _ _ isLookUp => absurd isLookUp plain.noLookUp

/-- A node whose value has no origin yet, or one in front of declarations, needs no mark. -/
theorem isMarked_of_origin
    (bound : ∀ origin, node.origin = some origin → origin.isDeclared = false) :
    node.IsMarked properties := by
  intro name origin property _ _ isOrigin declared
  rw [bound origin isOrigin] at declared
  cases declared

theorem isMarked_of_noOrigin (unbound : node.origin = none) : node.IsMarked properties := by
  apply isMarked_of_origin
  rw [unbound]
  rintro _ ⟨⟩

/-- A node may open before anything is known about it. -/
theorem AreMarked.openNode (marked : AreMarked properties first) (isLeaf : node.children = [])
    (unbound : node.origin = none) : AreMarked properties (node :: first) := by
  refine areMarked_cons.mpr ⟨.inr ⟨?_, isMarked_of_noOrigin unbound⟩, marked⟩
  rw [isLeaf]
  exact areMarked_nil

/-- A node that ends stays marked below the node around it. -/
theorem AreMarked.closeNode (marked : AreMarked properties first) (result : Value) :
    AreMarked properties (Evaluation.closeNode result first) := by
  rcases first with _ | ⟨node, _ | ⟨parent, rest⟩⟩
  · exact marked
  · rw [areMarked_cons] at marked
    rw [Evaluation.closeNode, areMarked_cons]
    exact marked
  · rw [areMarked_cons, areMarked_cons] at marked
    obtain ⟨ended, around, others⟩ := marked
    rw [Evaluation.closeNode, areMarked_cons]
    refine ⟨around.imp_right fun inside => ⟨?_, inside.2⟩, others⟩
    rw [TraceNode.withChild, areMarked_append, areMarked_cons]
    exact ⟨inside.1, ended, areMarked_nil⟩

end TraceNode

/-- An evaluation that keeps a trace in which all nodes are marked. -/
structure Marking {α : Type} (evaluation : Evaluation α) : Prop where
  traced : Traced evaluation
  marks : ∀ (surroundings : Surroundings) (progress after : Progress) (value : α),
    evaluation.runFrom surroundings progress = (.ok value, after) →
    TraceNode.AreMarked surroundings.properties progress.openNodes →
    TraceNode.AreMarked surroundings.properties after.openNodes

namespace Marking

variable {α β : Type}

/-- A step that keeps the open nodes. -/
theorem ofSame {evaluation : Evaluation α} (traced : Traced evaluation)
    (same : ∀ surroundings progress,
      (evaluation.runFrom surroundings progress).2.openNodes = progress.openNodes) :
    Marking evaluation := by
  refine ⟨traced, fun surroundings progress after value ran marked => ?_⟩
  have nodes := same surroundings progress
  rw [ran] at nodes
  rw [nodes]
  exact marked

theorem pure (value : α) : Marking (pure value) :=
  ofSame (.pure value) fun _ _ => rfl

theorem bind {first : Evaluation α} {next : α → Evaluation β} (marking : Marking first)
    (continues : ∀ value, Marking (next value)) : Marking (first >>= next) := by
  refine ⟨.bind marking.traced fun value => (continues value).traced, ?_⟩
  intro surroundings progress after value ran marked
  obtain ⟨between, _, begun, continued⟩ := Evaluation.runFrom_bind_ok ran
  exact (continues between).marks _ _ _ _ continued (marking.marks _ _ _ _ begun marked)

theorem detail (name : String) (value : Value) : Marking (Evaluation.annotateDetail name value) := by
  refine ⟨.detail name value, fun surroundings progress after _ ran marked => ?_⟩
  cases ran
  cases nodes : progress.openNodes with
  | nil => simp [nodes]
  | cons node rest =>
      rw [nodes, TraceNode.areMarked_cons] at marked
      simp only [nodes, TraceNode.areMarked_cons]
      exact marked

theorem inNode {node : TraceNode} (shown : α → Value) {body : Evaluation α} (plain : node.IsPlain)
    (marking : Marking body) : Marking (Evaluation.inNode node shown body) := by
  refine ⟨.inNode shown plain marking.traced, fun surroundings progress after value ran marked => ?_⟩
  rw [Evaluation.runFrom_inNode] at ran
  split at ran
  · rename_i between inner
    cases ran
    apply TraceNode.AreMarked.closeNode
    apply marking.marks _ _ _ _ inner
    refine TraceNode.areMarked_cons.mpr ⟨.inr ⟨?_, plain.isMarked⟩, marked⟩
    simp [plain.isLeaf]
  · cases ran

theorem within (scope : Record) {body : Evaluation α} (marking : Marking body) :
    Marking (Evaluation.within scope body) := by
  refine ⟨.within scope marking.traced, fun surroundings progress after value ran marked => ?_⟩
  rw [Evaluation.runFrom_within] at ran
  cases inner : body.runFrom surroundings { progress with scope } with
  | mk result between =>
      rw [inner] at ran
      obtain ⟨rfl, rfl⟩ := Prod.mk.inj ran
      have kept := marking.marks surroundings { progress with scope } between value inner
      exact kept marked

/-- What another evaluation did is behind the node of the call. -/
theorem obtain (question : Call.Question) :
    Marking (Call.obtain question.path question.property question.reference question.parameters
      question.date) := by
  refine ⟨.obtain question, fun surroundings progress after value ran marked => ?_⟩
  cases remembered : progress.remembered? question.key with
  | some kept =>
      rw [Call.runFrom_obtain_some remembered] at ran
      exact ((detail "cached" (.bool true)).bind fun _ => pure kept).marks _ _ _ _ ran marked
  | none =>
      rw [Call.runFrom_obtain_none remembered] at ran
      cases asked : surroundings.provider (question.request surroundings) progress.shared with
      | mk result shared =>
          cases result with
          | error cause =>
              rw [Call.runFrom_perform_error asked] at ran
              cases ran
          | ok outcome =>
              rw [Call.runFrom_perform_ok asked] at ran
              cases ran
              apply TraceNode.AreMarked.closeNode
              exact TraceNode.areMarked_cons.mpr ⟨.inl (question.kind_answeredNode outcome), marked⟩

/-- The node of a path is marked in the end when it is with the origin of its value. -/
theorem outside_found {properties : Entries Property} {path : String} {found : Resolution.Found}
    {progress : Progress} {node : TraceNode} {tail : List TraceNode}
    (nodes : progress.openNodes = node :: tail)
    (marked : TraceNode.AreMarked properties progress.openNodes)
    (own : (node.withOrigin found.origin).IsMarked properties) :
    TraceNode.AreMarked properties
      ((progress.withFound path found).outside found.value).openNodes := by
  apply TraceNode.AreMarked.closeNode
  rw [nodes, TraceNode.areMarked_cons] at marked
  rw [Resolution.notes_withFound path found nodes, TraceNode.areMarked_cons]
  refine ⟨marked.1.imp (fun isCall => ?_) fun below => ⟨?_, own⟩, marked.2⟩
  · cases found.origin <;> exact isCall
  · cases found.origin <;> exact below.1

/-- A path whose value has no declaration of its own. -/
theorem recorded (path : String) {body : Evaluation Resolution.Found} (marking : Marking body)
    (undeclared : ∀ (surroundings : Surroundings) (progress after : Progress)
      (found : Resolution.Found), body.runFrom surroundings progress = (.ok found, after) →
      ∀ origin, found.origin = some origin → origin.isDeclared = false) :
    Marking (Resolution.recorded path body) := by
  refine ⟨.recorded path marking.traced, fun surroundings progress after value ran marked => ?_⟩
  rw [Resolution.runFrom_recorded] at ran
  split at ran
  · rename_i found between inner
    cases ran
    obtain ⟨added, records⟩ := marking.traced _ _ _ _ inner (List.cons_ne_nil _ _)
    obtain ⟨details, nodes⟩ := records.inside rfl
    refine outside_found nodes (marking.marks _ _ _ _ inner (marked.openNode rfl rfl)) ?_
    apply TraceNode.isMarked_of_origin
    intro origin isOrigin
    apply undeclared _ _ _ _ inner
    cases known : found.origin with
    | none =>
        rw [known] at isOrigin
        cases isOrigin
    | some other =>
        rw [known] at isOrigin
        cases isOrigin
        rfl
  · cases ran

/-- The node of a name takes over what its declaration says. -/
theorem isMarked_declared {properties : Entries Property} {name : String} {property : Property}
    (declared : Entries.get? name properties = some property) (details : Record)
    (children : List TraceNode) (origin : Option Origin) :
    (({ TraceNode.resolving name with
        required := property.required, details, children } : TraceNode).withOrigin
          origin).IsMarked properties := by
  intro other _ found _ isPath _ _ isFound
  have same : name = other := by
    cases origin <;> exact Option.some.inj isPath
  rw [← same, declared] at isFound
  cases isFound
  cases origin <;> rfl

/-- What a property notes about itself is marked, and so is what its value is made of. -/
theorem marks_resolveProperty {lookUp : LookUp} {name : String} {property : Property}
    (marking : Marking (Resolution.propertyValue lookUp name property))
    {surroundings : Surroundings} {progress after : Progress} {found : Resolution.Found}
    (ran : (Resolution.resolveProperty lookUp name property).runFrom surroundings
      (progress.inside (TraceNode.resolving name)) = (.ok found, after))
    (marked : TraceNode.AreMarked surroundings.properties progress.openNodes) :
    TraceNode.AreMarked surroundings.properties after.openNodes := by
  obtain ⟨details, annotated⟩ := Traced.runFrom_annotateProperty property
    (TraceNode.resolving name) surroundings progress
  rw [Resolution.resolveProperty, Evaluation.runFrom_bind_of_ok annotated] at ran
  obtain ⟨⟨origin, value⟩, between, valued, ran⟩ := Evaluation.runFrom_bind_ok ran
  cases ran
  apply marking.marks _ _ _ _ valued
  exact marked.openNode rfl rfl

theorem bound?_undeclared {surroundings : Surroundings} {progress : Progress} {name : String}
    {origin : Origin} {value : Value}
    (bound : Resolution.bound? surroundings progress name = some (origin, value)) :
    origin.isDeclared = false := by
  obtain ⟨⟨other, record⟩, member, found⟩ := List.exists_of_findSome?_eq_some bound
  obtain ⟨_, _, same⟩ := Option.map_eq_some_iff.mp found
  cases same
  simp only [List.mem_cons, Prod.mk.injEq, List.not_mem_nil, or_false] at member
  rcases member with ⟨rfl, _⟩ | ⟨rfl, _⟩ | ⟨rfl, _⟩ | ⟨rfl, _⟩ <;> rfl

/-- The node of a claimed name shows its declaration, if it has one. -/
theorem marks_claim {surroundings : Surroundings} {progress between : Progress} {name : String}
    {value : Value} {found : Resolution.Found}
    (ran : (Resolution.resolveClaim (Entries.get? name surroundings.properties) value).runFrom
      surroundings (progress.inside (TraceNode.resolving name)) = (.ok found, between))
    (marked : TraceNode.AreMarked surroundings.properties progress.openNodes) :
    TraceNode.AreMarked surroundings.properties
      ((between.withFound name found).outside found.value).openNodes := by
  cases declared : Entries.get? name surroundings.properties with
  | none =>
      rw [declared] at ran
      cases ran
      refine outside_found rfl (marked.openNode rfl rfl) (TraceNode.isMarked_of_origin ?_)
      rintro _ ⟨⟩
      rfl
  | some property =>
      obtain ⟨details, annotated⟩ := Traced.runFrom_annotateProperty property
        (TraceNode.resolving name) surroundings progress
      rw [declared, Resolution.resolveClaim, Evaluation.runFrom_bind_of_ok annotated] at ran
      cases ran
      exact outside_found rfl (marked.openNode rfl rfl) (isMarked_declared declared details [] _)

/-- The node of any other name shows the declaration that gives its value. -/
theorem marks_unclaimed {surroundings : Surroundings} {progress between : Progress} {name : String}
    {lookUp : LookUp} {found : Resolution.Found}
    (marking : ∀ property, Marking (Resolution.propertyValue lookUp name property))
    (ran : (Resolution.unclaimed lookUp surroundings name
      (Resolution.bound? surroundings progress name)).runFrom surroundings
        (progress.inside (TraceNode.resolving name)) = (.ok found, between))
    (marked : TraceNode.AreMarked surroundings.properties progress.openNodes) :
    TraceNode.AreMarked surroundings.properties
      ((between.withFound name found).outside found.value).openNodes := by
  have entered : TraceNode.AreMarked surroundings.properties
      (progress.inside (TraceNode.resolving name)).openNodes := marked.openNode rfl rfl
  unfold Resolution.unclaimed at ran
  -- Of the sources of a name only the last has a declaration behind it.
  split at ran
  · rename_i bound
    cases ran
    refine outside_found rfl entered (TraceNode.isMarked_of_origin ?_)
    rintro _ ⟨⟩
    exact bound?_undeclared bound
  · split at ran
    · rename_i property declared
      obtain ⟨children, finds⟩ := Traced.finds_resolveProperty (marking property).traced ran
      obtain ⟨details, nodes⟩ := finds.nodes
      exact outside_found nodes (marks_resolveProperty (marking property) ran marked)
        (isMarked_declared declared details children _)
    · rename_i undeclared
      cases ran
      refine outside_found rfl entered ?_
      rintro _ _ property _ ⟨⟩ _ _ declared
      rw [undeclared] at declared
      cases declared

/-- The node of a name is marked by the declaration that gives its value. -/
theorem recordedName (name : String) {lookUp : LookUp}
    (marking : ∀ property, Marking (Resolution.propertyValue lookUp name property)) :
    Marking (Resolution.recorded name (Resolution.resolveName lookUp name)) := by
  refine ⟨.recordedName name fun property => (marking property).traced, ?_⟩
  intro surroundings progress after value ran marked
  rw [Resolution.runFrom_recorded] at ran
  split at ran
  · rename_i found between inner
    cases ran
    rw [Resolution.runFrom_resolveName_chosen] at inner
    unfold Resolution.chosen at inner
    split at inner
    · exact @marks_claim surroundings (progress.withAccess name) between name _ found inner marked
    · exact @marks_unclaimed surroundings (progress.withAccess name) between name lookUp found marking
        inner marked
  · cases ran

/-- Every lookup keeps the marks. -/
theorem lookups : LookupCongruence fun _ evaluation _ => Marking evaluation where
  pure := pure
  throw := fun _ => ofSame (.throw _) fun _ _ => rfl
  bind := bind
  given := fun _ => ofSame (.given _) fun _ _ => rfl
  isMissing := ofSame .isMissing fun _ _ => rfl
  checkCancelled := ofSame .checkCancelled fun _ _ => by rw [Evaluation.runFrom_checkCancelled]
  raiseFlag := ofSame .raiseFlag fun _ _ => rfl
  detail := fun value _ => detail _ value
  inNode := fun shown _ _ plain marking => inNode shown plain marking
  within := fun scope _ _ marking => within scope marking
  tooDeep := ofSame (.throw _) fun _ _ => rfl
  obtain := fun path property reference parameters date =>
    obtain ⟨path, property, reference, parameters, date⟩
  recordedDate := fun path value => recorded path (pure _) (by rintro _ _ _ _ ⟨⟩ _ ⟨⟩; rfl)
  recordedFields := fun path names _ _ marking =>
    recorded path (bind marking fun _ => pure _) (by
      intro _ _ _ _ ran origin isOrigin
      obtain ⟨base, _, _, ran⟩ := Evaluation.runFrom_bind_ok ran
      cases ran
      cases isOrigin)
  recordedName := fun name _ _ marking => recordedName name marking

/-- Requirements and actions keep the marks. -/
theorem congruence : ActionCongruence fun _ evaluation _ => Marking evaluation where
  toValueCongruence := lookups.values
  gathered := fun _ => ofSame
    (.ofRun (fun _ _ => rfl) (fun _ => rfl) (fun _ => rfl) fun _ => rfl) fun _ _ => rfl
  setOutput := fun _ _ => ofSame
    (.ofRun (fun _ _ => rfl) (fun _ => rfl) (fun _ => rfl) fun _ => rfl) fun _ _ => rfl

end Marking

/-- The nodes of an answer's trace are marked, as far as they belong to the same evaluation. -/
theorem Rule.evaluate_marked {rule : Rule} {provider : Provider} {claims : Option ClaimLookup}
    {sources : Entries Source} {request : Request} {date : Date} {shared after : Shared}
    {outcome : Outcome} {trace : TraceNode}
    (answered : rule.evaluate provider claims sources request date shared = (.ok outcome, after))
    (traced : outcome.trace = some trace) :
    TraceNode.AreMarked (propertyTable rule.declaredProperties) trace.children := by
  obtain ⟨met, last, parted, rfl⟩ := evaluate_ok answered
  have marking := Marking.congruence.runParts rule request.requested
  obtain ⟨added, records⟩ := marking.traced _ _ _ _ parted (List.cons_ne_nil _ _)
  obtain ⟨details, nodes⟩ := records.inside rfl
  have isTrace : trace.children = added := by
    obtain ⟨shown, ended⟩ := trace_outside rfl records (.record (shownOutput last))
    rw [outcome, ended] at traced
    cases traced
    rfl
  have marked := marking.marks _ _ _ _ parted (TraceNode.areMarked_nil.openNode rfl rfl)
  rw [nodes, TraceNode.areMarked_cons] at marked
  rw [isTrace]
  rcases marked.1 with isCall | inside
  · cases isCall
  · exact inside.1

end Statute
