/-
This file proves that traces account for what evaluations resolve and for what they miss.
-/

import Statute.Proofs.Collections
import Statute.Proofs.Evaluation.Simulation

namespace Statute

theorem Value.isNull_iff {value : Value} : value.isNull = true ↔ value = .null := by
  cases value <;> simp [isNull]

namespace TraceNode

/-- A required value that is null shows in the node of its path, unless null was claimed. -/
def ShowsMissing (node : TraceNode) : Prop :=
  node.kind = .resolve ∧ node.required = true ∧ node.result = .null ∧ node.origin ≠ some .claim

mutual

/-- The nodes of a tree in the order in which they ended. A node of the border's kind is left out
with everything below it. -/
def ended (border : NodeKind) : TraceNode → List TraceNode
  | ⟨kind, name, path, result, origin, required, details, children⟩ =>
      if kind = border then []
      else endedBelow border children ++
        [⟨kind, name, path, result, origin, required, details, children⟩]

def endedBelow (border : NodeKind) : List TraceNode → List TraceNode
  | [] => []
  | child :: rest => child.ended border ++ endedBelow border rest

end

/-- The path and the value of a node that resolved a path to a value other than null. -/
def reading? (node : TraceNode) : Option (String × Value) :=
  match node.kind, node.path with
  | .resolve, some path => if node.result.isNull then none else some (path, node.result)
  | _, _ => none

/-- What the nodes of trees resolved on this side of a border. -/
def readings (border : NodeKind) (trees : List TraceNode) : List (String × Value) :=
  (endedBelow border trees).filterMap reading?

theorem nodesBelow_append (first second : List TraceNode) :
    nodesBelow (first ++ second) = nodesBelow first ++ nodesBelow second := by
  induction first with
  | nil => rw [nodesBelow, List.nil_append, List.nil_append]
  | cons child rest inductionHypothesis =>
      rw [List.cons_append, nodesBelow, nodesBelow, inductionHypothesis, List.append_assoc]

theorem nodesBelow_singleton (node : TraceNode) :
    nodesBelow [node] = node :: nodesBelow node.children := by
  cases node
  rw [nodesBelow, nodesBelow, List.append_nil, nodes]

theorem exists_showsMissing_singleton (node : TraceNode) :
    (∃ shown ∈ nodesBelow [node], shown.ShowsMissing) ↔
      node.ShowsMissing ∨ ∃ shown ∈ nodesBelow node.children, shown.ShowsMissing := by
  rw [nodesBelow_singleton]
  simp only [List.mem_cons, or_and_right, exists_or, exists_eq_left]

theorem endedBelow_append (border : NodeKind) (first second : List TraceNode) :
    endedBelow border (first ++ second) = endedBelow border first ++ endedBelow border second := by
  induction first with
  | nil => rw [endedBelow, List.nil_append, List.nil_append]
  | cons child rest inductionHypothesis =>
      rw [List.cons_append, endedBelow, endedBelow, inductionHypothesis, List.append_assoc]

@[simp]
theorem readings_nil (border : NodeKind) : readings border [] = [] := by
  rw [readings, endedBelow, List.filterMap_nil]

theorem readings_append (border : NodeKind) (first second : List TraceNode) :
    readings border (first ++ second) = readings border first ++ readings border second := by
  rw [readings, endedBelow_append, List.filterMap_append]
  rfl

theorem ended_eq (border : NodeKind) (node : TraceNode) :
    node.ended border =
      if node.kind = border then [] else endedBelow border node.children ++ [node] := by
  cases node
  rw [ended]

/-- A node on this side of the border is read after the nodes below it. -/
theorem readings_singleton (border : NodeKind) (node : TraceNode) :
    readings border [node] =
      if node.kind = border then [] else readings border node.children ++ node.reading?.toList := by
  rw [readings, endedBelow, endedBelow, List.append_nil, ended_eq]
  split
  · rfl
  · rw [List.filterMap_append]
    cases read : node.reading? with
    | none => simp [readings, read]
    | some pair => simp [readings, read]

end TraceNode

/-- The trace of an answer shows whether a required value is missing. -/
def Outcome.IsExplained (outcome : Outcome) : Prop :=
  ∃ trace, outcome.trace = some trace ∧
    (outcome.missingRequired = true ↔ ∃ node ∈ trace.nodes, node.ShowsMissing)

namespace Provider

/-- Every answer is explained. -/
def Explains (provider : Provider) : Prop :=
  ∀ request shared outcome after, provider request shared = (.ok outcome, after) →
    outcome.IsExplained

/-- Every trace begins with the node of a whole evaluation. -/
def GivesRoots (provider : Provider) : Prop :=
  ∀ request shared outcome after trace, provider request shared = (.ok outcome, after) →
    outcome.trace = some trace → trace.kind = .root

/-- What other evaluations resolved is behind the nodes of calls, and behind the outermost nodes of
answers where all traces have one. -/
def IsBehind (provider : Provider) (border : NodeKind) : Prop :=
  border = .serviceEvaluation ∨ border = .root ∧ provider.GivesRoots

end Provider

/-- Nodes that were added account for the values that were resolved and for those that are missing
since. -/
structure Accounts (provider : Provider) (before after : Progress) (added : List TraceNode) :
    Prop where
  resolved : ∀ border, provider.IsBehind border →
    after.resolved = Entries.merge before.resolved (TraceNode.readings border added)
  missing : provider.Explains → (after.missingRequired = true ↔
    before.missingRequired = true ∨ ∃ node ∈ TraceNode.nodesBelow added, node.ShowsMissing)

/-- Nodes were added below the innermost open node, whose details may have changed, and account for
what happened. -/
structure Records (provider : Provider) (before after : Progress) (added : List TraceNode) :
    Prop extends Accounts provider before after added where
  nodes : ∃ top details tail, before.openNodes = top :: tail ∧
    after.openNodes = { top with details, children := top.children ++ added } :: tail

namespace Accounts

variable {provider : Provider} {before between after : Progress} {first second : List TraceNode}

/-- What keeps resolved values and the flag needs no account. -/
theorem ofSame (resolved : after.resolved = before.resolved)
    (missing : after.missingRequired = before.missingRequired) :
    Accounts provider before after [] := by
  refine ⟨fun border _ => ?_, fun _ => ?_⟩
  · rw [resolved, TraceNode.readings_nil]
    rfl
  · rw [missing, TraceNode.nodesBelow]
    simp

theorem trans (begun : Accounts provider before between first)
    (continued : Accounts provider between after second) :
    Accounts provider before after (first ++ second) := by
  refine ⟨fun border behind => ?_, fun explains => ?_⟩
  · rw [continued.resolved border behind, begun.resolved border behind, TraceNode.readings_append,
      Entries.merge_append]
  · rw [continued.missing explains, begun.missing explains, TraceNode.nodesBelow_append, or_assoc]
    simp only [List.mem_append, or_and_right, exists_or]

/-- A node that neither looks up a path nor calls a law accounts for the same as the nodes below
it. -/
theorem around {node : TraceNode} (accounts : Accounts provider before after node.children)
    (noLookUp : node.kind ≠ .resolve) (noCall : node.kind ≠ .serviceEvaluation)
    (noRoot : node.kind ≠ .root) : Accounts provider before after [node] := by
  have nothingRead : node.reading? = none := by
    unfold TraceNode.reading?
    split
    · rename_i isLookUp _
      exact absurd isLookUp noLookUp
    · rfl
  refine ⟨fun border behind => ?_, fun explains => ?_⟩
  · have before : node.kind ≠ border := by
      rcases behind with rfl | ⟨rfl, _⟩
      · exact noCall
      · exact noRoot
    rw [accounts.resolved border behind, TraceNode.readings_singleton, if_neg before, nothingRead,
      Option.toList_none, List.append_nil]
  · have shows : ¬node.ShowsMissing := fun shows => noLookUp shows.1
    rw [accounts.missing explains, TraceNode.exists_showsMissing_singleton, or_iff_right shows]

/-- A node that ends is added below the node around it. -/
theorem outside {node : TraceNode} {result : Value}
    (accounts : Accounts provider before between [{ node with result }])
    (nodes : between.openNodes = node :: before.openNodes) (opened : before.openNodes ≠ []) :
    Records provider before (between.outside result) [{ node with result }] := by
  obtain ⟨top, tail, around⟩ := List.exists_cons_of_ne_nil opened
  refine ⟨⟨accounts.resolved, accounts.missing⟩, top, top.details, tail, around, ?_⟩
  rw [Progress.outside, nodes, around]
  rfl

end Accounts

namespace Records

variable {provider : Provider} {before between after : Progress} {first second : List TraceNode}

theorem trans (begun : Records provider before between first)
    (continued : Records provider between after second) :
    Records provider before after (first ++ second) := by
  refine ⟨begun.toAccounts.trans continued.toAccounts, ?_⟩
  obtain ⟨top, details, tail, nodes, added⟩ := begun.nodes
  obtain ⟨grown, later, rest, opened, addedLater⟩ := continued.nodes
  rw [added] at opened
  obtain ⟨rfl, rfl⟩ := List.cons.inj opened
  exact ⟨top, later, tail, nodes, by rw [addedLater, List.append_assoc]⟩

theorem opened (records : Records provider before after first) : after.openNodes ≠ [] := by
  obtain ⟨top, details, tail, nodes, added⟩ := records.nodes
  rw [added]
  exact List.cons_ne_nil _ _

/-- A step that keeps open nodes, resolved values and the flag records nothing. -/
theorem ofSame (opened : before.openNodes ≠ []) (nodes : after.openNodes = before.openNodes)
    (resolved : after.resolved = before.resolved)
    (missing : after.missingRequired = before.missingRequired) : Records provider before after [] := by
  obtain ⟨top, tail, around⟩ := List.exists_cons_of_ne_nil opened
  refine ⟨.ofSame resolved missing, top, top.details, tail, around, ?_⟩
  -- Nodes contain nodes, so a node equals the record of its fields only case by case.
  rw [nodes, around]
  cases top
  rw [List.append_nil]

/-- What was recorded inside a new node is below it. -/
theorem inside {node : TraceNode} (isLeaf : node.children = [])
    (records : Records provider (before.inside node) after first) :
    ∃ details, after.openNodes = { node with details, children := first } :: before.openNodes := by
  obtain ⟨top, details, tail, nodes, added⟩ := records.nodes
  obtain ⟨rfl, rfl⟩ := List.cons.inj nodes
  exact ⟨details, by rw [added, isLeaf, List.nil_append]⟩

/-- A plain node that ends has below it what was recorded inside it. -/
theorem ended {node : TraceNode} (plain : node.IsPlain)
    (records : Records provider (before.inside node) between first) (opened : before.openNodes ≠ [])
    (result : Value) : ∃ details, Records provider before (between.outside result)
      [{ node with details, children := first, result }] := by
  obtain ⟨details, nodes⟩ := records.inside plain.isLeaf
  have below : Accounts provider before between first := ⟨records.resolved, records.missing⟩
  have accounts : Accounts provider before between
      [{ node with details, children := first, result }] :=
    below.around plain.noLookUp plain.noCall plain.noRoot
  exact ⟨details, accounts.outside nodes opened⟩

end Records

/-- A lookup has found a value below the node of its path, which is still open. The flag is also
raised when the value itself is required and missing. -/
structure Finds (provider : Provider) (path : String) (before after : Progress)
    (found : Resolution.Found) (required : Bool) (children : List TraceNode) : Prop where
  nodes : ∃ details, after.openNodes =
    { TraceNode.resolving path with required, details, children } :: before.openNodes
  resolved : ∀ border, provider.IsBehind border →
    after.resolved = Entries.merge before.resolved (TraceNode.readings border children)
  missing : provider.Explains → (after.missingRequired = true ↔
    (before.missingRequired = true ∨ ∃ node ∈ TraceNode.nodesBelow children, node.ShowsMissing) ∨
      required = true ∧ found.value = .null ∧ found.origin ≠ some .claim)

/-- Where nothing was added, a required value can only be missing as a claim. -/
theorem Finds.ofNode {provider : Provider} {path : String} {before : Progress}
    {found : Resolution.Found} {required : Bool} {details : Record}
    (claimed : required = true → found.origin = some .claim) :
    Finds provider path before
      (before.inside { TraceNode.resolving path with required, details }) found required [] := by
  refine ⟨⟨details, rfl⟩, fun border _ => ?_, fun _ => ?_⟩
  · rw [TraceNode.readings_nil]
    rfl
  · have present : ¬(required = true ∧ found.value = .null ∧ found.origin ≠ some .claim) :=
      fun missing => missing.2.2 (claimed missing.1)
    rw [or_iff_left present, TraceNode.nodesBelow]
    simp [Progress.inside]

/-- The node of a path ends with the value that was found. -/
theorem Finds.recorded {provider : Provider} {path : String} {before after : Progress}
    {found : Resolution.Found} {required : Bool} {children : List TraceNode}
    (finds : Finds provider path (before.withAccess path) after found required children)
    (opened : before.openNodes ≠ []) :
    ∃ added, Records provider before ((after.withFound path found).outside found.value) added := by
  obtain ⟨details, nodes⟩ := finds.nodes
  let node : TraceNode :=
    { TraceNode.resolving path with required, details, children, origin := found.origin }
  have ending : (after.withFound path found).openNodes = node :: before.openNodes := by
    rw [Progress.withFound, nodes]
    cases origin : found.origin <;>
      simp [node, origin, TraceNode.resolving, TraceNode.fresh, Progress.withAccess]
  refine ⟨_, Accounts.outside ⟨fun border behind => ?_, fun explains => ?_⟩ ending opened⟩
  · have before : NodeKind.resolve ≠ border := by
      rcases behind with rfl | ⟨rfl, _⟩ <;> decide
    have kept : (after.withFound path found).resolved =
        if found.value.isNull then after.resolved
        else Entries.insert path found.value after.resolved := rfl
    have read : ({ node with result := found.value } : TraceNode).reading? =
        if found.value.isNull then none else some (path, found.value) := rfl
    rw [kept, finds.resolved border behind, TraceNode.readings_singleton,
      if_neg (show node.kind ≠ border from before), read, Entries.merge_append]
    split <;> rfl
  · have flag : (after.withFound path found).missingRequired = after.missingRequired := rfl
    have shows : ({ node with result := found.value } : TraceNode).ShowsMissing ↔
        required = true ∧ found.value = .null ∧ found.origin ≠ some .claim := by
      simp [TraceNode.ShowsMissing, node, TraceNode.resolving, TraceNode.fresh]
    rw [flag, finds.missing explains, TraceNode.exists_showsMissing_singleton, shows, or_assoc]
    exact or_congr_right or_comm

namespace Call.Question

variable (question : Call.Question) (outcome : Outcome)

theorem kind_answeredNode : (question.answeredNode outcome).kind = .serviceEvaluation := by
  rw [(question.node_grows outcome).kind]
  rfl

theorem children_answeredNode :
    (question.answeredNode outcome).children = outcome.trace.toList := by
  unfold answeredNode
  split
  · rename_i trace traced
    rw [traced]
    rfl
  · rename_i untraced
    rw [untraced]
    rfl

end Call.Question

/-- An evaluation that succeeds records what it does in the trace. -/
def Traced {α : Type} (evaluation : Evaluation α) : Prop :=
  ∀ (surroundings : Surroundings) (progress after : Progress) (value : α),
    evaluation.runFrom surroundings progress = (.ok value, after) → progress.openNodes ≠ [] →
    ∃ added, Records surroundings.provider progress after added

namespace Traced

variable {α β : Type}

/-- A step that keeps open nodes, resolved values and the flag is traced. -/
theorem ofRun {evaluation : Evaluation α} {result : Surroundings → Progress → α}
    {after : Progress → Progress}
    (ran : ∀ surroundings progress, evaluation.runFrom surroundings progress =
      (.ok (result surroundings progress), after progress))
    (nodes : ∀ progress, (after progress).openNodes = progress.openNodes)
    (resolved : ∀ progress, (after progress).resolved = progress.resolved)
    (missing : ∀ progress, (after progress).missingRequired = progress.missingRequired) :
    Traced evaluation := by
  intro surroundings progress later value succeeded opened
  rw [ran] at succeeded
  cases succeeded
  exact ⟨[], .ofSame opened (nodes progress) (resolved progress) (missing progress)⟩

theorem pure (value : α) : Traced (pure value) :=
  ofRun (fun _ _ => rfl) (fun _ => rfl) (fun _ => rfl) fun _ => rfl

theorem throw (error : EvaluationError) : Traced (throw error : Evaluation α) :=
  fun _ _ _ _ failed _ => by cases failed

theorem given (view : Surroundings → α) : Traced (Evaluation.given view) :=
  ofRun (fun _ _ => rfl) (fun _ => rfl) (fun _ => rfl) fun _ => rfl

theorem isMissing : Traced Evaluation.isMissing :=
  ofRun (fun _ _ => rfl) (fun _ => rfl) (fun _ => rfl) fun _ => rfl

theorem raiseFlag : Traced Evaluation.raiseFlag :=
  ofRun (fun _ _ => rfl) (fun _ => rfl) (fun _ => rfl) fun _ => rfl

theorem checkCancelled : Traced Evaluation.checkCancelled := by
  intro surroundings progress after value succeeded opened
  rw [Evaluation.runFrom_checkCancelled] at succeeded
  split at succeeded
  · cases succeeded
  · cases succeeded
    exact ⟨[], .ofSame opened rfl rfl rfl⟩

theorem bind {first : Evaluation α} {next : α → Evaluation β} (traced : Traced first)
    (continues : ∀ value, Traced (next value)) : Traced (first >>= next) := by
  intro surroundings progress after value succeeded opened
  obtain ⟨between, _, begun, continued⟩ := Evaluation.runFrom_bind_ok succeeded
  obtain ⟨added, records⟩ := traced _ _ _ _ begun opened
  obtain ⟨more, recordsMore⟩ := continues between _ _ _ _ continued records.opened
  exact ⟨added ++ more, records.trans recordsMore⟩

theorem detail (name : String) (value : Value) : Traced (Evaluation.annotateDetail name value) := by
  intro surroundings progress after _ succeeded opened
  cases succeeded
  obtain ⟨top, tail, around⟩ := List.exists_cons_of_ne_nil opened
  refine ⟨[], .ofSame rfl rfl, top, Entries.insert name value top.details, tail, around, ?_⟩
  simp only [around, List.append_nil]
  rfl

/-- What happens inside a plain node is recorded below it. -/
theorem inNode {node : TraceNode} (shown : α → Value) {body : Evaluation α} (plain : node.IsPlain)
    (traced : Traced body) : Traced (Evaluation.inNode node shown body) := by
  intro surroundings progress after value succeeded opened
  rw [Evaluation.runFrom_inNode] at succeeded
  split at succeeded
  · rename_i between ran
    cases succeeded
    obtain ⟨added, records⟩ := traced _ _ _ _ ran (List.cons_ne_nil _ _)
    obtain ⟨details, ended⟩ := records.ended plain opened (shown value)
    exact ⟨_, ended⟩
  · cases succeeded

theorem within (scope : Record) {body : Evaluation α} (traced : Traced body) :
    Traced (Evaluation.within scope body) := by
  intro surroundings progress after value succeeded opened
  rw [Evaluation.runFrom_within] at succeeded
  cases inner : body.runFrom surroundings { progress with scope } with
  | mk result between =>
      rw [inner] at succeeded
      obtain ⟨rfl, rfl⟩ := Prod.mk.inj succeeded
      obtain ⟨added, records⟩ := traced _ _ _ _ inner opened
      exact ⟨added, ⟨records.resolved, records.missing⟩, records.nodes⟩

/-- A call is recorded by its node, which has the trace of the answer below it. -/
theorem answered (question : Call.Question) {surroundings : Surroundings} {progress : Progress}
    {outcome : Outcome} {shared : Shared}
    (answered : surroundings.provider (question.request surroundings) progress.shared =
      (.ok outcome, shared)) (opened : progress.openNodes ≠ []) :
    ∃ added, Records surroundings.provider progress
      (question.afterAnswer outcome shared progress) added := by
  let node : TraceNode := { question.answeredNode outcome with result := question.valueIn outcome }
  have isCall : node.kind = .serviceEvaluation := question.kind_answeredNode outcome
  have children : node.children = outcome.trace.toList := question.children_answeredNode outcome
  refine ⟨_, Accounts.outside ⟨fun border behind => ?_, fun explains => ?_⟩ rfl opened⟩
  -- The border is either this node or the root of the answer's trace below it.
  · have nothing : TraceNode.readings border [node] = [] := by
      rw [TraceNode.readings_singleton, isCall]
      rcases behind with rfl | ⟨rfl, rooted⟩
      · rw [if_pos rfl]
      · have unread : node.reading? = none := by simp [TraceNode.reading?, isCall]
        rw [if_neg (by decide), unread, children, Option.toList_none, List.append_nil]
        cases traced : outcome.trace with
        | none => exact TraceNode.readings_nil _
        | some trace =>
            rw [Option.toList_some, TraceNode.readings_singleton,
              if_pos (rooted _ _ _ _ trace answered traced)]
    rw [nothing]
    rfl
  · obtain ⟨trace, traced, explained⟩ := explains _ _ _ _ answered
    have shows : ¬node.ShowsMissing := fun shows => by
      rw [TraceNode.ShowsMissing, isCall] at shows
      cases shows.1
    have below : TraceNode.nodesBelow node.children = trace.nodes := by
      rw [children, traced, Option.toList_some, TraceNode.nodesBelow, TraceNode.nodesBelow,
        List.append_nil]
    rw [TraceNode.exists_showsMissing_singleton, or_iff_right shows, below, ← explained]
    exact iff_of_eq (Bool.or_eq_true _ _)

theorem obtain (question : Call.Question) :
    Traced (Call.obtain question.path question.property question.reference question.parameters
      question.date) := by
  intro surroundings progress after value succeeded opened
  cases remembered : progress.remembered? question.key with
  | some kept =>
      rw [Call.runFrom_obtain_some remembered] at succeeded
      exact (detail "cached" (.bool true)).bind (fun _ => pure kept) _ _ _ _ succeeded opened
  | none =>
      rw [Call.runFrom_obtain_none remembered] at succeeded
      cases asked : surroundings.provider (question.request surroundings) progress.shared with
      | mk result shared =>
          cases result with
          | error cause =>
              rw [Call.runFrom_perform_error asked] at succeeded
              cases succeeded
          | ok outcome =>
              rw [Call.runFrom_perform_ok asked] at succeeded
              cases succeeded
              exact answered question asked opened

theorem recorded (path : String) {body : Evaluation Resolution.Found} (traced : Traced body) :
    Traced (Resolution.recorded path body) := by
  intro surroundings progress after value succeeded opened
  rw [Resolution.runFrom_recorded] at succeeded
  split at succeeded
  · rename_i found between ran
    cases succeeded
    obtain ⟨added, records⟩ := traced _ _ _ _ ran (List.cons_ne_nil _ _)
    have finds : Finds surroundings.provider path (progress.withAccess path) between found false
        added := by
      refine ⟨records.inside rfl, records.resolved, fun explains => ?_⟩
      rw [records.missing explains]
      simp [Progress.inside]
    exact finds.recorded opened
  · cases succeeded

/-- The declaration of a property is taken over by the node of its name. -/
theorem runFrom_annotateProperty (property : Property) (node : TraceNode)
    (surroundings : Surroundings) (progress : Progress) :
    ∃ details, (Resolution.annotateProperty property).runFrom surroundings (progress.inside node) =
      (.ok (), progress.inside { node with required := property.required, details }) := by
  cases typed : property.valueType with
  | none => exact ⟨node.details, by simp only [Resolution.annotateProperty, typed]; rfl⟩
  | some valueType =>
      exact ⟨Entries.insert "type" (.string valueType) node.details, by
        simp only [Resolution.annotateProperty, typed]; rfl⟩

/-- A property notes whether its value is missing when it is required. -/
theorem finds_resolveProperty {lookUp : LookUp} {name : String} {property : Property}
    (traced : Traced (Resolution.propertyValue lookUp name property)) {surroundings : Surroundings}
    {progress after : Progress} {found : Resolution.Found}
    (ran : (Resolution.resolveProperty lookUp name property).runFrom surroundings
      (progress.inside (TraceNode.resolving name)) = (.ok found, after)) :
    ∃ children, Finds surroundings.provider name progress after found property.required children := by
  obtain ⟨details, annotated⟩ := runFrom_annotateProperty property (TraceNode.resolving name)
    surroundings progress
  rw [Resolution.resolveProperty, Evaluation.runFrom_bind_of_ok annotated] at ran
  obtain ⟨⟨origin, value⟩, between, valued, ran⟩ := Evaluation.runFrom_bind_ok ran
  cases ran
  obtain ⟨children, records⟩ := traced _ _ _ _ valued (List.cons_ne_nil _ _)
  refine ⟨children, records.inside rfl, records.resolved, fun explains => ?_⟩
  have unclaimed : origin ≠ .claim := by
    rintro rfl
    cases Resolution.propertyValue_origin valued
  have flag : (between.missingRequired || value.isNull && property.required) = true ↔
      between.missingRequired = true ∨
        property.required = true ∧ value = .null ∧ some origin ≠ some .claim := by
    rw [Bool.or_eq_true, Bool.and_eq_true, Value.isNull_iff]
    simp [unclaimed, and_comm]
  exact flag.trans (or_congr_left (records.missing explains))

/-- What a name stands for is recorded by the node of the name. -/
theorem recordedName (name : String) {lookUp : LookUp}
    (traced : ∀ property, Traced (Resolution.propertyValue lookUp name property)) :
    Traced (Resolution.recorded name (Resolution.resolveName lookUp name)) := by
  intro surroundings progress after value succeeded opened
  rw [Resolution.runFrom_recorded] at succeeded
  split at succeeded
  · rename_i found between ran
    cases succeeded
    -- A node is marked as required by the declaration of a property only, and there null is noted as
    -- missing, unless it was claimed.
    suffices finds : ∃ required children, Finds surroundings.provider name
        (progress.withAccess name) between found required children by
      obtain ⟨required, children, finds⟩ := finds
      exact finds.recorded opened
    cases claimed : Entries.get? name surroundings.claims with
    | some value =>
        rw [Resolution.runFrom_resolveName_claim claimed] at ran
        cases declared : Entries.get? name surroundings.properties with
        | none =>
            rw [declared] at ran
            cases ran
            exact ⟨false, [], .ofNode nofun⟩
        | some property =>
            obtain ⟨details, annotated⟩ := runFrom_annotateProperty property
              (TraceNode.resolving name) surroundings (progress.withAccess name)
            rw [declared, Resolution.resolveClaim, Evaluation.runFrom_bind_of_ok annotated] at ran
            cases ran
            exact ⟨property.required, [], .ofNode fun _ => rfl⟩
    | none =>
        rw [Resolution.runFrom_resolveName claimed] at ran
        unfold Resolution.unclaimed at ran
        split at ran
        · cases ran
          exact ⟨false, [], .ofNode nofun⟩
        · split at ran
          · rename_i property _
            exact ⟨property.required, finds_resolveProperty (traced property) ran⟩
          · cases ran
            exact ⟨false, [], .ofNode nofun⟩
  · cases succeeded

/-- The steps of lookups are traced. -/
theorem lookups : LookupCongruence fun _ evaluation _ => Traced evaluation where
  pure := pure
  throw := fun _ => throw _
  bind := bind
  given := fun _ => given _
  isMissing := isMissing
  checkCancelled := checkCancelled
  raiseFlag := raiseFlag
  detail := fun value _ => detail _ value
  inNode := fun shown _ _ plain traced => inNode shown plain traced
  within := fun scope _ _ traced => within scope traced
  tooDeep := throw _
  obtain := fun path property reference parameters date =>
    obtain ⟨path, property, reference, parameters, date⟩
  recordedDate := fun path _ => recorded path (pure _)
  recordedFields := fun path _ _ _ traced => recorded path (bind traced fun _ => pure _)
  recordedName := fun name _ _ traced => recordedName name traced

/-- The values of paths are traced. -/
theorem congruence : ValueCongruence fun _ evaluation _ => Traced evaluation :=
  lookups.values

end Traced

end Statute
