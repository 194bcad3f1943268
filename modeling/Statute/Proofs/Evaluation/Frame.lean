/-
This file proves what evaluations leave as it was, also when they fail.
-/

import Statute.Proofs.Evaluation.Lookup
import Statute.Proofs.Evaluation.Notes
import Statute.Proofs.Evaluation.Run

namespace Statute

namespace Entries

theorem mem_insertName (wanted name : String) (names : List String) :
    wanted ∈ insertName name names ↔ wanted = name ∨ wanted ∈ names := by
  induction names with
  | nil => simp [insertName]
  | cons other rest inductionHypothesis =>
      unfold insertName
      split
      · rename_i same
        simp [same]
      · split
        · simp
        · rw [List.mem_cons, inductionHypothesis, List.mem_cons, or_left_comm]

end Entries

namespace Progress

/-- The value that is remembered under a key. -/
def remembered? (key : String) (progress : Progress) : Option Value :=
  progress.memo.bind (Entries.get? key)

/-- What any evaluation does to the progress, also one that fails: outputs and scope stay as they
were, and nothing that was noted or remembered is lost. -/
structure Extends (before after : Progress) : Prop where
  scope : after.scope = before.scope
  outputs : after.outputs = before.outputs
  accessed : ∀ path ∈ before.accessed, path ∈ after.accessed
  remembered : ∀ key value, before.remembered? key = some value → after.remembered? key = some value
  memoless : before.memo = none → after.memo = none
  missing : before.missingRequired = true → after.missingRequired = true
  notes : before.notes ⊆ after.notes

/-- An evaluation that succeeds leaves the open nodes open and goes below the innermost one. -/
def Stays (before after : Progress) : Prop :=
  ∀ top tail, before.openNodes = top :: tail →
    ∃ grown, after.openNodes = grown :: tail ∧ top.Grows grown

/-- The open nodes stay the same, but the innermost one has more nodes at the end of those below
it. -/
def Appends (before after : Progress) : Prop :=
  ∀ top tail, before.openNodes = top :: tail →
    ∃ added, after.openNodes = { top with children := top.children ++ added } :: tail

namespace Extends

variable {before between after : Progress}

theorem refl (progress : Progress) : progress.Extends progress :=
  ⟨rfl, rfl, fun _ accessed => accessed, fun _ _ remembered => remembered, fun memoless => memoless,
    fun missing => missing, fun _ note => note⟩

theorem trans (first : before.Extends between) (second : between.Extends after) :
    before.Extends after where
  scope := second.scope.trans first.scope
  outputs := second.outputs.trans first.outputs
  accessed := fun path accessed => second.accessed path (first.accessed path accessed)
  remembered := fun key value remembered =>
    second.remembered key value (first.remembered key value remembered)
  memoless := fun memoless => second.memoless (first.memoless memoless)
  missing := fun missing => second.missing (first.missing missing)
  notes := fun _ note => second.notes (first.notes note)

/-- A change of the open nodes that loses no note. -/
theorem ofNodes (progress : Progress) {nodes : List TraceNode}
    (notes : progress.notes ⊆ nodes.flatMap TraceNode.openNotes) :
    progress.Extends { progress with openNodes := nodes } :=
  ⟨rfl, rfl, fun _ accessed => accessed, fun _ _ remembered => remembered, fun memoless => memoless,
    fun missing => missing, notes⟩

end Extends

namespace Stays

variable {before between after : Progress}

theorem refl (progress : Progress) : progress.Stays progress :=
  fun top _ nodes => ⟨top, nodes, .refl top⟩

theorem ofSameNodes (same : after.openNodes = before.openNodes) : before.Stays after :=
  fun top _ nodes => ⟨top, same.trans nodes, .refl top⟩

theorem trans (first : before.Stays between) (second : between.Stays after) :
    before.Stays after := by
  intro top tail nodes
  obtain ⟨grown, between, grows⟩ := first top tail nodes
  obtain ⟨later, after, growsOn⟩ := second grown tail between
  exact ⟨later, after, grows.trans growsOn⟩

end Stays

namespace Appends

variable {before between after : Progress}

theorem ofSameNodes (same : after.openNodes = before.openNodes) : before.Appends after := by
  intro top tail nodes
  refine ⟨[], ?_⟩
  cases top
  rw [same, nodes, List.append_nil]

theorem trans (first : before.Appends between) (second : between.Appends after) :
    before.Appends after := by
  intro top tail nodes
  obtain ⟨added, appended⟩ := first top tail nodes
  obtain ⟨more, appendedMore⟩ := second _ tail appended
  refine ⟨added ++ more, ?_⟩
  rw [appendedMore, List.append_assoc]

theorem stays (appends : before.Appends after) : before.Stays after := by
  intro top tail nodes
  obtain ⟨added, appended⟩ := appends top tail nodes
  exact ⟨_, appended, rfl, rfl, rfl, rfl, fun _ _ => rfl, added, rfl⟩

end Appends

/-- A new node without anything to say is open. -/
theorem inside_extends {node : TraceNode} (silent : node.openNotes = []) (progress : Progress) :
    progress.Extends (progress.inside node) := by
  refine Extends.ofNodes progress ?_
  rw [List.flatMap_cons, silent, List.nil_append]
  exact fun _ note => note

/-- The innermost open node takes its result and says the same as before. -/
theorem outside_extends {node : TraceNode} {tail : List TraceNode} {progress : Progress}
    (nodes : progress.openNodes = node :: tail) (noCall : node.kind ≠ .serviceEvaluation)
    (result : Value) : progress.Extends (progress.outside result) := by
  refine Extends.ofNodes progress ?_
  rw [notes, nodes]
  have same : { node with result }.openNotes = node.openNotes := rfl
  cases tail with
  | nil =>
      rw [Evaluation.closeNode, List.flatMap_cons, List.flatMap_cons, same]
      exact fun _ note => note
  | cons parent rest =>
      have closed : { node with result }.notes = node.openNotes :=
        TraceNode.notes_eq_openNotes noCall
      rw [Evaluation.closeNode]
      simp only [List.flatMap_cons, TraceNode.openNotes_withChild, closed]
      intro note member
      simp only [List.mem_append] at member ⊢
      rcases member with inner | outer | others
      · exact .inl (.inr inner)
      · exact .inl (.inl outer)
      · exact .inr others

/-- A node that was opened and closed is the last one below the node that was open before. -/
theorem outside_appends {before progress : Progress} {node : TraceNode}
    (nodes : progress.openNodes = node :: before.openNodes) (result : Value) :
    before.Appends (progress.outside result) := by
  intro top tail opened
  rw [opened] at nodes
  refine ⟨[{ node with result }], ?_⟩
  rw [outside, nodes]
  rfl

end Progress

/-- An evaluation that only extends the progress, and closes the nodes that it opens if it
succeeds. -/
structure Bounded {α : Type} (evaluation : Evaluation α) : Prop where
  grows : ∀ (surroundings : Surroundings) (progress : Progress),
    progress.Extends (evaluation.runFrom surroundings progress).2
  stays : ∀ (surroundings : Surroundings) (progress : Progress) (value : α) (after : Progress),
    evaluation.runFrom surroundings progress = (.ok value, after) → progress.Stays after

/-- An evaluation that adds nothing but whole nodes to the trace when it gives a value. -/
def Evaluation.Appends {α : Type} (evaluation : Evaluation α) : Prop :=
  ∀ (surroundings : Surroundings) (progress : Progress) (value : α) (after : Progress),
    evaluation.runFrom surroundings progress = (.ok value, after) → progress.Appends after

namespace Bounded

open Progress

variable {α β : Type}

/-- A computation whose runs are known. -/
theorem ofRun {evaluation : Evaluation α} {result : Surroundings → Progress → Except EvaluationError α}
    {after : Surroundings → Progress → Progress}
    (ran : ∀ surroundings progress, evaluation.runFrom surroundings progress =
      (result surroundings progress, after surroundings progress))
    (grows : ∀ (surroundings : Surroundings) (progress : Progress),
      progress.Extends (after surroundings progress))
    (stays : ∀ (surroundings : Surroundings) (progress : Progress),
      progress.Stays (after surroundings progress)) :
    Bounded evaluation := by
  constructor
  · intro surroundings progress
    rw [ran]
    exact grows surroundings progress
  · intro surroundings progress value last succeeded
    rw [ran] at succeeded
    obtain ⟨_, rfl⟩ := Prod.mk.inj succeeded
    exact stays surroundings progress

theorem pure (value : α) : Bounded (pure value : Evaluation α) :=
  ofRun (fun _ _ => rfl) (fun _ progress => .refl progress) fun _ progress => .refl progress

theorem throw (error : EvaluationError) : Bounded (throw error : Evaluation α) :=
  ofRun (fun _ _ => rfl) (fun _ progress => .refl progress) fun _ progress => .refl progress

theorem given (view : Surroundings → α) : Bounded (Evaluation.given view) :=
  ofRun (fun _ _ => rfl) (fun _ progress => .refl progress) fun _ progress => .refl progress

theorem isMissing : Bounded Evaluation.isMissing :=
  ofRun (fun _ _ => rfl) (fun _ progress => .refl progress) fun _ progress => .refl progress

theorem get : Bounded (get : Evaluation Progress) :=
  ofRun (fun _ _ => rfl) (fun _ progress => .refl progress) fun _ progress => .refl progress

theorem read : Bounded (read : Evaluation Surroundings) :=
  ofRun (fun _ _ => rfl) (fun _ progress => .refl progress) fun _ progress => .refl progress

theorem bind {first : Evaluation α} {next : α → Evaluation β} (bounded : Bounded first)
    (continues : ∀ value, Bounded (next value)) : Bounded (first >>= next) := by
  constructor
  · intro surroundings progress
    have begun := bounded.grows surroundings progress
    cases ran : first.runFrom surroundings progress with
    | mk result between =>
        rw [ran] at begun
        cases result with
        | error error =>
            rw [Evaluation.runFrom_bind_of_error ran]
            exact begun
        | ok value =>
            rw [Evaluation.runFrom_bind_of_ok ran]
            exact begun.trans ((continues value).grows surroundings between)
  · intro surroundings progress result after ran
    obtain ⟨value, between, begun, ended⟩ := Evaluation.runFrom_bind_ok ran
    exact (bounded.stays _ _ _ _ begun).trans ((continues value).stays _ _ _ _ ended)

theorem checkCancelled : Bounded Evaluation.checkCancelled := by
  refine bind read fun surroundings => bind get fun progress => ?_
  split
  · exact throw _
  · exact pure ()

theorem raiseFlag : Bounded Evaluation.raiseFlag :=
  ofRun (fun _ _ => rfl)
    (fun _ _ => ⟨rfl, rfl, fun _ accessed => accessed, fun _ _ remembered => remembered,
      fun memoless => memoless, fun missing => missing, fun _ note => note⟩)
    fun _ _ => .ofSameNodes rfl

/-- A change of the innermost open node that only lets it grow. -/
theorem annotate {change : TraceNode → TraceNode}
    (grows : ∀ node : TraceNode, node.Grows (change node)) :
    Bounded (Evaluation.annotate change) := by
  refine ofRun (fun _ _ => rfl) (fun _ progress => ?_) fun _ progress => ?_
  · refine Extends.ofNodes progress ?_
    rw [notes]
    cases progress.openNodes with
    | nil => exact fun _ note => note
    | cons node rest =>
        rw [List.flatMap_cons, List.flatMap_cons]
        intro note member
        rcases List.mem_append.mp member with own | others
        · exact List.mem_append_left _ ((grows node).openNotes own)
        · exact List.mem_append_right _ others
  · intro top tail opened
    refine ⟨change top, ?_, grows top⟩
    dsimp only
    rw [opened]

theorem detail {name : String} (value : Value) (noCallDetail : name ∉ TraceNode.callDetails) :
    Bounded (Evaluation.annotateDetail name value) :=
  annotate (TraceNode.Grows.withDetail noCallDetail value)

theorem annotateProperty (property : Property) : Bounded (Resolution.annotateProperty property) :=
  annotate (TraceNode.Grows.withProperty property)

theorem noteMissing (property : Property) (value : Value) :
    Bounded (Resolution.noteMissing property value) :=
  ofRun (fun _ _ => rfl)
    (fun _ _ => ⟨rfl, rfl, fun _ accessed => accessed, fun _ _ remembered => remembered,
      fun memoless => memoless, fun missing => by simp [missing], fun _ note => note⟩)
    fun _ _ => .ofSameNodes rfl

/-- What a body that succeeds leaves open around its node. -/
theorem grown_inside {node : TraceNode} {body : Evaluation α} (bounded : Bounded body)
    {surroundings : Surroundings} {progress after : Progress} {value : α}
    (ran : body.runFrom surroundings (progress.inside node) = (.ok value, after)) :
    ∃ grown, after.openNodes = grown :: progress.openNodes ∧ node.Grows grown :=
  bounded.stays _ _ _ _ ran node progress.openNodes rfl

/-- Whatever a body says about the node around it, the nodes further out only get this node. -/
theorem appends_inNode {body : Evaluation α} (bounded : Bounded body) (node : TraceNode)
    (shown : α → Value) : (Evaluation.inNode node shown body).Appends := by
  intro surroundings progress value after ran
  rw [Evaluation.runFrom_inNode] at ran
  cases inner : body.runFrom surroundings (progress.inside node) with
  | mk result between =>
      rw [inner] at ran
      cases result with
      | error error => cases ran
      | ok value =>
          cases ran
          obtain ⟨grown, nodes, _⟩ := bounded.grown_inside inner
          exact outside_appends nodes (shown value)

/-- An evaluation inside a node that makes no call. -/
theorem inNode {node : TraceNode} (shown : α → Value) {body : Evaluation α}
    (silent : node.openNotes = []) (noCall : node.kind ≠ .serviceEvaluation)
    (bounded : Bounded body) : Bounded (Evaluation.inNode node shown body) := by
  constructor
  · intro surroundings progress
    have entered := inside_extends silent progress
    have ended := bounded.grows surroundings (progress.inside node)
    rw [Evaluation.runFrom_inNode]
    cases ran : body.runFrom surroundings (progress.inside node) with
    | mk result between =>
        rw [ran] at ended
        cases result with
        | error error => exact entered.trans ended
        | ok value =>
            obtain ⟨grown, nodes, grows⟩ := bounded.grown_inside ran
            exact (entered.trans ended).trans
              (outside_extends nodes (by rw [grows.kind]; exact noCall) (shown value))
  · intro surroundings progress value after ran
    exact (bounded.appends_inNode node shown _ _ _ _ ran).stays

theorem within (scope : Record) {body : Evaluation α} (bounded : Bounded body) :
    Bounded (Evaluation.within scope body) := by
  constructor
  · intro surroundings progress
    have inner := bounded.grows surroundings { progress with scope }
    rw [Evaluation.runFrom_within]
    exact ⟨rfl, inner.outputs, inner.accessed, inner.remembered, inner.memoless, inner.missing,
      inner.notes⟩
  · intro surroundings progress value after succeeded
    rw [Evaluation.runFrom_within] at succeeded
    obtain ⟨valued, rfl⟩ := Prod.mk.inj succeeded
    have inner : body.runFrom surroundings { progress with scope } =
        (.ok value, (body.runFrom surroundings { progress with scope }).2) := by
      rw [← valued]
    have stayed := bounded.stays _ _ _ _ inner
    exact fun top tail nodes => stayed top tail nodes

end Bounded

namespace Progress

/-- The progress after a path was looked up. -/
def withAccess (path : String) (progress : Progress) : Progress :=
  { progress with accessed := Entries.insertName path progress.accessed }

theorem withAccess_extends (path : String) (progress : Progress) :
    progress.Extends (progress.withAccess path) :=
  ⟨rfl, rfl, fun _ accessed => (Entries.mem_insertName _ path _).mpr (.inr accessed),
    fun _ _ remembered => remembered, fun memoless => memoless, fun missing => missing,
    fun _ note => note⟩

/-- The progress after the value of a path was found, with the node of the path still open. -/
def withFound (path : String) (found : Resolution.Found) (progress : Progress) : Progress :=
  { progress with
    resolved :=
      if found.value.isNull then progress.resolved
      else Entries.insert path found.value progress.resolved
    openNodes :=
      match found.origin, progress.openNodes with
      | some origin, node :: rest => { node with origin := some origin } :: rest
      | _, nodes => nodes }

end Progress

/-- A node as it is when the origin of its value is known. -/
def TraceNode.withOrigin (origin : Option Origin) (node : TraceNode) : TraceNode :=
  match origin with
  | some origin => { node with origin := some origin }
  | none => node

namespace Resolution

/-- The run of a lookup. -/
theorem runFrom_recorded (path : String) (body : Evaluation Found) (surroundings : Surroundings)
    (progress : Progress) :
    (recorded path body).runFrom surroundings progress =
      match body.runFrom surroundings
          ((progress.withAccess path).inside (TraceNode.resolving path)) with
      | (.ok found, between) =>
          (.ok found.value, (between.withFound path found).outside found.value)
      | (.error error, between) => (.error error, between) := by
  have accessed : (noteAccess path).runFrom surroundings progress =
      (.ok (), progress.withAccess path) := rfl
  rw [recorded, Evaluation.runFrom_bind_of_ok accessed, Evaluation.runFrom_inNode]
  cases ran : body.runFrom surroundings
      ((progress.withAccess path).inside (TraceNode.resolving path)) with
  | mk result between =>
      cases result with
      | error error => rw [Evaluation.runFrom_bind_of_error ran]
      | ok found =>
          rw [Evaluation.runFrom_bind_of_ok ran]
          obtain ⟨origin, value⟩ := found
          cases origin with
          | none => rfl
          | some origin =>
              simp only [showOrigin, Evaluation.annotateOrigin, Evaluation.annotate, keep,
                Evaluation.runFrom_bind, Evaluation.runFrom_modify, Evaluation.runFrom_pure,
                Progress.withFound]
              cases between.openNodes <;> rfl

/-- What the node of a looked-up path says when it is closed. -/
theorem notes_withFound (path : String) (found : Found) {progress : Progress} {node : TraceNode}
    {tail : List TraceNode} (nodes : progress.openNodes = node :: tail) :
    (progress.withFound path found).openNodes = node.withOrigin found.origin :: tail := by
  rw [Progress.withFound, nodes]
  cases found.origin <;> rfl

theorem resolving_silent (path : String) : (TraceNode.resolving path).openNotes = [] :=
  rfl

end Resolution

namespace Bounded

open Progress

/-- The node of a path says nothing before the origin of the value is known. -/
theorem withFound_extends {path : String} {found : Resolution.Found} {progress : Progress}
    {node : TraceNode} {tail : List TraceNode} (nodes : progress.openNodes = node :: tail)
    (grows : (TraceNode.resolving path).Grows node) :
    progress.Extends (progress.withFound path found) := by
  have silent : node.ownNotes = [] := grows.ownNotes
  have below : (node.withOrigin found.origin).children = node.children := by
    cases found.origin <;> rfl
  refine ⟨rfl, rfl, fun _ accessed => accessed, fun _ _ remembered => remembered,
    fun memoless => memoless, fun missing => missing, ?_⟩
  rw [notes, notes, Resolution.notes_withFound path found nodes, nodes, List.flatMap_cons, List.flatMap_cons,
    TraceNode.openNotes, TraceNode.openNotes, silent, below, List.nil_append, List.append_assoc]
  exact List.subset_append_right _ _

/-- The node of a path takes all that its lookup says. -/
theorem appends_recorded {body : Evaluation Resolution.Found} (bounded : Bounded body)
    (path : String) : (Resolution.recorded path body).Appends := by
  intro surroundings progress value after ran
  rw [Resolution.runFrom_recorded] at ran
  cases inner : body.runFrom surroundings
      ((progress.withAccess path).inside (TraceNode.resolving path)) with
  | mk result between =>
      rw [inner] at ran
      cases result with
      | error error => cases ran
      | ok found =>
          cases ran
          obtain ⟨grown, nodes, _⟩ := bounded.grown_inside inner
          exact outside_appends (Resolution.notes_withFound path found nodes) found.value

theorem recorded (path : String) {body : Evaluation Resolution.Found} (bounded : Bounded body) :
    Bounded (Resolution.recorded path body) := by
  constructor
  · intro surroundings progress
    have entered := (withAccess_extends path progress).trans
      (inside_extends (Resolution.resolving_silent path) (progress.withAccess path))
    have ended := bounded.grows surroundings
      ((progress.withAccess path).inside (TraceNode.resolving path))
    rw [Resolution.runFrom_recorded]
    cases ran : body.runFrom surroundings
        ((progress.withAccess path).inside (TraceNode.resolving path)) with
    | mk result between =>
        rw [ran] at ended
        cases result with
        | error error => exact entered.trans ended
        | ok found =>
            obtain ⟨grown, nodes, grows⟩ := bounded.grown_inside ran
            have noCall : (grown.withOrigin found.origin).kind ≠ .serviceEvaluation := by
              have kind : (grown.withOrigin found.origin).kind = grown.kind := by
                cases found.origin <;> rfl
              rw [kind, grows.kind]
              simp [TraceNode.resolving, TraceNode.fresh]
            exact (entered.trans ended).trans ((withFound_extends nodes grows).trans
              (outside_extends (Resolution.notes_withFound path found nodes) noCall found.value))
  · intro surroundings progress value after ran
    exact (bounded.appends_recorded path _ _ _ _ ran).stays

theorem resolveName {lookUp : LookUp} {name : String}
    (bounded : ∀ property, Bounded (Resolution.resolveProperty lookUp name property)) :
    Bounded (Resolution.resolveName lookUp name) := by
  refine bind read fun surroundings => bind get fun progress => ?_
  dsimp only
  split
  · unfold Resolution.resolveClaim
    split
    · exact bind (annotateProperty _) fun _ => pure _
    · exact pure _
  · split
    · exact pure _
    · exact bounded _
    · exact pure _

end Bounded

end Statute
