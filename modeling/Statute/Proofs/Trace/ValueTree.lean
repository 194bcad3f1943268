/-
This file proves which nodes of a trace the collected values come from.
-/

import Statute.Proofs.Collections
import Statute.Trace.ValueTree

namespace Statute

namespace Entries

variable {α : Type}

theorem get?_insertNew (entries : Entries α) (name wanted : String) (value : α) :
    get? wanted (insertNew name value entries) =
      if wanted = name then (get? wanted entries).or (some value) else get? wanted entries := by
  unfold insertNew contains
  by_cases same : wanted = name
  · subst same
    cases found : get? wanted entries <;> simp [found, get?_insert]
  · split <;> simp [get?_insert, same]

theorem Sorted.insertNew {entries : Entries α} (sorted : entries.Sorted) (name : String) (value : α) :
    (Entries.insertNew name value entries).Sorted := by
  unfold Entries.insertNew
  split
  · exact sorted
  · exact sorted.insert name value

end Entries

/-- A value is made of its five parts. Values contain values, so this is not seen without a case split. -/
theorem SourcedValue.eq_of_parts {first second : SourcedValue} (result : first.result = second.result)
    (required : first.required = second.required) (service : first.service = second.service)
    (law : first.law = second.law) (children : first.children = second.children) :
    first = second := by
  cases first
  cases second
  dsimp only at result required service law children
  subst result required service law children
  rfl

namespace TraceNode

/-- The node of the evaluation of another law for a path. -/
def IsCall (path : String) (node : TraceNode) : Prop :=
  node.kind = .serviceEvaluation ∧ node.path = some path

/-- The node of a path that was resolved from another law, a table or a claim, or not at all. -/
def IsSourced (path : String) (node : TraceNode) : Prop :=
  node.kind = .resolve ∧ node.path = some path ∧
    node.origin ∈ [some .service, some .source, some .claim, some .nothing]

instance (path : String) (node : TraceNode) : Decidable (node.IsCall path) :=
  inferInstanceAs (Decidable (_ ∧ _))

instance (path : String) (node : TraceNode) : Decidable (node.IsSourced path) :=
  inferInstanceAs (Decidable (_ ∧ _ ∧ _))

mutual

/-- The nodes of a tree, each before those below it, without what is below the calls of other laws. -/
def level : TraceNode → List TraceNode
  | ⟨kind, name, path, result, origin, required, details, children⟩ =>
      ⟨kind, name, path, result, origin, required, details, children⟩ ::
        if kind = .serviceEvaluation ∧ path.isSome then [] else levelBelow children

def levelBelow : List TraceNode → List TraceNode
  | [] => []
  | child :: rest => child.level ++ levelBelow rest

end

/-- Of several calls for a path the last counts. -/
def lastCall? (path : String) (nodes : List TraceNode) : Option TraceNode :=
  (nodes.filter fun node => node.IsCall path).getLast?

/-- Of several other nodes for a path the first counts. -/
def firstSourced? (path : String) (nodes : List TraceNode) : Option TraceNode :=
  nodes.find? fun node => node.IsSourced path

/-- The value of the node of a call, with what the call took from outside. -/
def calledValue (node : TraceNode) : SourcedValue :=
  ⟨node.result, node.required, textDetail? "service" node.details, textDetail? "law" node.details,
    collectAll [] node.children⟩

/-- The value of any other node has nothing below it. -/
def sourcedValue (node : TraceNode) : SourcedValue :=
  ⟨node.result, node.required, none, none, []⟩

/-- What one node adds to the collected values. -/
def noteValue (found : Entries SourcedValue) (node : TraceNode) : Entries SourcedValue :=
  match node.kind, node.path with
  | .serviceEvaluation, some called => Entries.insert called node.calledValue found
  | .resolve, some resolved =>
      if (node.origin.map Origin.isExternal).getD false then
        Entries.insertNew resolved node.sourcedValue found
      else found
  | _, _ => found

theorem isExternal_iff (origin : Option Origin) : (origin.map Origin.isExternal).getD false = true ↔
    origin ∈ [some .service, some .source, some .claim, some .nothing] := by
  cases origin with
  | none => simp
  | some origin => cases origin <;> simp [Origin.isExternal]

/-- A call replaces what is there, and any other node only adds what is not there. -/
theorem get?_noteValue (path : String) (found : Entries SourcedValue) (node : TraceNode) :
    Entries.get? path (noteValue found node) =
      if node.IsCall path then some node.calledValue
      else if node.IsSourced path then (Entries.get? path found).or (some node.sourcedValue)
      else Entries.get? path found := by
  unfold noteValue
  split
  case h_1 called isCall isPath =>
    have calls : node.IsCall path ↔ path = called := by
      simp [IsCall, isCall, isPath, eq_comm]
    have notSourced : ¬ node.IsSourced path := fun isSourced =>
      NodeKind.noConfusion (isCall.symm.trans isSourced.1)
    rw [Entries.get?_insert, if_congr calls rfl rfl, if_neg notSourced]
  case h_2 resolved isResolve isPath =>
    have noCall : ¬ node.IsCall path := fun calls =>
      NodeKind.noConfusion (isResolve.symm.trans calls.1)
    rw [if_neg noCall]
    split
    case isTrue isExternal =>
      have isSourced : node.IsSourced path ↔ path = resolved := by
        simp [IsSourced, isResolve, isPath, (isExternal_iff _).mp isExternal, eq_comm]
      rw [Entries.get?_insertNew, if_congr isSourced rfl rfl]
    case isFalse isInternal =>
      rw [if_neg fun isSourced => isInternal ((isExternal_iff _).mpr isSourced.2.2)]
  case h_3 noCall noResolve =>
    rw [if_neg fun isCall => noCall path isCall.1 isCall.2,
      if_neg fun isSourced => noResolve path isSourced.1 isSourced.2.1]

theorem sorted_noteValue {found : Entries SourcedValue} (sorted : found.Sorted) (node : TraceNode) :
    (noteValue found node).Sorted := by
  unfold noteValue
  split
  · exact sorted.insert _ _
  · split
    · exact sorted.insertNew _ _
    · exact sorted
  · exact sorted

/-- A node that is not a call is noted in front of what is below it. -/
theorem collectValues_passes {kind : NodeKind} {path : Option String} (found : Entries SourcedValue)
    (name : String) (result : Value) (origin : Option Origin) (required : Bool) (details : Record)
    (children : List TraceNode) (noCall : ¬ (kind = .serviceEvaluation ∧ path.isSome)) :
    collectValues found ⟨kind, name, path, result, origin, required, details, children⟩ =
      collectAll (noteValue found ⟨kind, name, path, result, origin, required, details, children⟩)
        children := by
  cases path with
  | none => cases kind <;> rfl
  | some resolved =>
      cases kind
      case serviceEvaluation => exact absurd ⟨rfl, rfl⟩ noCall
      case resolve =>
        rw [collectValues, noteValue]
        dsimp only
        split <;> rfl
      all_goals rfl

mutual

/-- The values of a tree are collected from the nodes of its level one after the other. -/
theorem collectValues_eq_foldl : (found : Entries SourcedValue) → (node : TraceNode) →
    collectValues found node = node.level.foldl noteValue found
  | found, ⟨kind, name, path, result, origin, required, details, children⟩ => by
      by_cases isCall : kind = .serviceEvaluation ∧ path.isSome
      · obtain ⟨rfl, isPath⟩ := isCall
        obtain ⟨called, rfl⟩ := Option.isSome_iff_exists.mp isPath
        rfl
      · rw [collectValues_passes _ _ _ _ _ _ _ isCall, level, if_neg isCall, List.foldl_cons,
          collectAll_eq_foldl _ children]

theorem collectAll_eq_foldl : (found : Entries SourcedValue) → (nodes : List TraceNode) →
    collectAll found nodes = (levelBelow nodes).foldl noteValue found
  | _, [] => rfl
  | found, child :: rest => by
      rw [collectAll, collectValues_eq_foldl found child, collectAll_eq_foldl _ rest, levelBelow,
        List.foldl_append]

end

theorem lastCall?_cons (path : String) (node : TraceNode) (rest : List TraceNode) :
    lastCall? path (node :: rest) =
      (lastCall? path rest).or (if node.IsCall path then some node else none) := by
  unfold lastCall?
  by_cases isCall : node.IsCall path
  · rw [List.filter_cons_of_pos (by simpa using isCall), List.getLast?_cons, if_pos isCall]
    cases (rest.filter fun node => node.IsCall path).getLast? <;> rfl
  · rw [List.filter_cons_of_neg (by simpa using isCall), if_neg isCall, Option.or_none]

theorem firstSourced?_cons (path : String) (node : TraceNode) (rest : List TraceNode) :
    firstSourced? path (node :: rest) =
      if node.IsSourced path then some node else firstSourced? path rest := by
  by_cases isSourced : node.IsSourced path <;> simp [firstSourced?, isSourced]

/-- Of what is noted for a path the last call counts, else what was there before, else the first other
node. -/
theorem get?_foldl_noteValue (path : String) (found : Entries SourcedValue) (nodes : List TraceNode) :
    Entries.get? path (nodes.foldl noteValue found) =
      ((lastCall? path nodes).map calledValue).or
        ((Entries.get? path found).or ((firstSourced? path nodes).map sourcedValue)) := by
  induction nodes generalizing found with
  | nil => simp [lastCall?, firstSourced?]
  | cons node rest inductionHypothesis =>
      rw [List.foldl_cons, inductionHypothesis, get?_noteValue, lastCall?_cons,
        firstSourced?_cons]
      by_cases isCall : node.IsCall path
      · simp [isCall]
      · by_cases isSourced : node.IsSourced path <;> simp [isCall, isSourced]

theorem isSome_lastCall? {path : String} {nodes : List TraceNode} :
    (lastCall? path nodes).isSome ↔ ∃ node ∈ nodes, node.IsCall path := by
  rw [lastCall?, List.getLast?_isSome, ← List.isEmpty_eq_false_iff, List.isEmpty_eq_false_iff_exists_mem]
  simp

theorem isSome_firstSourced? {path : String} {nodes : List TraceNode} :
    (firstSourced? path nodes).isSome ↔ ∃ node ∈ nodes, node.IsSourced path := by
  rw [firstSourced?, List.find?_isSome]
  simp

theorem sorted_foldl_noteValue {found : Entries SourcedValue} (sorted : found.Sorted)
    (nodes : List TraceNode) : Entries.Sorted (nodes.foldl noteValue found) := by
  induction nodes generalizing found with
  | nil => exact sorted
  | cons node rest inductionHypothesis => exact inductionHypothesis (sorted_noteValue sorted node)

/-- The values of a level: sorted by path, one for each path of a call or of a node that was resolved from
outside. The last call counts and brings the values of the level inside it, or else the first other node
counts and brings nothing. -/
inductive Describes : List TraceNode → Entries SourcedValue → Prop
  | level {nodes : List TraceNode} {found : Entries SourcedValue} (sorted : found.Sorted)
      (holds : ∀ path, (Entries.get? path found).isSome ↔
        ∃ node ∈ nodes, node.IsCall path ∨ node.IsSourced path)
      (called : ∀ path call value, lastCall? path nodes = some call →
        Entries.get? path found = some value →
          value.result = call.result ∧ value.required = call.required ∧
          value.service = textDetail? "service" call.details ∧
          value.law = textDetail? "law" call.details)
      (inside : ∀ path call value, lastCall? path nodes = some call →
        Entries.get? path found = some value → Describes (levelBelow call.children) value.children)
      (sourced : ∀ path node value, lastCall? path nodes = none → firstSourced? path nodes = some node →
        Entries.get? path found = some value → value = node.sourcedValue) :
      Describes nodes found

mutual

/-- A node of a level is no larger than the tree. -/
theorem size_le_of_mem_level : (tree : TraceNode) → ∀ node ∈ tree.level, node.size ≤ tree.size
  | ⟨kind, name, path, result, origin, required, details, children⟩ => by
      intro node member
      rw [level, List.mem_cons] at member
      rcases member with rfl | below
      · exact Nat.le_refl _
      · split at below
        · cases below
        · rw [size]
          exact Nat.le_succ_of_le (size_le_of_mem_levelBelow children node below)

theorem size_le_of_mem_levelBelow : (trees : List TraceNode) →
    ∀ node ∈ levelBelow trees, node.size ≤ sizes trees
  | [] => nofun
  | child :: rest => by
      intro node member
      rw [levelBelow, List.mem_append] at member
      rw [sizes]
      rcases member with inChild | inRest
      · have small := size_le_of_mem_level child node inChild
        omega
      · have small := size_le_of_mem_levelBelow rest node inRest
        omega

end

theorem mem_of_lastCall? {path : String} {nodes : List TraceNode} {call : TraceNode}
    (isLast : lastCall? path nodes = some call) : call ∈ nodes ∧ call.IsCall path := by
  simpa using List.mem_filter.mp (List.mem_of_getLast? isLast)

theorem size_eq (node : TraceNode) : node.size = sizes node.children + 1 := by
  cases node
  rw [size]

/-- The collected values describe the level that they were collected from. -/
theorem describes_collectAll (trees : List TraceNode) :
    Describes (levelBelow trees) (collectAll [] trees) := by
  have finds (path : String) : Entries.get? path (collectAll [] trees) =
      ((lastCall? path (levelBelow trees)).map calledValue).or
        ((firstSourced? path (levelBelow trees)).map sourcedValue) := by
    rw [collectAll_eq_foldl, get?_foldl_noteValue]
    rfl
  have sorted : Entries.Sorted (collectAll [] trees) := by
    rw [collectAll_eq_foldl]
    exact sorted_foldl_noteValue List.Pairwise.nil _
  have isCalled {path : String} {call : TraceNode} {value : SourcedValue}
      (isLast : lastCall? path (levelBelow trees) = some call)
      (isValue : Entries.get? path (collectAll [] trees) = some value) : call.calledValue = value := by
    rw [finds, isLast] at isValue
    exact Option.some.inj isValue
  refine .level sorted (fun path => ?holds) (fun path call value isLast isValue => ?called)
    (fun path call value isLast isValue => ?inside)
    (fun path node value noCall isFirst isValue => ?sourced)
  case holds =>
    rw [finds, Option.isSome_or, Option.isSome_map, Option.isSome_map, Bool.or_eq_true,
      isSome_lastCall?, isSome_firstSourced?]
    simp only [and_or_left, exists_or]
  case called =>
    rw [← isCalled isLast isValue]
    exact ⟨rfl, rfl, rfl, rfl⟩
  case inside =>
    rw [← isCalled isLast isValue]
    exact describes_collectAll call.children
  case sourced =>
    rw [finds, noCall, isFirst] at isValue
    exact (Option.some.inj isValue).symm
termination_by sizes trees
decreasing_by
  have small := size_le_of_mem_levelBelow trees call (mem_of_lastCall? isLast).1
  rw [size_eq] at small
  omega

/-- What is said of the values of a level leaves no choice. -/
theorem Describes.unique {nodes : List TraceNode} {first second : Entries SourcedValue}
    (describes : Describes nodes first) (others : Describes nodes second) : first = second := by
  induction describes generalizing second with
  | level sorted holds called inside sourced inductionHypothesis =>
      rename_i nodes first
      obtain ⟨otherSorted, otherHolds, otherCalled, otherInside, otherSourced⟩ := others
      refine sorted.eq_of_get? otherSorted fun path => ?_
      have bothHold := (holds path).trans (otherHolds path).symm
      cases isValue : Entries.get? path first with
      | none =>
          rw [isValue] at bothHold
          have absent : Entries.get? path second = none := by simpa using bothHold
          exact absent.symm
      | some value =>
          rw [isValue] at bothHold
          obtain ⟨other, isOther⟩ := Option.isSome_iff_exists.mp (bothHold.mp rfl)
          rw [isOther]
          cases isLast : lastCall? path nodes with
          | some call =>
              obtain ⟨result, required, service, law⟩ := called path call value isLast isValue
              obtain ⟨otherResult, otherRequired, otherService, otherLaw⟩ :=
                otherCalled path call other isLast isOther
              have children := inductionHypothesis path call value isLast isValue
                (otherInside path call other isLast isOther)
              exact congrArg some (SourcedValue.eq_of_parts (result.trans otherResult.symm)
                (required.trans otherRequired.symm) (service.trans otherService.symm)
                (law.trans otherLaw.symm) children)
          | none =>
              have noCall : ¬ ∃ node ∈ nodes, node.IsCall path := by
                rw [← isSome_lastCall?, isLast]
                simp
              have isFirst : (firstSourced? path nodes).isSome := by
                obtain ⟨node, member, isCall | isSourced⟩ := (holds path).mp (by rw [isValue]; rfl)
                · exact absurd ⟨node, member, isCall⟩ noCall
                · exact isSome_firstSourced?.mpr ⟨node, member, isSourced⟩
              obtain ⟨node, isNode⟩ := Option.isSome_iff_exists.mp isFirst
              rw [sourced path node value isLast isNode isValue,
                otherSourced path node other isLast isNode isOther]

/-- The values of a trace are the ones that its level describes, at every depth of calls. -/
theorem describes_iff_eq_valueTree (root : TraceNode) (found : Entries SourcedValue) :
    Describes root.level found ↔ found = root.valueTree := by
  have whole : Describes root.level root.valueTree := by
    have single := describes_collectAll [root]
    rwa [levelBelow, levelBelow, List.append_nil] at single
  refine ⟨fun describes => describes.unique whole, ?_⟩
  rintro rfl
  exact whole

end TraceNode

end Statute
