/-
This file proves when an output that is requested alone has the value that the full evaluation gives
it.
-/

import Statute.Proofs.Evaluation.Stage
import Statute.Proofs.Rule.ActionOrder

namespace Statute

namespace Rule

/-- The progress in which the full evaluation ends when it makes every call anew. -/
def fullRun (rule : Rule) (surroundings : Surroundings) (shared : Shared) : Progress :=
  ((rule.run none).runFrom surroundings ((Progress.start shared).withMemo none)).2

/-- Every output that an action reads is declared before, and the action mentions it, directly or
through the actions that it mentions. -/
def ReadsMentioned (rule : Rule) (last : Progress) (action : Action) : Prop :=
  ∀ name ∈ last.readsOf action, ∀ other ∈ rule.actions, other.output = name →
    other ∈ declaredBefore rule.actions action ∧
      Relation.TransGen (ActionOrder.Mentions rule.actions) action other

/-- The calls of a run are allowed, and reading names on which runs agree. -/
def allowing (last : Progress) (agreed : String → Prop) : Note → Prop
  | .read name => agreed name
  | .call call => call ∈ last.calls

theorem allowing_tellsApart {last : Progress} (apart : last.ToldApart) (agreed : String → Prop) :
    Follows.TellsApart (allowing last agreed) :=
  fun first second firstCall secondCall same => apart first firstCall second secondCall same

/-- A run that has done some of the actions, and remembers values of calls of another run only. -/
structure Prepared (surroundings : Surroundings) (last : Progress) (done : Action → Prop)
    (follower : Progress) : Prop where
  scope : follower.scope = []
  clear : follower.missingRequired = false
  outputs : HoldsOutputs last.outputs done follower.outputs
  remembers : ∀ key value, follower.remembered? key = some value →
    follower.Remembers surroundings (allowing last fun _ => True) key value

variable {rule : Rule} {surroundings : Surroundings} {last follower : Progress}
  {done : Action → Prop} {action : Action}

/-- The names of outputs that are set before an action and are done. -/
def agreedFor (rule : Rule) (action : Action) (done : Action → Prop) (name : String) : Prop :=
  ∀ other ∈ rule.actions, other.output = name →
    other ∈ declaredBefore rule.actions action ∧ done other

/-- On these names the run of all actions agrees with one that has done some of them. -/
theorem Stage.agree {raw : Value} {progress after : Progress}
    (stage : rule.Stage surroundings last (fun other => other ∈ declaredBefore rule.actions action)
      action raw progress after)
    (within : ∀ other, done other → other ∈ rule.actions)
    (prepared : Prepared surroundings last done follower) :
    Agree surroundings (allowing last (agreedFor rule action done)) progress follower := by
  have advances := rawValue_advances action surroundings progress
  rw [stage.ran] at advances
  refine ⟨prepared.scope.trans stage.scope.symm, ?_, ?_, stage.memoless, prepared.remembers⟩
  · rw [prepared.clear, advances.missing_false stage.clear]
  · intro name isAgreed
    refine stage.outputs.agree prepared.outputs fun other isDone same => isAgreed other ?_ same
    exact isDone.elim (fun earlier => declaredBefore_subset _ _ earlier) (within other)

/-- An action reads such names only, when all that it mentions is done. -/
theorem Stage.seen {raw : Value} {progress after : Progress}
    (stage : rule.Stage surroundings last (fun other => other ∈ declaredBefore rule.actions action)
      action raw progress after)
    (mentioned : rule.ReadsMentioned last action)
    (ready : ∀ other, Relation.TransGen (ActionOrder.Mentions rule.actions) action other →
      done other) :
    Seen (allowing last (agreedFor rule action done))
      ((rawValue action).runFrom surroundings (progress.inside (actionNode action))) := by
  rw [stage.ran]
  refine ⟨?_, .inl ⟨raw, rfl⟩⟩
  intro note noted
  cases note with
  | call call => exact Progress.mem_calls.mpr (stage.notes noted)
  | read name =>
      intro other isAction same
      obtain ⟨earlier, path⟩ := mentioned name (stage.reads name noted) other
        isAction same
      exact ⟨earlier, ready other path⟩

/-- An action whose reads are all done has the value that it has in the run of all actions. -/
theorem Prepared.step {raw : Value} {progress after : Progress}
    (functional : surroundings.provider.IsFunction) (quiet : surroundings.cancellation = .none)
    (apart : last.ToldApart) (mentioned : rule.ReadsMentioned last action)
    (stage : rule.Stage surroundings last (fun other => other ∈ declaredBefore rule.actions action)
      action raw progress after)
    (ready : ∀ other, Relation.TransGen (ActionOrder.Mentions rule.actions) action other →
      done other)
    (within : ∀ other, done other → other ∈ rule.actions)
    (prepared : Prepared surroundings last done follower) :
    ∃ between, (rule.runAction action).runFrom surroundings follower =
        (.ok (rule.fitted action raw), between) ∧
      Prepared surroundings last (fun other => other = action ∨ done other) between := by
  obtain ⟨same, kept⟩ := runAction_agrees functional quiet (allowing_tellsApart apart _) rule
    action (stage.agree within prepared) (stage.seen mentioned ready)
  have advances := rawValue_advances action surroundings progress
  have plainRan := runFrom_runAction quiet rule action progress
  rw [stage.ran] at advances plainRan
  rw [plainRan] at same kept
  cases ran : (rule.runAction action).runFrom surroundings follower with
  | mk result between =>
      rw [ran] at same kept
      obtain rfl : result = .ok (rule.fitted action raw) := same
      refine ⟨between, rfl, ?_, ?_, ?_, kept.remembers⟩
      · exact kept.scope.trans (advances.scope.trans stage.scope)
      · exact kept.missing.trans stage.clear
      · rw [runAction_outputs ran]
        exact prepared.outputs.insert stage.output

/-- Actions in an order that respects what they mention all have the values that they have in the
run of all actions. -/
theorem Prepared.run {order : List Action} (functional : surroundings.provider.IsFunction)
    (quiet : surroundings.cancellation = .none) (apart : last.ToldApart)
    (mentioned : ∀ action ∈ order, rule.ReadsMentioned last action)
    (stages : ∀ action ∈ rule.actions, ∃ raw progress after, rule.Stage surroundings last
      (fun other => other ∈ declaredBefore rule.actions action) action raw progress after)
    (members : order ⊆ rule.actions)
    (ordered : ActionOrder.IsOrder (Relation.TransGen (ActionOrder.Mentions rule.actions)) done
      order)
    (within : ∀ other, done other → other ∈ rule.actions)
    (prepared : Prepared surroundings last done follower) :
    ∃ after, (rule.runActions order).runFrom surroundings follower = (.ok (), after) ∧
      after.missingRequired = false ∧
      ∀ action, action ∈ order ∨ done action →
        Entries.get? action.output after.outputs = Entries.get? action.output last.outputs := by
  induction order generalizing done follower with
  | nil =>
      refine ⟨follower, rfl, prepared.clear, ?_⟩
      rintro action (impossible | isDone)
      · cases impossible
      · exact prepared.outputs.given action isDone
  | cons next rest inductionHypothesis =>
      obtain ⟨isAction, areActions⟩ := List.cons_subset.mp members
      obtain ⟨mentionedNow, mentionedLater⟩ := List.forall_mem_cons.mp mentioned
      obtain ⟨raw, progress, between, stage⟩ := stages next isAction
      obtain ⟨following, ran, preparedOn⟩ := prepared.step functional quiet apart mentionedNow stage
        ordered.1 within
      have withinOn : ∀ other, other = next ∨ done other → other ∈ rule.actions := by
        rintro other (rfl | isDone)
        · exact isAction
        · exact within other isDone
      obtain ⟨after, rest, clear, outputs⟩ := inductionHypothesis mentionedLater areActions ordered.2
        withinOn preparedOn
      refine ⟨after, ?_, clear, ?_⟩
      · rw [runFrom_runActions_cons, prepared.clear, ran]
        exact rest
      · intro action isDone
        apply outputs
        rw [List.mem_cons] at isDone
        rcases isDone with (isNext | later) | earlier
        · exact .inr (.inl isNext)
        · exact .inl later
        · exact .inr (.inr earlier)

/-- The start of a run that makes every call anew. -/
def fullStart (rule : Rule) (surroundings : Surroundings) (shared : Shared) : Progress :=
  ((Progress.start shared).withMemo none).inside (rule.rootNode surroundings.date)

/-- The requirements are checked alike with and without remembering the values of calls. -/
theorem checkRequirements_agrees {shared : Shared} (functional : surroundings.provider.IsFunction)
    (quiet : surroundings.cancellation = .none)
    (apart : (rule.fullRun surroundings shared).ToldApart) (other : Shared) :
    let plain := rule.checkRequirements.runFrom surroundings (rule.fullStart surroundings shared)
    let following := rule.checkRequirements.runFrom surroundings
      ((Progress.start other).inside (rule.rootNode surroundings.date))
    following.1 = plain.1 ∧
      Agree surroundings (allowing (rule.fullRun surroundings shared) fun _ => True) plain.2
        following.2 := by
  intro plain following
  have follows := (Follows.congruence functional quiet
    (allowing_tellsApart apart fun _ => True)).checkRequirements rule
  refine follows.agrees _ _ ⟨rfl, rfl, fun _ _ => rfl, rfl, fun _ _ held => nomatch held⟩
    ⟨?_, .inr fun _ => trivial⟩
  intro note noted
  cases note with
  | read name => trivial
  | call call =>
      exact Progress.mem_calls.mpr (run_notes rule none _
        (runParts_notes_requirements quiet rule none _ noted))

/-- The full evaluation with every call made anew. -/
structure FullRun (rule : Rule) (surroundings : Surroundings) (shared : Shared)
    (between last : Progress) : Prop where
  checked : rule.checkRequirements.runFrom surroundings (rule.fullStart surroundings shared) =
    (.ok true, between)
  acted : (rule.runActions rule.actions).runFrom surroundings between = (.ok (), last)
  clear : last.missingRequired = false

/-- The trace says the same after the outermost node has ended. -/
theorem FullRun.trace {shared : Shared} {between : Progress}
    (full : FullRun rule surroundings shared between last) :
    (rule.fullRun surroundings shared).notes = last.notes ∧
      ∀ action, (rule.fullRun surroundings shared).readsOf action = last.readsOf action := by
  have ran : (rule.runParts none).runFrom surroundings (rule.fullStart surroundings shared) =
      (.ok (true, shownOutput last), last) := by
    rw [runFrom_runParts, full.checked]
    dsimp only
    rw [runRequired_met (ActionOrder.required_none rule.actions), full.acted]
  have ended : rule.fullRun surroundings shared = last.outside (.record (shownOutput last)) := by
    rw [fullRun, runFrom_run, ← fullStart, ran]
  obtain ⟨root, nodes, _⟩ := runParts_stays ran _ _ rfl
  obtain nodes : last.openNodes = [root] := nodes
  have closed : (rule.fullRun surroundings shared).openNodes =
      [{ root with result := .record (shownOutput last) }] := by
    rw [ended, Progress.outside, nodes]
    rfl
  constructor
  · rw [Progress.notes, Progress.notes, closed, nodes]
    rfl
  · intro action
    rw [Progress.readsOf, Progress.readsOf, Progress.nodesOf, Progress.nodesOf, closed, nodes]
    rfl

/-- An evaluation whose requirements are met goes on alike when it makes every call anew. -/
theorem exists_fullRun {shared : Shared} {following after : Progress}
    (functional : surroundings.provider.IsFunction) (quiet : surroundings.cancellation = .none)
    (apart : (rule.fullRun surroundings shared).ToldApart)
    (checked : rule.checkRequirements.runFrom surroundings
      ((Progress.start shared).inside (rule.rootNode surroundings.date)) = (.ok true, following))
    (acted : (rule.runActions rule.actions).runFrom surroundings following = (.ok (), after))
    (clear : after.missingRequired = false) :
    ∃ between last, FullRun rule surroundings shared between last ∧
      ∀ name, Entries.get? name after.outputs = Entries.get? name last.outputs := by
  obtain ⟨sameVerdict, agreeBetween⟩ := checkRequirements_agrees functional quiet apart shared
  rw [checked] at sameVerdict agreeBetween
  cases plainChecked : rule.checkRequirements.runFrom surroundings
      (rule.fullStart surroundings shared) with
  | mk verdict between =>
      rw [plainChecked] at sameVerdict agreeBetween
      obtain rfl : verdict = .ok true := sameVerdict.symm
      have ends : ((rule.runActions rule.actions).runFrom surroundings between).2.notes ⊆
          (rule.fullRun surroundings shared).notes := by
        have later := runRequired_progress none plainChecked
        rw [runRequired_met (ActionOrder.required_none rule.actions)] at later
        rw [later]
        exact run_notes rule none _
      have noted : ∀ note ∈ ((rule.runActions rule.actions).runFrom surroundings between).2.notes,
          allowing (rule.fullRun surroundings shared) (fun _ => True) note := by
        intro note noted
        cases note with
        | read name => trivial
        | call call => exact Progress.mem_calls.mpr (ends noted)
      obtain ⟨sameEnd, agreeLast⟩ := runActions_agrees functional quiet
        (allowing_tellsApart apart fun _ => True) (fun _ => trivial) rule rule.actions agreeBetween
        noted
      rw [acted] at sameEnd agreeLast
      cases plainActed : (rule.runActions rule.actions).runFrom surroundings between with
      | mk done last =>
          rw [plainActed] at sameEnd agreeLast
          obtain rfl : done = .ok () := sameEnd.symm
          refine ⟨between, last, ⟨plainChecked, plainActed, ?_⟩, fun name => ?_⟩
          · rw [← agreeLast.missing, clear]
          · exact agreeLast.outputs name trivial

/-- Before any action there are no outputs, and one node is open. -/
theorem FullRun.begins {shared : Shared} {between : Progress}
    (full : FullRun rule surroundings shared between last) :
    between.scope = [] ∧ between.memo = none ∧ between.outputs = [] ∧
      ∃ root, between.openNodes = [root] := by
  have bounded := Bounded.congruence.checkRequirements rule
  have grows := bounded.grows surroundings (rule.fullStart surroundings shared)
  rw [full.checked] at grows
  obtain ⟨root, nodes, _⟩ := bounded.stays _ _ _ _ full.checked _ _ rfl
  exact ⟨grows.scope, grows.memoless rfl, grows.outputs, root, nodes⟩

theorem holdsOutputs_nil (final : Record) : HoldsOutputs final (fun _ => False) ([] : Record) :=
  ⟨fun _ impossible => impossible.elim, fun _ _ => rfl⟩

/-- Every action has its stage in the full evaluation. -/
theorem FullRun.stages {shared : Shared} {between : Progress}
    (distinct : (rule.actions.map Action.output).Nodup) (quiet : surroundings.cancellation = .none)
    (full : FullRun rule surroundings shared between last) :
    ∀ action ∈ rule.actions, ∃ raw progress after, rule.Stage surroundings last
      (fun other => other ∈ declaredBefore rule.actions action) action raw progress after := by
  intro action member
  obtain ⟨scope, memoless, noOutputs, root, nodes⟩ := full.begins
  have holds : HoldsOutputs last.outputs (fun _ => False) between.outputs := by
    rw [noOutputs]
    exact holdsOutputs_nil last.outputs
  obtain ⟨raw, progress, after, stage⟩ := runActions_stage quiet full.acted full.clear distinct
    nodes scope memoless holds member
  exact ⟨raw, progress, after, { stage with outputs := stage.outputs.congr (by simp) }⟩

/-- Before any action every evaluation is prepared. -/
theorem FullRun.prepares {shared : Shared} {between : Progress}
    (functional : surroundings.provider.IsFunction) (quiet : surroundings.cancellation = .none)
    (apart : (rule.fullRun surroundings shared).ToldApart)
    (full : FullRun rule surroundings shared between last) (other : Shared) :
    ∃ following,
      rule.checkRequirements.runFrom surroundings
        ((Progress.start other).inside (rule.rootNode surroundings.date)) =
          (.ok true, following) ∧
      Prepared surroundings last (fun _ => False) following := by
  obtain ⟨sameVerdict, agree⟩ := checkRequirements_agrees functional quiet apart other
  have begun := (Bounded.congruence.checkRequirements rule).grows surroundings
    ((Progress.start other).inside (rule.rootNode surroundings.date))
  have advances := runActions_advances quiet rule rule.actions between
  rw [full.acted] at advances
  rw [full.checked] at sameVerdict agree
  cases checked : rule.checkRequirements.runFrom surroundings
      ((Progress.start other).inside (rule.rootNode surroundings.date)) with
  | mk verdict following =>
      rw [checked] at sameVerdict agree begun
      obtain rfl : verdict = .ok true := sameVerdict
      refine ⟨following, rfl, begun.scope, ?_, ?_, ?_⟩
      · rw [agree.missing, advances.missing_false full.clear]
      · have noOutputs : following.outputs = [] := begun.outputs
        rw [noOutputs]
        exact holdsOutputs_nil last.outputs
      · intro key value held
        obtain ⟨question, outcome, isAllowed, answers⟩ := agree.remembers key value held
        have isCall : question.record ∈ (rule.fullRun surroundings shared).calls := isAllowed
        rw [Progress.calls, full.trace.1, ← Progress.calls] at isCall
        exact ⟨question, outcome, isCall, answers⟩

/-- The requested output of a run has the value of the full run. -/
theorem FullRun.requested {shared : Shared} {between : Progress} {order : List Action}
    (distinct : (rule.actions.map Action.output).Nodup)
    (functional : surroundings.provider.IsFunction) (quiet : surroundings.cancellation = .none)
    (apart : (rule.fullRun surroundings shared).ToldApart)
    (mentioned : ∀ needed, ActionOrder.Needs rule.actions action needed →
      rule.ReadsMentioned (rule.fullRun surroundings shared) needed)
    (full : FullRun rule surroundings shared between last) (member : action ∈ rule.actions)
    (ordered : ActionOrder.required rule.actions (some action.output) = .ok order)
    (other : Shared) :
    ∃ following after,
      rule.checkRequirements.runFrom surroundings
        ((Progress.start other).inside (rule.rootNode surroundings.date)) =
          (.ok true, following) ∧
      (rule.runActions order).runFrom surroundings following = (.ok (), after) ∧
      after.missingRequired = false ∧
      (Entries.get? action.output last.outputs).isSome ∧
      Entries.get? action.output after.outputs = Entries.get? action.output last.outputs := by
  obtain ⟨notes, reads⟩ := full.trace
  have lastApart : last.ToldApart := by
    rwa [Progress.ToldApart, Progress.calls, notes] at apart
  obtain ⟨needs, isOrder⟩ := ActionOrder.required_ok distinct member ordered
  have members : order ⊆ rule.actions := fun needed isOrdered =>
    ((needs needed).mp isOrdered).mem member
  have lastMentioned : ∀ needed ∈ order, rule.ReadsMentioned last needed := by
    intro needed isOrdered name isRead
    exact mentioned needed ((needs needed).mp isOrdered) name (by rwa [reads needed])
  have stages := full.stages distinct quiet
  obtain ⟨following, checked, prepared⟩ := full.prepares functional quiet apart other
  obtain ⟨after, acted, clear, outputs⟩ := prepared.run functional quiet lastApart
    lastMentioned stages members (isOrder.transGen fun _ _ impossible _ => impossible)
    (fun _ impossible => impossible.elim)
  obtain ⟨raw, _, _, stage⟩ := stages action member
  exact ⟨following, after, checked, acted, clear, by rw [stage.output]; rfl,
    outputs action (.inl ((needs action).mpr .refl))⟩

variable {provider : Provider} {claims : Option ClaimLookup} {sources : Entries Source}
  {request : Request} {date : Date} {shared : Shared} {full : Outcome}

/-- If all outputs that the needed actions read are mentioned in them or in what they mention, and no
two different calls are kept under one key, then an output that is requested alone has the value that
the full evaluation gives it exactly when no needed action mentions itself. -/
theorem evaluate_requested (distinct : (rule.actions.map Action.output).Nodup)
    (functional : provider.IsFunction) (quiet : request.cancellation = .none)
    (apart : (rule.fullRun (rule.surroundings provider claims sources request date)
      shared).ToldApart)
    (mentioned : ∀ needed, ActionOrder.Needs rule.actions action needed → rule.ReadsMentioned
      (rule.fullRun (rule.surroundings provider claims sources request date) shared) needed)
    (answered : (rule.evaluate provider claims sources { request with requested := none } date
      shared).1 = .ok full)
    (met : full.requirementsMet = true) (member : action ∈ rule.actions) (other : Shared) :
    (∃ outcome value,
      (rule.evaluate provider claims sources { request with requested := some action.output } date
        other).1 = .ok outcome ∧
      outcome.requirementsMet = true ∧
      Entries.get? action.output full.output = some value ∧
      Entries.get? action.output outcome.output = some value) ↔
      ∀ needed, ActionOrder.Needs rule.actions action needed →
        ¬ Relation.TransGen (ActionOrder.Mentions rule.actions) needed needed := by
  rw [← ActionOrder.required_iff distinct member]
  constructor
  · rintro ⟨outcome, value, answered, met, _⟩
    obtain ⟨_, order, _, _, ordered, _⟩ := evaluate_met_iff.mp ⟨outcome, answered, met, rfl⟩
    exact ⟨order, ordered⟩
  rintro ⟨order, ordered⟩
  obtain ⟨_, all, _, checked, allOrdered, acted, clear, fullOutputs⟩ :=
    evaluate_met_iff.mp ⟨full, answered, met, rfl⟩
  rw [ActionOrder.required_none] at allOrdered
  cases allOrdered
  have functional : (rule.surroundings provider claims sources request date).provider.IsFunction :=
    functional
  obtain ⟨between, last, fullRun, outputs⟩ :=
    exists_fullRun functional quiet apart checked acted clear
  obtain ⟨following, after, checked, acted, clear, isSet, same⟩ :=
    fullRun.requested distinct functional quiet apart mentioned member ordered other
  have evaluated : ∃ outcome,
      (rule.evaluate provider claims sources { request with requested := some action.output } date
        other).1 = .ok outcome ∧ outcome.requirementsMet = true ∧ outcome.output = after.outputs :=
    evaluate_met_iff.mpr ⟨following, order, after, checked, ordered, acted, clear, rfl⟩
  obtain ⟨outcome, answered, met, output⟩ := evaluated
  obtain ⟨value, isValue⟩ := Option.isSome_iff_exists.mp isSet
  refine ⟨outcome, value, answered, met, ?_, ?_⟩
  · rw [← fullOutputs, outputs, isValue]
  · rw [output, same, isValue]

/-- The action of a fixed amount. -/
def baseAction : Action :=
  ⟨"base", some (.literal (.int 1200)), none⟩

/-- The action that raises the fixed amount. -/
def raisedAction : Action :=
  ⟨"raised", none, some { Operation.named "ADD" with
    values := some (.list [.literal (.string "$base"), .literal (.int 300)]) }⟩

/-- The action that takes over what a table has for the fixed amount. -/
def foundAction : Action :=
  ⟨"found", some (.literal (.string "$row")), none⟩

/-- The property that selects a row by the fixed amount. -/
def rowProperty : Property :=
  ⟨"row", none, none, none, none, none,
    some ⟨none, "amounts", some "kind", none, [⟨"amount", none, .literal (.string "$base")⟩]⟩, false⟩

/-- A rule of two actions without requirements. -/
def baseRule (inputs : List Property) (second : Action) : Rule :=
  { uuid := "base-2025"
    name := "Base"
    law := "base"
    service := "A"
    validFrom := default
    description := none
    discoverable := none
    properties := { Properties.empty with inputs }
    requirements := []
    actions := [baseAction, second] }

/-- The table of the kinds of amounts. -/
def amounts : Entries Source :=
  [("amounts", .stored [[("amount", .int 1200), ("kind", .string "low")],
    [("amount", .int 2400), ("kind", .string "high")]])]

/-- A request for an output of a rule, or for all. -/
def baseRequest (requested : Option String) : Request :=
  ⟨"A", "base", [], none, [], requested, false, .none⟩

/-- The answer of a rule that calls no other law. -/
def baseAnswer (rule : Rule) (requested : Option String) : Except EvaluationError Outcome :=
  (rule.evaluate Provider.empty none amounts (baseRequest requested)
    default Shared.initial).1

/-- The full evaluation of a rule that calls no other law. -/
def baseRun (rule : Rule) : Progress :=
  rule.fullRun (rule.surroundings Provider.empty none amounts (baseRequest none)
    default) Shared.initial

/-- The verdict of an answer with the text of an output. -/
def shown (answer : Except EvaluationError Outcome) (output : String) :
    Option (Bool × Option String) :=
  answer.toOption.map fun outcome =>
    (outcome.requirementsMet, (Entries.get? output outcome.output).map Value.text)

theorem references_baseAction : baseAction.references = [] := by
  decide +kernel

theorem references_raisedAction : raisedAction.references = ["base"] := by
  decide +kernel

theorem raised_acyclic : ∀ action ∈ (baseRule [] raisedAction).actions,
    ¬ Relation.TransGen (ActionOrder.Mentions (baseRule [] raisedAction).actions) action action := by
  refine ActionOrder.acyclic_of_rank (fun action => if action.output = "base" then 0 else 1) ?_
  intro action member other mentions
  obtain ⟨_, path, mentioned, same⟩ := mentions
  rcases List.mem_pair.mp member with rfl | rfl
  · rw [references_baseAction] at mentioned
    cases mentioned
  · rw [references_raisedAction, List.mem_singleton] at mentioned
    have isBase : other.output = "base" := by
      rw [← same, mentioned]
      decide +kernel
    rw [if_pos isBase]
    decide

theorem raised_readsMentioned : ∀ action ∈ (baseRule [] raisedAction).actions,
    (baseRule [] raisedAction).ReadsMentioned (baseRun (baseRule [] raisedAction)) action := by
  have readsBase : (baseRun (baseRule [] raisedAction)).readsOf baseAction = [] := by
    decide +kernel
  have readsRaised : (baseRun (baseRule [] raisedAction)).readsOf raisedAction = ["base"] := by
    decide +kernel
  intro action member name isRead other isAction same
  rcases List.mem_pair.mp member with rfl | rfl
  · rw [readsBase] at isRead
    cases isRead
  · rw [readsRaised, List.mem_singleton] at isRead
    subst isRead
    rcases List.mem_pair.mp isAction with rfl | rfl
    · refine ⟨List.mem_singleton_self _, .single ⟨isAction, "base", ?_, by decide +kernel⟩⟩
      rw [references_raisedAction]
      exact List.mem_singleton_self _
    · exact absurd same (by decide)

/-- An answer whose requirements are met. -/
theorem answered_of_met {answer : Except EvaluationError Outcome}
    (met : answer.toOption.map Outcome.requirementsMet = some true) :
    ∃ outcome, answer = .ok outcome ∧ outcome.requirementsMet = true := by
  cases answer with
  | error cause => cases met
  | ok outcome => exact ⟨outcome, rfl, Option.some.inj met⟩

theorem evaluate_requested_raised :
    let rule := baseRule [] raisedAction
    (rule.actions.map Action.output).Nodup ∧ Provider.empty.IsFunction ∧
      (baseRequest none).cancellation = .none ∧ (baseRun rule).ToldApart ∧
      (∀ needed, ActionOrder.Needs rule.actions raisedAction needed →
        rule.ReadsMentioned (baseRun rule) needed) ∧
      ∃ full, baseAnswer rule none = .ok full ∧ full.requirementsMet = true ∧
        raisedAction ∈ rule.actions ∧
        (∀ needed, ActionOrder.Needs rule.actions raisedAction needed →
          ¬ Relation.TransGen (ActionOrder.Mentions rule.actions) needed needed) ∧
        ∃ outcome value, baseAnswer rule (some "raised") = .ok outcome ∧
          outcome.requirementsMet = true ∧ Entries.get? "raised" full.output = some value ∧
          Entries.get? "raised" outcome.output = some value := by
  intro rule
  have distinct : (rule.actions.map Action.output).Nodup := by decide
  have functional : Provider.empty.IsFunction := fun _ _ _ => rfl
  have apart : (baseRun rule).ToldApart := Progress.toldApart_of_nodup (by decide +kernel)
  have isMet : (baseAnswer rule none).toOption.map Outcome.requirementsMet = some true := by
    decide +kernel
  obtain ⟨full, answered, met⟩ := answered_of_met isMet
  have member : raisedAction ∈ rule.actions := List.mem_cons_of_mem _ (List.mem_singleton_self _)
  have mentioned : ∀ needed, ActionOrder.Needs rule.actions raisedAction needed →
      rule.ReadsMentioned (baseRun rule) needed :=
    fun needed needs => raised_readsMentioned needed (needs.mem member)
  have acyclic : ∀ needed, ActionOrder.Needs rule.actions raisedAction needed →
      ¬ Relation.TransGen (ActionOrder.Mentions rule.actions) needed needed :=
    fun needed needs => raised_acyclic needed (needs.mem member)
  exact ⟨distinct, functional, rfl, apart, mentioned, full, answered, met, member, acyclic,
    (evaluate_requested distinct functional rfl apart mentioned answered met member
      Shared.initial).mpr acyclic⟩

/-- The row is selected by an output that is declared before, but only the declaration of the row
mentions this output. So the output is not computed when the row alone is requested. -/
theorem evaluate_requested_misses_row :
    let rule := baseRule [rowProperty] foundAction
    (rule.actions.map Action.output).Nodup ∧ Provider.empty.IsFunction ∧
      (baseRequest none).cancellation = .none ∧
      (∀ action ∈ rule.actions, ∀ name ∈ (baseRun rule).readsOf action, ∀ other ∈ rule.actions,
        other.output = name → other ∈ declaredBefore rule.actions action) ∧
      shown (baseAnswer rule none) "found" = some (true, some "low") ∧
      shown (baseAnswer rule (some "found")) "found" = some (true, some "null") := by
  intro rule
  have readsBase : (baseRun rule).readsOf baseAction = [] := by
    decide +kernel
  have readsFound : (baseRun rule).readsOf foundAction = ["row", "base"] := by
    decide +kernel
  refine ⟨by decide, fun _ _ _ => rfl, rfl, ?_, by decide +kernel, by decide +kernel⟩
  intro action member name isRead other isAction same
  rcases List.mem_pair.mp member with rfl | rfl
  · rw [readsBase] at isRead
    cases isRead
  · rw [readsFound] at isRead
    rcases List.mem_pair.mp isAction with rfl | rfl
    · exact List.mem_singleton_self _
    · subst same
      exact absurd isRead (by decide)

end Rule

end Statute
