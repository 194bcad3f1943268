/-
This file proves when a required property that is null counts as missing.
-/

import Statute.Proofs.Evaluation.Declarations
import Statute.Proofs.Evaluation.MissingValues
import Statute.Proofs.Evaluation.Nesting

namespace Statute

namespace Resolution

variable {surroundings : Surroundings} {progress after : Progress} {name path : String}
  {property : Property}

/-- The paths that the date defines have no dots and are never null. -/
theorem dateValue?_some {date : Date} {value : Value} (dated : dateValue? date path = some value) :
    pathTail path = [] ∧ value ≠ .null := by
  unfold dateValue? at dated
  split at dated <;> cases dated <;> exact ⟨by decide, nofun⟩

/-- The run of a level of a lookup whose path the date does not define. -/
theorem runFrom_lookUp_undated (undated : dateValue? surroundings.date path = none) (fuel : Nat) :
    (lookUp (fuel + 1) path).runFrom surroundings progress =
      (match pathTail path with
        | [] => recorded path (resolveName (lookUp fuel) path)
        | names => recorded path (resolveFields (lookUp fuel) path names)).runFrom surroundings
          progress := by
  have given : (Evaluation.given fun surroundings => dateValue? surroundings.date path).runFrom
      surroundings progress = (.ok none, progress) :=
    congrArg (fun dated => (Except.ok dated, progress)) undated
  rewrite [lookUp, Evaluation.runFrom_bind_of_ok given]
  rfl

/-- The value of a name that is null was found by the name. -/
theorem runFrom_valueOf_null (undotted : pathTail name = [])
    (ran : (Evaluation.valueOf name).runFrom surroundings progress = (.ok .null, after)) :
    ∃ lookUp origin between,
      (resolveName lookUp name).runFrom surroundings
        ((progress.withAccess name).inside (TraceNode.resolving name)) =
          (.ok ⟨origin, .null⟩, between) ∧
      after.missingRequired = between.missingRequired := by
  obtain ⟨fuel, isLimit⟩ : ∃ fuel, nestingLimit surroundings.properties = fuel + 1 :=
    ⟨2 * surroundings.properties.length + 999, rfl⟩
  rw [Evaluation.runFrom_valueOf, isLimit] at ran
  cases dated : dateValue? surroundings.date name with
  | some value =>
      have given : (Evaluation.given fun surroundings =>
          dateValue? surroundings.date name).runFrom surroundings progress =
            (.ok (some value), progress) :=
        congrArg (fun dated => (Except.ok dated, progress)) dated
      rw [lookUp, Evaluation.runFrom_bind_of_ok given, runFrom_recorded] at ran
      cases ran
      exact absurd rfl (dateValue?_some dated).2
  | none =>
      rw [runFrom_lookUp_undated dated, undotted] at ran
      dsimp only at ran
      rw [runFrom_recorded] at ran
      split at ran
      · rename_i found between inner
        obtain ⟨origin, value⟩ := found
        obtain ⟨isNull, rfl⟩ := Prod.mk.inj ran
        obtain rfl : value = .null := Except.ok.inj isNull
        exact ⟨_, origin, between, inner, rfl⟩
      · cases ran

/-- A required property that resolves to null is missing unless it was claimed or bound to null. -/
theorem missing_of_null (undotted : pathTail name = [])
    (declared : Entries.get? name surroundings.properties = some property)
    (required : property.required = true)
    (ran : (Evaluation.valueOf name).runFrom surroundings progress = (.ok .null, after)) :
    after.missingRequired = true ↔ progress.missingRequired = true ∨
      Entries.get? name surroundings.claims = none ∧ bound? surroundings progress name = none := by
  obtain ⟨lookUp, origin, between, inner, flag⟩ := runFrom_valueOf_null undotted ran
  have sameBound : bound? surroundings
      ((progress.withAccess name).inside (TraceNode.resolving name)) name =
        bound? surroundings progress name := rfl
  rw [flag, runFrom_resolveName_chosen] at *
  unfold chosen at inner
  cases claimed : Entries.get? name surroundings.claims with
  | some value =>
      rw [claimed, declared] at inner
      cases inner
      simp [Progress.inside, Progress.withAccess]
  | none =>
      rw [claimed, sameBound] at inner
      cases bound : bound? surroundings progress name with
      | some pair =>
          obtain ⟨found, value⟩ := pair
          rw [bound] at inner
          cases inner
          simp [Progress.inside, Progress.withAccess]
      | none =>
          simp only [bound, unclaimed, declared] at inner
          obtain ⟨_, _, _, inner⟩ := Evaluation.runFrom_bind_ok inner
          obtain ⟨⟨found, value⟩, _, _, inner⟩ := Evaluation.runFrom_bind_ok inner
          cases inner
          simp [Value.isNull, required]

/-- What a path with dots leaves as missing is what its first name leaves. -/
theorem missing_of_fields (dotted : pathTail path ≠ []) :
    ((Evaluation.valueOf path).runFrom surroundings progress).2.missingRequired =
      ((lookUp (nestingLimit surroundings.properties - 1) (pathRoot path)).runFrom surroundings
        ((progress.withAccess path).inside (TraceNode.resolving path))).2.missingRequired := by
  obtain ⟨fuel, isLimit⟩ : ∃ fuel, nestingLimit surroundings.properties = fuel + 1 :=
    ⟨2 * surroundings.properties.length + 999, rfl⟩
  have undated : dateValue? surroundings.date path = none := by
    cases dated : dateValue? surroundings.date path with
    | none => rfl
    | some value => exact absurd (dateValue?_some dated).1 dotted
  rw [Evaluation.runFrom_valueOf, isLimit, runFrom_lookUp_undated undated, Nat.add_sub_cancel]
  split
  · rename_i undotted
    exact absurd undotted dotted
  · rw [runFrom_recorded, resolveFields, Evaluation.runFrom_bind]
    cases (lookUp fuel (pathRoot path)).runFrom surroundings
        ((progress.withAccess path).inside (TraceNode.resolving path)) with
    | mk result between => cases result <;> rfl

end Resolution

namespace TraceNode

mutual

theorem ended_subset (border : NodeKind) : (node : TraceNode) → node.ended border ⊆ node.nodes
  | ⟨kind, name, path, result, origin, required, details, children⟩ => by
      rw [ended, nodes]
      split
      · exact List.nil_subset _
      · intro node member
        rcases List.mem_append.mp member with below | own
        · exact List.mem_cons_of_mem _ (endedBelow_subset border children below)
        · exact List.mem_singleton.mp own ▸ List.mem_cons_self

theorem endedBelow_subset (border : NodeKind) :
    (trees : List TraceNode) → endedBelow border trees ⊆ nodesBelow trees
  | [] => by
      rw [endedBelow]
      exact List.nil_subset _
  | child :: rest => by
      rw [endedBelow, nodesBelow]
      exact List.append_subset.mpr
        ⟨List.subset_append_of_subset_left _ (ended_subset border child),
          List.subset_append_of_subset_right _ (endedBelow_subset border rest)⟩

end

/-- A node that found null for a required property through its declaration. -/
def LacksProperty (properties : Entries Property) (node : TraceNode) : Prop :=
  node.kind = .resolve ∧ node.result = .null ∧
    (∃ origin, node.origin = some origin ∧ origin.isDeclared = true) ∧
    ∃ name property, node.path = some name ∧ Entries.get? name properties = some property ∧
      property.required = true

/-- Such a node shows that a required value is missing. -/
theorem LacksProperty.showsMissing {properties : Entries Property} {node : TraceNode}
    (lacks : node.LacksProperty properties) (marked : node.IsMarked properties) :
    node.ShowsMissing := by
  obtain ⟨isLookUp, isNull, ⟨origin, isOrigin, declares⟩, name, property, isPath, declared, required⟩ :=
    lacks
  have mark := marked name origin property isLookUp isPath isOrigin declares declared
  refine ⟨isLookUp, mark.trans required, isNull, ?_⟩
  rw [isOrigin]
  rintro ⟨⟩
  cases declares

end TraceNode

/-- An answer in whose own trace a required property was found to be null lacks it. -/
theorem Rule.evaluate_lacks {rule : Rule} {provider : Provider} {claims : Option ClaimLookup}
    {sources : Entries Source} {request : Request} {date : Date} {shared after : Shared}
    {outcome : Outcome} {trace node : TraceNode} (explains : provider.Explains)
    (answered : rule.evaluate provider claims sources request date shared = (.ok outcome, after))
    (traced : outcome.trace = some trace)
    (below : node ∈ TraceNode.endedBelow .serviceEvaluation trace.children)
    (lacks : node.LacksProperty (propertyTable rule.declaredProperties)) :
    outcome.missingRequired = true ∧ outcome.output = [] ∧ outcome.requirementsMet = false := by
  have shows := lacks.showsMissing (evaluate_marked answered traced node below)
  obtain ⟨same, isSame, explained⟩ := evaluate_explained explains answered
  rw [traced] at isSame
  cases isSame
  have missing : outcome.missingRequired = true := by
    refine explained.mpr ⟨node, ?_, shows⟩
    have inside := TraceNode.endedBelow_subset _ _ below
    cases trace
    rw [TraceNode.nodes]
    exact List.mem_cons_of_mem _ inside
  exact ⟨missing, evaluate_voided answered missing⟩

/-- A required property that resolves to null counts as missing exactly where it is asked for under
its own name and neither claimed nor bound. A name with dots is never taken for that of a property. An
evaluation that found a required property to be null through its declaration has no outputs, and its
requirements are not met. -/
theorem Registry.null_property_missing (registry : Registry) (claims : Option ClaimLookup) :
    (∀ (surroundings : Surroundings) (progress after : Progress) (name : String)
      (property : Property), pathTail name = [] →
      Entries.get? name surroundings.properties = some property → property.required = true →
      (Evaluation.valueOf name).runFrom surroundings progress = (.ok .null, after) →
      (after.missingRequired = true ↔ progress.missingRequired = true ∨
        Entries.get? name surroundings.claims = none ∧
          Resolution.bound? surroundings progress name = none)) ∧
    (∀ (surroundings : Surroundings) (progress : Progress) (path : String), pathTail path ≠ [] →
      ((Evaluation.valueOf path).runFrom surroundings progress).2.missingRequired =
        ((Resolution.lookUp (Resolution.nestingLimit surroundings.properties - 1)
          (pathRoot path)).runFrom surroundings
            ((progress.withAccess path).inside (TraceNode.resolving path))).2.missingRequired) ∧
    ∀ (rule : Rule) (fuel : Nat) (sources : Entries Source) (request : Request) (date : Date)
      (shared after : Shared) (outcome : Outcome) (trace node : TraceNode),
      rule.evaluate (registry.provider claims fuel) claims sources request date shared =
        (.ok outcome, after) →
      outcome.trace = some trace →
      node ∈ TraceNode.endedBelow .serviceEvaluation trace.children →
      node.LacksProperty (Rule.propertyTable rule.declaredProperties) →
      outcome.missingRequired = true ∧ outcome.output = [] ∧ outcome.requirementsMet = false := by
  refine ⟨?_, ?_, ?_⟩
  · intro surroundings progress after name property undotted declared required ran
    exact Resolution.missing_of_null undotted declared required ran
  · intro surroundings progress path dotted
    exact Resolution.missing_of_fields dotted
  · intro rule fuel sources request date shared after outcome trace node answered traced below lacks
    exact Rule.evaluate_lacks (registry.provider_explains claims fuel) answered traced below lacks

/-- The tax office is asked for the income of a person. -/
def incomeRequest : Request :=
  ⟨"BELASTINGDIENST", "awir", [("BSN", .string "111")], none, [], none, true, .none⟩

/-- The person claims that the income that was declared is null. -/
def nullIncome : ClaimLookup :=
  fun _ _ law _ => if law = "awir" then [("declared", .null)] else []

/-- The surroundings in which the tax office determines the income. -/
def incomeSurroundings (claims : Option ClaimLookup) : Surroundings :=
  incomeRule.surroundings (supplementRegistry.provider claims 1) claims [] incomeRequest default

theorem incomeSurroundings_declares (claims : Option ClaimLookup) :
    ∃ property, Entries.get? "declared" (incomeSurroundings claims).properties = some property ∧
      property.required = true :=
  ⟨_, rfl, rfl⟩

/-- A value that is shown to be null was found. -/
theorem Evaluation.null_of_shown {evaluation : Evaluation Value} {surroundings : Surroundings}
    {progress : Progress}
    (shows : (evaluation.runFrom surroundings progress).1.toOption.map Value.isNull = some true) :
    ∃ after, evaluation.runFrom surroundings progress = (.ok .null, after) := by
  cases ran : evaluation.runFrom surroundings progress with
  | mk result after =>
      rw [ran] at shows
      cases result with
      | error cause => cases shows
      | ok value =>
          obtain rfl := Value.isNull_iff.mp (Option.some.inj shows)
          exact ⟨after, rfl⟩

/-- Without claims the income that must be declared is missing, and so are the outputs. -/
theorem Registry.null_property_missing_income :
    ∃ (property : Property) (after : Progress) (outcome : Outcome) (sharedAfter : Shared)
      (trace node : TraceNode),
      Entries.get? "declared" (incomeSurroundings none).properties = some property ∧
      property.required = true ∧
      (Evaluation.valueOf "declared").runFrom (incomeSurroundings none) (Progress.start .initial) =
        (.ok .null, after) ∧
      after.missingRequired = true ∧
      pathTail "declared.amount" ≠ [] ∧
      ((Evaluation.valueOf "declared.amount").runFrom (incomeSurroundings none)
        (Progress.start .initial)).2.missingRequired = true ∧
      incomeRule.evaluate (supplementRegistry.provider none 1) none [] incomeRequest default
        .initial = (.ok outcome, sharedAfter) ∧
      outcome.trace = some trace ∧
      node ∈ TraceNode.endedBelow .serviceEvaluation trace.children ∧
      node.LacksProperty (Rule.propertyTable incomeRule.declaredProperties) ∧
      outcome.missingRequired = true ∧ outcome.output = [] ∧ outcome.requirementsMet = false := by
  obtain ⟨names, fields, answers⟩ := supplementRegistry.null_property_missing none
  obtain ⟨property, declared, required⟩ := incomeSurroundings_declares none
  have isNull : ((Evaluation.valueOf "declared").runFrom (incomeSurroundings none)
      (Progress.start .initial)).1.toOption.map Value.isNull = some true := by
    decide +kernel
  obtain ⟨after, ran⟩ := Evaluation.null_of_shown isNull
  have missing := (names _ _ _ _ property (by decide) declared required ran).mpr
    (.inr ⟨rfl, rfl⟩)
  have dotted : pathTail "declared.amount" ≠ [] := by decide
  have fieldMissing : ((Evaluation.valueOf "declared.amount").runFrom (incomeSurroundings none)
      (Progress.start .initial)).2.missingRequired = true := by
    rw [fields _ _ _ dotted]
    decide +kernel
  have shown : (incomeRule.evaluate (supplementRegistry.provider none 1) none [] incomeRequest
      default .initial).1.toOption.map (fun outcome => outcome.trace.map fun trace =>
        (TraceNode.endedBelow .serviceEvaluation trace.children).any fun node =>
          node.kind = .resolve && node.path = some "declared" && node.result.isNull &&
            node.origin = some .nothing) = some (some true) := by
    decide +kernel
  obtain ⟨outcome, sharedAfter, answered, isShown⟩ := Outcome.of_shown shown
  obtain ⟨trace, traced, found⟩ := Option.map_eq_some_iff.mp isShown
  obtain ⟨node, below, isFound⟩ := List.any_eq_true.mp found
  simp only [Bool.and_eq_true, decide_eq_true_eq] at isFound
  obtain ⟨⟨⟨isLookUp, isPath⟩, isNullNode⟩, isOrigin⟩ := isFound
  have lacks : node.LacksProperty (Rule.propertyTable incomeRule.declaredProperties) :=
    ⟨isLookUp, Value.isNull_iff.mp isNullNode, ⟨_, isOrigin, rfl⟩, _, property, isPath, declared,
      required⟩
  exact ⟨property, after, outcome, sharedAfter, trace, node, declared, required, ran, missing, dotted,
    fieldMissing, answered, traced, below, lacks,
    answers _ _ _ _ _ _ _ _ _ _ answered traced below lacks⟩

/-- A claim that the income is null is no missing income, although the node of the income shows that it
is required. -/
theorem Registry.null_property_claimed :
    ∃ (property : Property) (after : Progress) (outcome : Outcome) (sharedAfter : Shared)
      (trace node : TraceNode),
      Entries.get? "declared" (incomeSurroundings (some nullIncome)).properties = some property ∧
      property.required = true ∧
      (Evaluation.valueOf "declared").runFrom (incomeSurroundings (some nullIncome))
        (Progress.start .initial) = (.ok .null, after) ∧
      after.missingRequired = false ∧
      supplementRegistry.evaluate (some nullIncome) incomeRequest .initial =
        (.ok outcome, sharedAfter) ∧
      outcome.trace = some trace ∧ node ∈ trace.nodes ∧ node.path = some "declared" ∧
      node.required = true ∧ node.result = .null ∧
      outcome.missingRequired = false ∧ outcome.requirementsMet = true ∧
      outcome.output.map Prod.fst = ["income"] := by
  obtain ⟨property, declared, required⟩ := incomeSurroundings_declares (some nullIncome)
  have isNull : ((Evaluation.valueOf "declared").runFrom (incomeSurroundings (some nullIncome))
      (Progress.start .initial)).1.toOption.map Value.isNull = some true := by
    decide +kernel
  obtain ⟨after, ran⟩ := Evaluation.null_of_shown isNull
  have unnoted : after.missingRequired = false := by
    have flag : ((Evaluation.valueOf "declared").runFrom (incomeSurroundings (some nullIncome))
        (Progress.start .initial)).2.missingRequired = false := by
      decide +kernel
    rwa [ran] at flag
  have shown : (supplementRegistry.evaluate (some nullIncome) incomeRequest
      .initial).1.toOption.map (fun outcome => (outcome.missingRequired, outcome.requirementsMet,
        outcome.output.map Prod.fst, outcome.trace.map fun trace => trace.nodes.any fun node =>
          node.path = some "declared" && node.required && node.result.isNull)) =
        some (false, true, ["income"], some true) := by
    decide +kernel
  obtain ⟨outcome, sharedAfter, answered, isShown⟩ := Outcome.of_shown shown
  simp only [Prod.mk.injEq] at isShown
  obtain ⟨complete, met, output, traceShown⟩ := isShown
  obtain ⟨trace, traced, found⟩ := Option.map_eq_some_iff.mp traceShown
  obtain ⟨node, below, isFound⟩ := List.any_eq_true.mp found
  simp only [Bool.and_eq_true, decide_eq_true_eq] at isFound
  obtain ⟨⟨isPath, isRequired⟩, isNullNode⟩ := isFound
  exact ⟨property, after, outcome, sharedAfter, trace, node, declared, required, ran, unnoted,
    answered, traced, below, isPath, isRequired, Value.isNull_iff.mp isNullNode, complete, met, output⟩

end Statute
