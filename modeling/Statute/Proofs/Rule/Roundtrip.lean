/-
This file proves that rules survive being written and read again. Each structure finds its members again
where it wrote them, and a rule has what its structures have.
-/

import Statute.Proofs.Date.Reading
import Statute.Proofs.Rule.ExprRoundtrip
import Statute.Rule.Basic

namespace Statute

open Document (Restores)

theorem Constraints.restores : Restores ofDocument? toDocument := by
  refine Restores.fields fun field constraints finite isRead => ?_
  simp only [Option.bind_eq_bind, Option.bind_eq_some_iff, Option.pure_def,
    Option.some.injEq] at isRead
  obtain ⟨unit, isUnit, precision, isPrecision, least, isLeast, most, isMost, rfl⟩ := isRead
  have whole : Document.nullable (fun value : Int => .integer value)
      (precision.bind fun value => some (value : Int)) =
        Document.nullable (fun value : Nat => .integer value) precision := by
    cases precision <;> rfl
  simp [whole, Restores.nullable .text rfl (finite "unit") isUnit,
    Restores.nullable .natural rfl (finite "precision") isPrecision,
    Restores.nullable .float rfl (finite "min") isLeast,
    Restores.nullable .float rfl (finite "max") isMost]

theorem Parameter.restores : Restores ofDocument? toDocument := by
  refine Restores.fields fun field parameter finite isRead => ?_
  simp only [Option.bind_eq_bind, Option.bind_eq_some_iff, Option.pure_def,
    Option.some.injEq] at isRead
  obtain ⟨name, isName, valueType, isType, description, isDescription, required, isRequired, rfl⟩ :=
    isRead
  simp [Restores.required .text (finite "name") isName,
    Restores.optional .text rfl (finite "type") isType,
    Restores.optional .text rfl (finite "description") isDescription,
    Restores.defaulted .flag ⟨trivial, rfl⟩ (finite "required") isRequired]

theorem Temporal.restores : Restores ofDocument? toDocument := by
  refine Restores.fields fun field temporal finite isRead => ?_
  simp only [Option.bind_eq_bind, Option.bind_eq_some_iff, Option.pure_def,
    Option.some.injEq] at isRead
  obtain ⟨kind, isKind, periodType, isPeriod, reference, isReference, rfl⟩ := isRead
  simp [Restores.optional .text rfl (finite "type") isKind,
    Restores.optional .text rfl (finite "period_type") isPeriod,
    Restores.optional .text rfl (finite "reference") isReference]

/-- An argument takes a null for a value, so only its absence is malformed. -/
theorem Argument.restores : Restores ofDocument? toDocument := by
  refine Restores.fields fun field argument finite isRead => ?_
  simp only [Option.bind_eq_bind, Option.bind_eq_some_iff, Option.pure_def,
    Option.some.injEq] at isRead
  obtain ⟨name, isName, reference, isReference, rfl⟩ := isRead
  obtain ⟨written, same⟩ :=
    Restores.value reference _ (finite "reference" reference isReference) rfl
  simp [Restores.required .text (finite "name") isName, written, Option.some.inj same]

theorem ServiceReference.restores : Restores ofDocument? toDocument := by
  refine Restores.fields fun field reference finite isRead => ?_
  simp only [Option.bind_eq_bind, Option.bind_eq_some_iff, Option.pure_def,
    Option.some.injEq] at isRead
  obtain ⟨service, isService, output, isOutput, law, isLaw, parameters, areParameters, rfl⟩ := isRead
  simp [Restores.required .text (finite "service") isService,
    Restores.required .text (finite "field") isOutput,
    Restores.required .text (finite "law") isLaw,
    Restores.listed Argument.restores (finite "parameters") areParameters]

theorem Selection.restores : Restores ofDocument? toDocument := by
  refine Restores.fields fun field selection finite isRead => ?_
  simp only [Option.bind_eq_bind, Option.bind_eq_some_iff, Option.pure_def,
    Option.some.injEq] at isRead
  obtain ⟨name, isName, description, isDescription, value, isValue, rfl⟩ := isRead
  have stable := Expr.isStable value (finite "value" value isValue)
  simp [Restores.required .text (finite "name") isName,
    Restores.optional .text rfl (finite "description") isDescription, stable.finite, stable.again]

theorem SourceReference.restores : Restores ofDocument? toDocument := by
  refine Restores.fields fun member reference finite isRead => ?_
  simp only [Option.bind_eq_bind, Option.bind_eq_some_iff, Option.pure_def,
    Option.some.injEq] at isRead
  obtain ⟨sourceType, isSourceType, table, isTable, field, isField, fields, areFields, selectOn,
    isSelection, rfl⟩ := isRead
  simp [Restores.optional .text rfl (finite "source_type") isSourceType,
    Restores.required .text (finite "table") isTable,
    Restores.optional .text rfl (finite "field") isField,
    Restores.optional (.list .text) rfl (finite "fields") areFields,
    Restores.listed Selection.restores (finite "select_on") isSelection]

theorem Property.restores : Restores ofDocument? toDocument := by
  refine Restores.fields fun field property finite isRead => ?_
  simp only [Option.bind_eq_bind, Option.bind_eq_some_iff, Option.pure_def,
    Option.some.injEq] at isRead
  obtain ⟨name, isName, description, isDescription, valueType, isType, constraints, areConstraints,
    temporal, isTemporal, service, isService, source, isSource, required, isRequired, rfl⟩ := isRead
  simp [Restores.required .text (finite "name") isName,
    Restores.optional .text rfl (finite "description") isDescription,
    Restores.optional .text rfl (finite "type") isType,
    Restores.optional Constraints.restores rfl (finite "type_spec") areConstraints,
    Restores.optional Temporal.restores rfl (finite "temporal") isTemporal,
    Restores.optional ServiceReference.restores rfl (finite "service_reference") isService,
    Restores.optional SourceReference.restores rfl (finite "source_reference") isSource,
    Restores.defaulted .flag ⟨trivial, rfl⟩ (finite "required") isRequired]

theorem Output.restores : Restores ofDocument? toDocument := by
  refine Restores.fields fun field output finite isRead => ?_
  simp only [Option.bind_eq_bind, Option.bind_eq_some_iff, Option.pure_def,
    Option.some.injEq] at isRead
  obtain ⟨name, isName, description, isDescription, valueType, isType, constraints, areConstraints,
    temporal, isTemporal, rfl⟩ := isRead
  simp [Restores.required .text (finite "name") isName,
    Restores.optional .text rfl (finite "description") isDescription,
    Restores.optional .text rfl (finite "type") isType,
    Restores.optional Constraints.restores rfl (finite "type_spec") areConstraints,
    Restores.optional Temporal.restores rfl (finite "temporal") isTemporal]

theorem EventPattern.restores : Restores ofDocument? toDocument := by
  refine Restores.fields fun field pattern finite isRead => ?_
  simp only [Option.bind_eq_bind, Option.bind_eq_some_iff, Option.pure_def,
    Option.some.injEq] at isRead
  obtain ⟨eventType, isType, filter, isFilter, rfl⟩ := isRead
  simp [Value.toDocument, Restores.required .text (finite "type") isType,
    Restores.named .value (finite "filter") isFilter]

theorem Update.restores : Restores ofDocument? toDocument := by
  refine Restores.fields fun field update finite isRead => ?_
  simp only [Option.bind_eq_bind, Option.bind_eq_some_iff, Option.pure_def,
    Option.some.injEq] at isRead
  obtain ⟨method, isMethod, mapping, isMapping, rfl⟩ := isRead
  simp [Restores.required .text (finite "method") isMethod,
    Restores.named .text (finite "mapping") isMapping]

theorem Declaration.restores : Restores ofDocument? toDocument := by
  refine Restores.fields fun field declaration finite isRead => ?_
  simp only [Option.bind_eq_bind, Option.bind_eq_some_iff, Option.pure_def,
    Option.some.injEq] at isRead
  obtain ⟨name, isName, aggregate, isAggregate, events, areEvents, updates, areUpdates, rfl⟩ := isRead
  simp [Restores.required .text (finite "name") isName,
    Restores.defaulted .text ⟨trivial, rfl⟩ (finite "aggregate") isAggregate,
    Restores.listed EventPattern.restores (finite "events") areEvents,
    Restores.listed Update.restores (finite "update") areUpdates]

theorem Properties.restores : Restores ofDocument? toDocument := by
  refine Restores.fields fun field properties finite isRead => ?_
  simp only [Option.bind_eq_bind, Option.bind_eq_some_iff, Option.pure_def,
    Option.some.injEq] at isRead
  obtain ⟨parameters, areParameters, inputs, areInputs, sources, areSources, outputs, areOutputs,
    definitions, areDefinitions, declarations, areDeclarations, rfl⟩ := isRead
  simp [Value.toDocument,
    Restores.listed Parameter.restores (finite "parameters") areParameters,
    Restores.listed Property.restores (finite "input") areInputs,
    Restores.listed Property.restores (finite "sources") areSources,
    Restores.listed Output.restores (finite "output") areOutputs,
    Restores.named .value (finite "definitions") areDefinitions,
    Restores.listed Declaration.restores (finite "applies") areDeclarations]

theorem Properties.restores_empty :
    empty.toDocument.IsFinite ∧ ofDocument? empty.toDocument = some empty :=
  ⟨⟨trivial, trivial, trivial, trivial, trivial, trivial, trivial⟩, rfl⟩

namespace Rule

theorem restores_date : Restores readDate? fun date => .string date.text := by
  intro _ date _ _
  exact ⟨trivial, Date.read?_text date⟩

/-- A rule that was read from a document is written as a document, and the same rule is read from it. The
document may give a structure as an array, a condition in either form and a number of any kind, and
operations that did not fit are left out of the rule for good. -/
theorem ofDocument?_again {document : Document} {rule : Rule} (finite : document.IsFinite)
    (isRead : ofDocument? document = some rule) :
    rule.toDocument.IsFinite ∧ ofDocument? rule.toDocument = some rule := by
  have restores : Restores ofDocument? toDocument := by
    refine Restores.fields fun field rule finite isRead => ?_
    simp only [Option.bind_eq_bind, Option.bind_eq_some_iff, Option.pure_def,
      Option.some.injEq] at isRead
    obtain ⟨uuid, isUuid, name, isName, law, isLaw, service, isService, validFrom, isDate, description,
      isDescription, discoverable, isDiscoverable, properties, areProperties, requirements,
      areRequirements, actions, areActions, rfl⟩ := isRead
    simp [Restores.required .text (finite "uuid") isUuid,
      Restores.required .text (finite "name") isName,
      Restores.required .text (finite "law") isLaw,
      Restores.required .text (finite "service") isService,
      Restores.required restores_date (finite "valid_from") isDate,
      Restores.optional .text rfl (finite "description") isDescription,
      Restores.optional .text rfl (finite "discoverable") isDiscoverable,
      Restores.defaulted Properties.restores Properties.restores_empty (finite "properties") areProperties,
      Restores.listed Requirement.restores (finite "requirements") areRequirements,
      Restores.listed Action.restores (finite "actions") areActions]
  exact restores document rule finite isRead

/-- A benefit for which a group inside a group must hold. Its first action is an operation of which one
condition is an array, and its second action has parts of an operation that make none. -/
def benefitDocument : Document :=
  .object [
    ("actions", .array [
      .object [
        ("conditions", .array [
          .object [("test", .string "$adult"), ("then", .integer 100)],
          .array [.null, .null, .integer 9223372036854775808]]),
        ("operation", .string "IF"), ("output", .string "amount")],
      .object [("conditions", .string "none"), ("operation", .string "IF"),
        ("output", .string "label"), ("value", .string "benefit")]]),
    ("law", .string "benefit"), ("name", .string "Benefit"),
    ("properties", .object [
      ("applies", .array [.array [.string "case", .string "Case"]]),
      ("definitions", .object [("RATE", .decimal (Double.ofInt 2))]),
      ("input", .array [.object [("name", .string "adult"), ("required", .bool true),
        ("type_spec", .object [("min", .integer 0), ("precision", .integer 2)])]])]),
    ("requirements", .array [
      .object [("all", .array [.object [("or", .array [.string "$adult", .string "$ward"])],
        .object [("all", .string "none")]])]]),
    ("service", .string "A"), ("uuid", .string "benefit-2025"), ("valid_from", .string "2025-01-01")]

/-- The benefit is read with one operation of two, and again where it is written. -/
theorem ofDocument?_again_benefit :
    ∃ rule, benefitDocument.IsFinite ∧ ofDocument? benefitDocument = some rule ∧
      rule.actions.map (fun action => action.operation.isSome) = [true, false] ∧
      rule.toDocument.IsFinite ∧ ofDocument? rule.toDocument = some rule := by
  have rate : (Double.ofInt 2).isFinite = true := Double.isFinite_ofInt (by decide)
  have finite : benefitDocument.IsFinite := by
    simp [benefitDocument, Document.IsFinite, Document.AllFinite, Document.MembersFinite,
      Document.IsNumber, rate]
  have shown : (ofDocument? benefitDocument).map (fun rule =>
      rule.actions.map fun action => action.operation.isSome) = some [true, false] := by
    decide +kernel
  obtain ⟨rule, isRead, operations⟩ := Option.map_eq_some_iff.mp shown
  exact ⟨rule, finite, isRead, operations, ofDocument?_again finite isRead⟩

end Rule

end Statute
