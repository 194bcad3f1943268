/-
This file answers requests for the laws of services.
-/

import Statute.Evaluation.Rule
import Statute.Rule.Catalog

namespace Statute

/-- The services of a catalog with their tables, and the date of requests that give none. -/
structure Registry where
  catalog : Catalog
  rootDate : Date
  tables : Entries (Entries Source)

namespace Shared

/-- The version that a service has prepared for a law and a date. -/
def prepared? (shared : Shared) (service law : String) (date : Date) : Option Rule :=
  (shared.prepared.find? fun entry =>
    entry.service = service ∧ entry.law = law ∧ entry.date = date).map PreparedRule.rule

/-- The number of versions that a service has prepared. -/
def preparedCount (shared : Shared) (service : String) : Nat :=
  shared.prepared.countP fun entry => entry.service = service

end Shared

namespace Registry

/-- A registry has no tables at first. -/
def ofCatalog (catalog : Catalog) (rootDate : Date) : Registry :=
  ⟨catalog, rootDate, []⟩

/-- The services that own a version of some law. -/
def serviceNames (registry : Registry) : List String :=
  registry.catalog.services

def hasService (registry : Registry) (service : String) : Bool :=
  registry.serviceNames.contains service

/-- The tables of a service. -/
def tablesOf (registry : Registry) (service : String) : Entries Source :=
  (Entries.get? service registry.tables).getD []

/-- A table of a service is added or replaced. -/
def setTable (registry : Registry) (service table : String) (source : Source) :
    Except EvaluationError Registry :=
  if registry.hasService service then
    .ok { registry with
      tables := Entries.insert service (Entries.insert table source (registry.tablesOf service))
        registry.tables }
  else .error (.unknownService service)

/-- The tables that a registry starts with. Those of services that it does not have are passed
over. -/
def withTables (tables : List (String × String × Source)) (registry : Registry) : Registry :=
  tables.foldl (fun current (service, table, source) =>
    (current.setTable service table source).toOption.getD current) registry

/-- The version of a law that is in force on a date. -/
def version (registry : Registry) (service law : String) (date : Date) : Except EvaluationError Rule :=
  (registry.catalog.select law date service).mapError .rule

/-- The version of a law that a service evaluates on a date. It is selected once and then kept. -/
def prepare (registry : Registry) (service law : String) (date : Date) (shared : Shared) :
    Except EvaluationError Rule × Shared :=
  match shared.prepared? service law date with
  | some rule => (.ok rule, shared)
  | none =>
      match registry.version service law date with
      | .ok rule =>
          (.ok rule, { shared with prepared := ⟨service, law, date, rule⟩ :: shared.prepared })
      | .error cause => (.error cause, shared)

/-- A service evaluates one of its laws. Calls to other laws go to the provider. -/
def evaluateLaw (registry : Registry) (provider : Provider) (claims : Option ClaimLookup)
    (request : Request) (date : Date) (shared : Shared) : Except EvaluationError Outcome × Shared :=
  match registry.prepare request.service request.law date shared with
  | (.error cause, after) => (.error cause, after)
  | (.ok rule, after) =>
      rule.evaluate provider claims (registry.tablesOf request.service) request date after

/-- The registry as a provider. The fuel bounds the nesting of calls. -/
def provider (registry : Registry) (claims : Option ClaimLookup) : Nat → Provider
  | 0, _, shared => (.error .tooDeep, shared)
  | fuel + 1, request, shared =>
      if request.cancellation.isRaised shared then (.error .cancelled, shared)
      else if registry.hasService request.service then
        registry.evaluateLaw (registry.provider claims fuel) claims request
          (request.date.getD registry.rootDate) shared
      else (.error (.unknownService request.service), shared)

/-- Calls may nest as deeply as all laws, one behind the other, could make them, and further for laws
that call themselves for earlier dates. -/
def nestingLimit (registry : Registry) : Nat :=
  registry.catalog.length + 4096

/-- The answer to a request. -/
def evaluate (registry : Registry) (claims : Option ClaimLookup) : Provider :=
  registry.provider claims (registry.nestingLimit + 1)

/-- The answer of a service that the caller has looked up before. The flag of cancellation is not
checked first, and the claims about the person may be others than those of nested calls. -/
def evaluateDirectly (registry : Registry) (nested : Option ClaimLookup) (claims : ClaimLookup)
    (request : Request) (shared : Shared) : Except EvaluationError Outcome × Shared :=
  if registry.hasService request.service then
    registry.evaluateLaw (registry.evaluate nested) (some claims) request
      (request.date.getD registry.rootDate) shared
  else (.error (.unknownService request.service), shared)

end Registry

end Statute
