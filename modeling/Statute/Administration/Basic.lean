/-
This file assembles registry, claims and cases into an administration.
-/

import Statute.Administration.Configuration
import Statute.Case.Store
import Statute.Claim.Store
import Statute.Service.Registry

namespace Statute

/-- An administration evaluates laws, keeps claims and cases, and counts the events that its trigger
has handled. The sampler gives the share that each submission draws. The clock gives the moment at
which a case had the given number of events. -/
structure Administration where
  configuration : Configuration
  registry : Registry
  sampler : Nat → Double
  clock : Nat → Instant
  drawn : Nat
  claims : ClaimStore
  cases : CaseStore
  processed : Nat
  failed : Nat
  shared : Shared

/-- Work of an administration. What was done before a failure stays done. -/
abbrev Procedure (α : Type) := ExceptT CaseError (StateM Administration) α

namespace Administration

/-- An administration without claims and cases. -/
def ofCatalog (catalog : Catalog) (configuration : Configuration) (clock : Nat → Instant)
    (sampler : Nat → Double) : Administration :=
  { configuration
    registry := Registry.ofCatalog catalog (configuration.rootDate.getD (clock 0).date)
    sampler
    clock
    drawn := 0
    claims := .empty
    cases := .empty
    processed := 0
    failed := 0
    shared := .initial }

/-- An administration needs a runtime for the workers of its trigger. -/
def start (hasRuntime : Bool) (catalog : Catalog) (configuration : Configuration)
    (clock : Nat → Instant) (sampler : Nat → Double) : Except CaseError Administration :=
  if hasRuntime then .ok (ofCatalog catalog configuration clock sampler) else .error .noRuntime

/-- The tables that an administration starts with. -/
def withTables (tables : List (String × String × Source)) (administration : Administration) :
    Administration :=
  { administration with registry := administration.registry.withTables tables }

/-- A table of a service is added or replaced. -/
def setTable (service table : String) (source : Source) : Procedure Unit := do
  let administration ← get
  match administration.registry.setTable service table source with
  | .ok registry => set { administration with registry }
  | .error cause => throw (.evaluation cause)

/-- The answer to a request, with the claims as they are. -/
def evaluate (request : Request) : Procedure Outcome := do
  let administration ← get
  let (answer, shared) := administration.registry.evaluate (some administration.claims.lookup)
    request administration.shared
  set { administration with shared }
  match answer with
  | .ok outcome => return outcome
  | .error cause => throw (.evaluation cause)

variable {α : Type}

/-- A step on the cases, which a failure leaves as they are. -/
def onCases (step : CaseStore → Except CaseError (α × CaseStore)) : Procedure α := do
  let administration ← get
  match step administration.cases with
  | .ok (result, cases) =>
      set { administration with cases }
      return result
  | .error error => throw error

/-- A step on the claims, which a failure leaves as they are. -/
def onClaims (step : ClaimStore → Except CaseError (α × ClaimStore)) : Procedure α := do
  let administration ← get
  match step administration.claims with
  | .ok (result, claims) =>
      set { administration with claims }
      return result
  | .error error => throw error

/-- The result of a procedure and the administration after it. -/
def perform (procedure : Procedure α) (administration : Administration) :
    Except CaseError α × Administration :=
  procedure.run.run administration

end Administration

end Statute
