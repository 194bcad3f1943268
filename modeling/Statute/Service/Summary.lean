/-
This file describes registries and their services in one line of text.
-/

import Statute.Service.Registry
import Statute.Text.Quoted

namespace Statute

/-- Quoted names in brackets. -/
def quotedList (names : List String) : String :=
  "[" ++ String.intercalate ", " (names.map Text.quoted) ++ "]"

namespace Registry

/-- A service is described by its name, the number of its prepared versions and its tables. -/
def serviceSummary? (registry : Registry) (shared : Shared) (service : String) : Option String :=
  if registry.hasService service then
    some ("RuleService \x7b service_name: " ++ Text.quoted service ++ ", cached_evaluators: " ++
      toString (shared.preparedCount service) ++ ", sources: " ++
      quotedList (Entries.keys (registry.tablesOf service)) ++ " \x7d")
  else none

/-- A registry is described by its services, its date, and whether it consults claims. -/
def summary (registry : Registry) (consultsClaims : Bool) : String :=
  "Services \x7b services: " ++ quotedList registry.serviceNames ++
    ", root_reference_date: CalculationDate(" ++ registry.rootDate.text ++ "), claims: " ++
    (if consultsClaims then "true" else "false") ++ " \x7d"

end Registry

end Statute
