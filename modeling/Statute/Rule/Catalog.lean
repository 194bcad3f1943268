/-
This file selects the version of a law that is in force on a date.
-/

import Statute.Rule.Basic

namespace Statute

/-- A catalog keeps the versions of each law in the order of the dates from which they are valid.
Versions that are valid from the same date keep the order in which they were added. -/
abbrev Catalog := Entries (List Rule)

namespace Catalog

/-- A version goes behind all versions that are valid from its date or before. -/
def insertVersion (rule : Rule) : List Rule → List Rule
  | [] => [rule]
  | first :: rest =>
      if rule.validFrom.isBefore first.validFrom then rule :: first :: rest
      else first :: insertVersion rule rest

/-- The catalog with one more version. -/
def insert (catalog : Catalog) (rule : Rule) : Catalog :=
  Entries.insert rule.law (insertVersion rule ((Entries.get? rule.law catalog).getD [])) catalog

/-- The catalog of rules that are added from first to last. -/
def ofRules (rules : List Rule) : Catalog :=
  rules.foldl insert []

/-- All versions, law by law. -/
def rules (catalog : Catalog) : List Rule :=
  catalog.flatMap Prod.snd

/-- The last version of a law that is valid from the date or before. -/
def version? (catalog : Catalog) (law : String) (date : Date) : Option Rule :=
  ((Entries.get? law catalog).getD []).reverse.find? fun rule => rule.validFrom.isAtMost date

/-- The version in force, which must belong to the service that asks for it. -/
def select (catalog : Catalog) (law : String) (date : Date) (service : String) :
    Except RuleError Rule :=
  match catalog.version? law date with
  | none => .error (.noApplicableVersion law service date.text)
  | some rule =>
      if rule.service = service then .ok rule
      else .error (.serviceMismatch law service rule.service)

/-- The services that own a version, in order. -/
def services (catalog : Catalog) : List String :=
  catalog.rules.foldl (fun names rule => Entries.insertName rule.service names) []

/-- The laws of each service that an audience can discover. -/
def discoverable (catalog : Catalog) (audience : String) : Entries (List String) :=
  catalog.rules.foldl
    (fun found rule =>
      if rule.discoverable = some audience then
        Entries.insert rule.service
          (Entries.insertName rule.law ((Entries.get? rule.service found).getD [])) found
      else found)
    []

/-- Every declaration that matches an event, with the version that contains it. -/
def matching (catalog : Catalog) (eventType : String) (data : Record) : List (Rule × Declaration) :=
  catalog.rules.flatMap fun rule =>
    (rule.properties.declarations.filter fun declaration => declaration.isMatch eventType data).map
      fun declaration => (rule, declaration)

end Catalog

end Statute
