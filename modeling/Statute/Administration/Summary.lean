/-
This file describes the state of an administration in one line of text.
-/

import Statute.Administration.Basic
import Statute.Double.Literal

namespace Statute.Administration

/-- The cases are described by their number, the number of events and the share of samples. -/
def casesSummary (administration : Administration) : String :=
  "CaseManager \x7b cases_count: " ++ toString administration.cases.size ++ ", events_count: " ++
    toString administration.cases.events.length ++ ", sample_rate: " ++
    administration.configuration.sampleRate.literal ++ " \x7d"

/-- The claims are described by their number. -/
def claimsSummary (administration : Administration) : String :=
  "ClaimManager \x7b claims_count: " ++ toString administration.claims.size ++ " \x7d"

/-- The trigger is described by the numbers of events that it handled. -/
def triggerSummary (administration : Administration) : String :=
  "RuleTrigger \x7b stats: TriggerStats \x7b processed: " ++ toString administration.processed ++
    ", failed: " ++ toString administration.failed ++ " \x7d \x7d"

/-- The whole state. -/
def summary (administration : Administration) : String :=
  administration.casesSummary ++ " " ++ administration.claimsSummary ++ " " ++
    administration.triggerSummary

end Statute.Administration
