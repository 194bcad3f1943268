/-
This file names cases and claims, and the matters that they are about.
-/

namespace Statute

/-- Cases are numbered in the order in which they are created. -/
structure CaseId where
  number : Nat
  deriving DecidableEq, Repr

/-- Claims are numbered in the order in which they are first filed. -/
structure ClaimId where
  number : Nat
  deriving DecidableEq, Repr

/-- A matter is what one person has to do with one law of one service. -/
structure Matter where
  person : String
  service : String
  law : String
  deriving DecidableEq, Repr

namespace CaseId

def text (id : CaseId) : String :=
  "case-" ++ toString id.number

end CaseId

namespace ClaimId

def text (id : ClaimId) : String :=
  "claim-" ++ toString id.number

end ClaimId

end Statute
