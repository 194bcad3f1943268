/-
This file lists what can be wrong with tables and rules.
-/

namespace Statute

/-- The reasons for which a table refuses a query. -/
inductive SourceError
  | unknownOperator (operator : String)
  | expectedList (operator column : String)
  deriving DecidableEq, Repr

namespace SourceError

/-- The name of an error's kind. -/
def kind : SourceError → String
  | unknownOperator _ => "UnknownOperator"
  | expectedList _ _ => "ExpectedList"

def message : SourceError → String
  | unknownOperator operator => "unknown filter operator: " ++ operator
  | expectedList operator column =>
      "operator " ++ operator ++ " on column " ++ column ++ " requires a list operand"

end SourceError

/-- The reasons for which a rule or a catalog of rules is unusable. -/
inductive RuleError
  | unknownOperation (operation : String)
  | malformedOperation (operation reason : String)
  | emptyAction (output : String)
  | circularDependency (output : String)
  | noApplicableVersion (law service date : String)
  | serviceMismatch (law expected found : String)
  | unknownUpdateMethod (method : String)
  | source (cause : SourceError)
  deriving DecidableEq, Repr

namespace RuleError

/-- The name of an error's kind. -/
def kind : RuleError → String
  | unknownOperation _ => "UnknownOperation"
  | malformedOperation _ _ => "MalformedOperation"
  | emptyAction _ => "EmptyAction"
  | circularDependency _ => "CircularDependency"
  | noApplicableVersion _ _ _ => "NoApplicableVersion"
  | serviceMismatch _ _ _ => "ServiceMismatch"
  | unknownUpdateMethod _ => "UnknownUpdateMethod"
  | source cause => "Source." ++ cause.kind

def message : RuleError → String
  | unknownOperation operation => "unknown operation: " ++ operation
  | malformedOperation operation reason => "malformed " ++ operation ++ " operation: " ++ reason
  | emptyAction output => "action for output " ++ output ++ " has neither a value nor an operation"
  | circularDependency output => "circular dependency between outputs involving " ++ output
  | noApplicableVersion law service date =>
      "no rule specification for law " ++ law ++ " in service " ++ service ++ " is valid on " ++ date
  | serviceMismatch law expected found =>
      "rule specification for law " ++ law ++ " belongs to service " ++ found ++ ", not " ++ expected
  | unknownUpdateMethod method => "unknown update method: " ++ method
  | source cause => "data source error: " ++ cause.message

end RuleError

end Statute
