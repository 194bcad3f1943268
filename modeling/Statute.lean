import Statute.Administration.Basic
import Statute.Administration.Cases
import Statute.Administration.Claims
import Statute.Administration.Configuration
import Statute.Administration.Summary
import Statute.Administration.Trigger
import Statute.Association
import Statute.Case.Agreement
import Statute.Case.Basic
import Statute.Case.Document
import Statute.Case.Error
import Statute.Case.Event
import Statute.Case.Identifier
import Statute.Case.Remedy
import Statute.Case.Status
import Statute.Case.Store
import Statute.Claim.Basic
import Statute.Claim.Store
import Statute.Date.Basic
import Statute.Date.Instant
import Statute.Date.Text
import Statute.Document.Basic
import Statute.Document.Fields
import Statute.Document.Number
import Statute.Document.Reader
import Statute.Document.Text
import Statute.Document.Writer
import Statute.Double.Basic
import Statute.Double.Decimal
import Statute.Double.Literal
import Statute.Entries
import Statute.Evaluation.Aggregate
import Statute.Evaluation.Call
import Statute.Evaluation.Context
import Statute.Evaluation.Error
import Statute.Evaluation.Expr
import Statute.Evaluation.Operation
import Statute.Evaluation.Request
import Statute.Evaluation.Requirement
import Statute.Evaluation.Resolution
import Statute.Evaluation.Rule
import Statute.Evaluation.Selection
import Statute.Proofs.Administration.Run
import Statute.Proofs.Administration.Submission
import Statute.Proofs.Case.Log
import Statute.Proofs.Case.Replay
import Statute.Proofs.Case.Updates
import Statute.Proofs.Collections
import Statute.Proofs.Date.Text
import Statute.Proofs.Evaluation.Actions
import Statute.Proofs.Evaluation.Calls
import Statute.Proofs.Evaluation.Congruence
import Statute.Proofs.Evaluation.Frame
import Statute.Proofs.Evaluation.Isolation
import Statute.Proofs.Evaluation.Lookup
import Statute.Proofs.Evaluation.Memo
import Statute.Proofs.Evaluation.Notes
import Statute.Proofs.Evaluation.Outcome
import Statute.Proofs.Evaluation.Requested
import Statute.Proofs.Evaluation.Run
import Statute.Proofs.Evaluation.Simulation
import Statute.Proofs.Evaluation.Stage
import Statute.Proofs.Rule.ActionOrder
import Statute.Rule.Action
import Statute.Rule.ActionOrder
import Statute.Rule.Basic
import Statute.Rule.Catalog
import Statute.Rule.Constraint
import Statute.Rule.Declaration
import Statute.Rule.Error
import Statute.Rule.Expr.Basic
import Statute.Rule.Expr.Document
import Statute.Rule.Operator
import Statute.Rule.Path
import Statute.Rule.Property
import Statute.Rule.Requirement
import Statute.Service.Registry
import Statute.Service.Summary
import Statute.Table.Basic
import Statute.Table.Source
import Statute.Text.Blank
import Statute.Text.Hidden
import Statute.Text.Identifier
import Statute.Text.Quoted
import Statute.Trace.Basic
import Statute.Trace.Document
import Statute.Trace.ValueTree
import Statute.Value.Basic
import Statute.Value.Document
import Statute.Value.Format
import Statute.Value.Order
import Statute.Proofs.Claim.History
import Statute.Proofs.Claim.Queries
import Statute.Proofs.Evaluation.Delegation
import Statute.Proofs.Claim.Assertions
import Statute.Proofs.Administration.ClaimIndependence
import Statute.Proofs.Evaluation.Tracing
import Statute.Proofs.Evaluation.RuleTrace
import Statute.Proofs.Evaluation.MissingValues
import Statute.Proofs.Evaluation.RuleCongruence
import Statute.Proofs.Evaluation.Sharing
import Statute.Proofs.Evaluation.Cancellation
import Statute.Proofs.Case.Integrity
import Statute.Proofs.Administration.Lifecycle
import Statute.Proofs.Administration.Atomicity
import Statute.Proofs.Administration.Reaction
import Statute.Proofs.Evaluation.Preparation
import Statute.Proofs.Case.Determination
import Statute.Proofs.Administration.WriteBack
import Statute.Proofs.Administration.Locality
import Statute.Proofs.Administration.Backlog
import Statute.Proofs.Rule.EventGraph
import Statute.Proofs.Administration.Lanes
import Statute.Proofs.Administration.Queue
import Statute.Proofs.Case.Attachment
import Statute.Proofs.Administration.Attachment
import Statute.Proofs.Evaluation.Errors
import Statute.Proofs.Ranking
import Statute.Proofs.Rule.Path
import Statute.Proofs.Evaluation.Nesting
import Statute.Proofs.Evaluation.Termination
import Statute.Proofs.Evaluation.Declarations
import Statute.Proofs.Evaluation.RequiredValues
import Statute.Proofs.Rule.Reading
import Statute.Proofs.Date.Reading
import Statute.Proofs.Document.Finite
import Statute.Proofs.Document.Settling
import Statute.Proofs.Document.Roundtrip
import Statute.Proofs.Rule.ExprRoundtrip
import Statute.Proofs.Rule.Roundtrip
import Statute.Proofs.Rule.Malformed
import Statute.Proofs.Rule.ExecutionOrder
import Statute.Proofs.Service.History
import Statute.Proofs.Evaluation.References
import Statute.Proofs.Evaluation.Effect
import Statute.Proofs.Claim.Precedence
import Statute.Proofs.Evaluation.Visibility
import Statute.Proofs.Evaluation.Formula
import Statute.Proofs.Evaluation.Iteration
import Statute.Proofs.Administration.Resubmission
import Statute.Proofs.Date.Order
import Statute.Proofs.Rule.Versions
import Statute.Proofs.Evaluation.Arithmetic
import Statute.Proofs.Evaluation.Columns
import Statute.Proofs.Evaluation.OperandOrder
import Statute.Proofs.Value.Order
import Statute.Proofs.Evaluation.Extremum
import Statute.Proofs.Double.Rounding
import Statute.Proofs.Double.Order
import Statute.Proofs.Double.Monotone
import Statute.Proofs.Double.Places
import Statute.Proofs.Value.Conversion
import Statute.Proofs.Value.Equality
import Statute.Proofs.Evaluation.Comparison
import Statute.Proofs.Rule.Bounds
import Statute.Proofs.Double.Whole
import Statute.Proofs.Rule.Integers
import Statute.Proofs.Case.Agreement
import Statute.Proofs.Administration.Agreement
import Statute.Proofs.Evaluation.Selection
import Statute.Proofs.Evaluation.Membership
import Statute.Proofs.Date.Rendering
import Statute.Proofs.Date.Differences
import Statute.Proofs.Trace.ValueTree
import Statute.Proofs.Rule.Circularity
