import Permit.Authorization
import Permit.Constraint.Basic
import Permit.Constraint.Check
import Permit.Constraint.Evaluation
import Permit.Constraint.Fault
import Permit.Constraint.Field
import Permit.Constraint.Wording
import Permit.Diff
import Permit.Enforcement
import Permit.Fault.Basic
import Permit.Fault.Kind
import Permit.Grant.Basic
import Permit.Grant.Cache
import Permit.Grant.Compile
import Permit.Grant.Draft
import Permit.Grant.Insert
import Permit.Grant.Wildcard
import Permit.Issue
import Permit.Keyed
import Permit.Log.Json
import Permit.Log.Level
import Permit.Log.Message.Fault
import Permit.Log.Message.Filling
import Permit.Log.Message.Placeholder
import Permit.Log.Record
import Permit.Log.Timestamp
import Permit.Log.Trace
import Permit.Metrics
import Permit.Number.Binary64
import Permit.Number.Decimal
import Permit.Number.Numeral
import Permit.Number.Places
import Permit.Number.Rounding
import Permit.Number.Text
import Permit.Path.Basic
import Permit.Path.Segment
import Permit.Pattern.Fault
import Permit.Pattern.Match
import Permit.Pattern.Reader
import Permit.Pattern.Syntax
import Permit.Projection
import Permit.Proofs.Outcome
import Permit.Proofs.Path.Segments
import Permit.Response
import Permit.Session.Basic
import Permit.Session.Compilation
import Permit.Session.Journal
import Permit.Session.Logging
import Permit.Session.Trace
import Permit.Settings.Basic
import Permit.Settings.EnvFile
import Permit.Settings.Source
import Permit.Template.Basic
import Permit.Template.Fault
import Permit.Template.Layout
import Permit.Text.Basic
import Permit.Text.Blank
import Permit.Text.Case
import Permit.Text.Digit
import Permit.Text.Letter
import Permit.Text.Printable
import Permit.Text.Quoted
import Permit.Text.Ranges
import Permit.Validation
import Permit.Value.Basic
import Permit.Value.Equality
import Permit.Value.Iteration
import Permit.Value.Plain
import Permit.Value.Quoted
import Permit.Violation
import Permit.Proofs.Grant.Shape
import Permit.Proofs.Grant.Insertion
import Permit.Proofs.Grant.Spreading
import Permit.Proofs.Grant.Compilation
import Permit.Proofs.Grant.Unmixed
import Permit.Proofs.Grant.Acceptance
import Permit.Proofs.Path.Clash
import Permit.Proofs.Grant.Alike
import Permit.Proofs.Projection.Shown
import Permit.Proofs.Projection.Cover
import Permit.Proofs.Session.Ending
import Permit.Proofs.Session.Answering
import Permit.Proofs.Session.Compilation
import Permit.Proofs.Session.Acceptance
import Permit.Proofs.Session.Restating
import Permit.Proofs.Value.Equality
import Permit.Proofs.Value.Json
import Permit.Proofs.Value.Place
import Permit.Proofs.Value.Position
import Permit.Proofs.Diff.Change
import Permit.Proofs.Diff.Silence
import Permit.Proofs.Projection.Trimmed
import Permit.Proofs.Projection.Idempotence
import Permit.Proofs.Projection.Confinement
import Permit.Proofs.Projection.Noninterference
import Permit.Proofs.Diff.Pruned
import Permit.Proofs.Diff.Softened
import Permit.Proofs.Authorization.Fields
import Permit.Proofs.Authorization.Presence
import Permit.Proofs.Authorization.Rejection
import Permit.Proofs.Authorization.Keys
import Permit.Proofs.Constraint.Resolution
import Permit.Proofs.Projection.Coverage
import Permit.Proofs.Constraint.Evaluation
import Permit.Proofs.Authorization.Query
import Permit.Proofs.Projection.Narrower
import Permit.Proofs.Session.Narrowing
import Permit.Proofs.Diff.Outline
import Permit.Proofs.Diff.Script
import Permit.Proofs.Diff.Naming
import Permit.Proofs.Authorization.Naming
import Permit.Proofs.Constraint.Index
import Permit.Proofs.Value.Oversized
import Permit.Proofs.Constraint.Totality
import Permit.Proofs.Authorization.Totality
import Permit.Proofs.Session.Freshness
import Permit.Proofs.Authorization.Conservation
import Permit.Proofs.Constraint.Rewording
import Permit.Proofs.Validation.Failure
import Permit.Proofs.Validation.Schedule
import Permit.Proofs.Session.Counting
import Permit.Proofs.Authorization.Counting
import Permit.Proofs.Authorization.Nothing
import Permit.Proofs.Enforcement
import Permit.Proofs.Constraint.Instances
import Permit.Proofs.Diff.Depth
import Permit.Proofs.Diff.Swap
import Permit.Proofs.Grant.Place
import Permit.Proofs.Grant.WellShaped
import Permit.Proofs.Text.Trimming
import Permit.Proofs.Constraint.Rendering
import Permit.Proofs.Response
import Permit.Proofs.Constraint.Trials
import Permit.Proofs.Authorization.Reporting
import Permit.Proofs.Constraint.Malformed
import Permit.Proofs.Constraint.Arguments
import Permit.Proofs.Number.Nearest
import Permit.Proofs.Number.Integer
import Permit.Proofs.Constraint.Bounds
import Permit.Proofs.Session.Failure
import Permit.Proofs.Session.Keeping
import Permit.Proofs.Value.Content
import Permit.Proofs.Session.Logging
import Permit.Proofs.Log.Grammar
import Permit.Proofs.Log.Numeral
import Permit.Proofs.Log.Encoding
import Permit.Proofs.Log.Encodable
import Permit.Proofs.Log.Line
