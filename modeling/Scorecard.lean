import Scorecard.Calendar
import Scorecard.Decimal.Binary
import Scorecard.Decimal.Layout
import Scorecard.Decimal.Reading
import Scorecard.Decimal.Shortest
import Scorecard.Decode.Basic
import Scorecard.Decode.Fault
import Scorecard.Decode.Record
import Scorecard.Engine.Basic
import Scorecard.Engine.Config
import Scorecard.Evaluation.Basic
import Scorecard.Evaluation.Error
import Scorecard.Evidence.Basic
import Scorecard.Evidence.Manifest
import Scorecard.Failure
import Scorecard.Grading.Confidence
import Scorecard.Grading.Dimension
import Scorecard.Grading.Letter
import Scorecard.Grading.Status
import Scorecard.Journal.Basic
import Scorecard.Journal.Event
import Scorecard.Json.Basic
import Scorecard.Json.Form
import Scorecard.Json.Numeral
import Scorecard.Json.Printer
import Scorecard.Json.Quoted
import Scorecard.Json.Reader
import Scorecard.Json.Token
import Scorecard.Outcome
import Scorecard.Proofs.Accounts
import Scorecard.Proofs.Agreement
import Scorecard.Proofs.Answers
import Scorecard.Proofs.Balance
import Scorecard.Proofs.Bands
import Scorecard.Proofs.Binary64.Extended
import Scorecard.Proofs.Binary64.Mantissa
import Scorecard.Proofs.Binary64.Nearest
import Scorecard.Proofs.Binary64.Operations
import Scorecard.Proofs.Binary64.Order
import Scorecard.Proofs.Binary64.Packing
import Scorecard.Proofs.Binary64.Rounding
import Scorecard.Proofs.Binary64.Scaling
import Scorecard.Proofs.Binary64.Whole
import Scorecard.Proofs.Binary64.Worth
import Scorecard.Proofs.Breakdowns
import Scorecard.Proofs.Components
import Scorecard.Proofs.Containment
import Scorecard.Proofs.Crew
import Scorecard.Proofs.Decimal.Shortest
import Scorecard.Proofs.Decode
import Scorecard.Proofs.Disk
import Scorecard.Proofs.Engine
import Scorecard.Proofs.Evaluation
import Scorecard.Proofs.EvaluationCourses
import Scorecard.Proofs.Except
import Scorecard.Proofs.Failing
import Scorecard.Proofs.Findings
import Scorecard.Proofs.Footprint
import Scorecard.Proofs.Grading
import Scorecard.Proofs.Identity
import Scorecard.Proofs.Improvement
import Scorecard.Proofs.Index
import Scorecard.Proofs.Interleaving
import Scorecard.Proofs.Journal
import Scorecard.Proofs.Json.Canonical
import Scorecard.Proofs.Json.Numeral
import Scorecard.Proofs.Json.Parse
import Scorecard.Proofs.Json.Real
import Scorecard.Proofs.Json.Scan
import Scorecard.Proofs.Leftovers
import Scorecard.Proofs.Lists
import Scorecard.Proofs.Locality
import Scorecard.Proofs.MissingData
import Scorecard.Proofs.Moved
import Scorecard.Proofs.Nesting
import Scorecard.Proofs.Normal
import Scorecard.Proofs.Ordinary
import Scorecard.Proofs.Overrides
import Scorecard.Proofs.Parameters
import Scorecard.Proofs.Partition
import Scorecard.Proofs.Path
import Scorecard.Proofs.PathTraversal
import Scorecard.Proofs.Percentage
import Scorecard.Proofs.Persist
import Scorecard.Proofs.Placement
import Scorecard.Proofs.Points
import Scorecard.Proofs.Publish
import Scorecard.Proofs.Reconcile
import Scorecard.Proofs.Records
import Scorecard.Proofs.References
import Scorecard.Proofs.Refusal
import Scorecard.Proofs.Repetition
import Scorecard.Proofs.Reports
import Scorecard.Proofs.Reread
import Scorecard.Proofs.Restore
import Scorecard.Proofs.Rubric
import Scorecard.Proofs.ScoreFile
import Scorecard.Proofs.Sections
import Scorecard.Proofs.Snapshot
import Scorecard.Proofs.Table
import Scorecard.Proofs.Tally
import Scorecard.Proofs.Target
import Scorecard.Proofs.TaskIdempotence
import Scorecard.Proofs.TaskIsolation
import Scorecard.Proofs.Threshold
import Scorecard.Proofs.Totality
import Scorecard.Proofs.Trace
import Scorecard.Proofs.Turns
import Scorecard.Proofs.Twins
import Scorecard.Proofs.Validity
import Scorecard.Proofs.Verdict
import Scorecard.Proofs.Volume
import Scorecard.Proofs.Write
import Scorecard.Proofs.Writing
import Scorecard.Rubric.Basic
import Scorecard.Rubric.Document
import Scorecard.Rubric.Issues
import Scorecard.Rubric.Load
import Scorecard.Rubric.Standard
import Scorecard.Rule.ApiDocs
import Scorecard.Rule.Audit
import Scorecard.Rule.Basic
import Scorecard.Rule.Build
import Scorecard.Rule.Coverage
import Scorecard.Rule.Defect
import Scorecard.Rule.Lint
import Scorecard.Rule.Metric
import Scorecard.Rule.MetricThreshold
import Scorecard.Rule.ProjectFiles
import Scorecard.Rule.Readme
import Scorecard.Rule.Registry
import Scorecard.Rule.Tests
import Scorecard.Score.Basic
import Scorecard.Score.Codec
import Scorecard.Score.File
import Scorecard.Score.Publish
import Scorecard.Score.Summary
import Scorecard.Sha256
import Scorecard.Snapshot.Basic
import Scorecard.Snapshot.Codec
import Scorecard.Snapshot.Validity
import Scorecard.Store.Error
import Scorecard.Store.Index
import Scorecard.Store.Persist
import Scorecard.Store.Record
import Scorecard.Store.Stamp
import Scorecard.Store.Target
import Scorecard.Store.Timestamp
import Scorecard.Table
import Scorecard.Text.Basic
import Scorecard.Text.Hidden
import Scorecard.Text.Quoted
import Scorecard.Toml.Date
import Scorecard.Toml.Document
import Scorecard.Toml.Entries
import Scorecard.Toml.Number
import Scorecard.Toml.Quoted
import Scorecard.Toml.Scanner
import Scorecard.Toml.Value
import Scorecard.Volume.Access
import Scorecard.Volume.Basic
import Scorecard.Volume.Disk
import Scorecard.Volume.FileSystem
import Scorecard.Volume.Path
import Scorecard.Volume.Write
