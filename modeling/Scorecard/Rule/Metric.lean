import Scorecard.Snapshot.Basic
import Scorecard.Decode.Basic

/-!
# Metrics

A metric is one number of a snapshot. It can be graded in either direction.
-/

namespace Scorecard

/-- One number of a snapshot. -/
inductive Metric
  | lintIssues
  | lintErrors
  | lintWarnings
  | buildWarnings
  | vulnerabilities
  | testPassRate
  | testCount
  | lineCoverage
  | branchCoverage
  | documentedShare
  deriving DecidableEq, Repr

namespace Metric

/-- All metrics. -/
def all : List Metric :=
  [lintIssues, lintErrors, lintWarnings, buildWarnings, vulnerabilities, testPassRate, testCount,
    lineCoverage, branchCoverage, documentedShare]

/-- The name in documents and messages. -/
def name : Metric → String
  | lintIssues => "lint.issue_count"
  | lintErrors => "lint.error_count"
  | lintWarnings => "lint.warning_count"
  | buildWarnings => "build.warning_count"
  | vulnerabilities => "dependency_audit.total"
  | testPassRate => "tests.pass_rate"
  | testCount => "tests.total"
  | lineCoverage => "coverage.line_percent"
  | branchCoverage => "coverage.branch_percent"
  | documentedShare => "documentation.api_doc_ratio"

/-- What is said to be unavailable when there is no number. -/
def category : Metric → String
  | lintIssues | lintErrors | lintWarnings => "lint"
  | buildWarnings => "build"
  | vulnerabilities => "dependency audit"
  | testPassRate | testCount => "test execution"
  | lineCoverage | branchCoverage => "coverage"
  | documentedShare => "documentation"

/-- The number, if the snapshot has it. -/
def read? (m : Metric) (s : Snapshot) : Option Float :=
  match m with
  | lintIssues => s.lint.map fun r => (cappedSum r.errorCount r.warningCount).toFloat
  | lintErrors => s.lint.map (·.errorCount.toFloat)
  | lintWarnings => s.lint.map (·.warningCount.toFloat)
  | buildWarnings => s.build.map (·.warningCount.toFloat)
  | vulnerabilities => s.dependencyAudit.map (·.total.toFloat)
  | testPassRate => s.tests.bind (·.passRate?)
  | testCount => s.tests.map (·.total.toFloat)
  | lineCoverage => s.coverage.map (·.linePercent)
  | branchCoverage => s.coverage.bind (·.branchPercent)
  | documentedShare => s.documentation.bind (·.ratio?)

/-- The metrics by their names. -/
def variants : List (String × Metric) := all.map fun m => (m.name, m)

/-- Reads a metric. -/
def decode : Decode.Decoder Metric := Decode.variant variants

end Metric

/-! ### Thresholds -/

/-- How far a number may miss a threshold and still count as reaching it. -/
def thresholdSlack : Float := 1e-9

/-- Whether the number reaches the threshold from below. -/
def atLeast (x threshold : Float) : Bool := threshold ≤ x + thresholdSlack

/-- Whether the number stays under the threshold. -/
def atMost (x threshold : Float) : Bool := x - thresholdSlack ≤ threshold

/-- On which side of a threshold the good numbers lie. -/
inductive Direction
  | atLeast
  | atMost
  deriving DecidableEq, Repr

namespace Direction

/-- Whether the number lies on the good side of the threshold. -/
def passes (d : Direction) (x threshold : Float) : Bool :=
  match d with
  | .atLeast => Scorecard.atLeast x threshold
  | .atMost => Scorecard.atMost x threshold

/-- The sign in summaries. -/
def sign : Direction → String
  | atLeast => ">="
  | atMost => "<="

/-- The name in documents. -/
def key : Direction → String
  | atLeast => "at_least"
  | atMost => "at_most"

/-- The name in messages. -/
def label : Direction → String
  | atLeast => "AtLeast"
  | atMost => "AtMost"

/-- The directions by their names. -/
def variants : List (String × Direction) := [atLeast, atMost].map fun d => (d.key, d)

/-- Reads a direction. -/
def decode : Decode.Decoder Direction := Decode.variant variants

end Direction

end Scorecard
