import Scorecard.Snapshot.Basic
import Scorecard.Decimal.Layout

/-!
# Valid snapshots

A snapshot has to name a language, count no more test results than tests and no more
documented items than items, and state coverage in percent. `Snapshot.flaw?` gives the first
of these conditions that it breaks.
-/

namespace Scorecard

/-- What makes a snapshot invalid. -/
inductive SnapshotFlaw
  | emptyLanguage
  | tooManyResults (passed failed skipped total : UInt64)
  /-- A share that is not in percent; `field` names it. -/
  | noPercentage (field : String) (value : Float)
  | tooManyDocumented (documented total : UInt64)
  deriving DecidableEq

/-- The wording of a flaw. -/
def SnapshotFlaw.message : SnapshotFlaw → String
  | emptyLanguage => "snapshot language must not be empty"
  | tooManyResults passed failed skipped total =>
    "test counts are inconsistent: passed " ++ toString passed ++ " + failed "
      ++ toString failed ++ " + skipped " ++ toString skipped ++ " > total " ++ toString total
  | noPercentage field value =>
    field ++ " must be a finite percentage in [0, 100], got " ++ Decimal.plain value
  | tooManyDocumented documented total =>
    "documented items (" ++ toString documented ++ ") exceed total items (" ++ toString total
      ++ ")"

/-- Whether the number lies between `0` and `bound`. -/
def liesWithin (bound x : Float) : Bool := x.isFinite && decide (0 ≤ x) && decide (x ≤ bound)

/-- The number of test results, up to the greatest count. -/
def TestReport.accounted (r : TestReport) : UInt64 :=
  cappedSum (cappedSum r.passed r.failed) r.skipped

/-- The flaw of the test counts, if they have one. -/
def TestReport.flaw? (r : TestReport) : Option SnapshotFlaw :=
  if r.total < r.accounted then some (.tooManyResults r.passed r.failed r.skipped r.total)
  else none

/-- The flaw of a share that has to be in percent. -/
def percentageFlaw? (field : String) (x : Float) : Option SnapshotFlaw :=
  if liesWithin 100 x then none else some (.noPercentage field x)

/-- The flaw of the coverage, if it has one. -/
def CoverageReport.flaw? (r : CoverageReport) : Option SnapshotFlaw :=
  percentageFlaw? "coverage.line_percent" r.linePercent
    <|> r.branchPercent.bind (percentageFlaw? "coverage.branch_percent")

/-- The flaw of the item counts, if they have one. -/
def DocumentationReport.flaw? (r : DocumentationReport) : Option SnapshotFlaw :=
  if r.totalItems < r.documentedItems then
    some (.tooManyDocumented r.documentedItems r.totalItems)
  else none

/-- The first flaw of a snapshot. -/
def Snapshot.flaw? (s : Snapshot) : Option SnapshotFlaw :=
  (if Text.isBlankText s.language then some .emptyLanguage else none)
    <|> s.tests.bind TestReport.flaw?
    <|> s.coverage.bind CoverageReport.flaw?
    <|> s.documentation.bind DocumentationReport.flaw?

end Scorecard
