import Scorecard.Text.Basic

/-!
# Snapshots

A snapshot holds what the tools measured of a repository: one report for each category, or
none where the tool did not run or produced no result.

* `cappedSum`: counts are added up to the greatest one.
-/

namespace Scorecard

/-- The sum of two counts, or the greatest count where the sum lies beyond it. -/
def cappedSum (a b : UInt64) : UInt64 :=
  if a.toNat + b.toNat < UInt64.size then a + b else 0xFFFFFFFFFFFFFFFF

/-- The share of `part` in `whole`; none of nothing. -/
def ratio? (part whole : UInt64) : Option Float :=
  if whole = 0 then none else some (part.toFloat / whole.toFloat)

/-- How serious a linter's finding is. -/
inductive FindingSeverity
  | error
  | warning
  | info
  deriving DecidableEq, Repr

/-- What a linter found at one place. -/
structure LintFinding where
  path : Option String
  line : Option UInt32
  rule : Option String
  message : String
  severity : FindingSeverity
  deriving DecidableEq, Repr

/-- What a linter found. -/
structure LintReport where
  tool : String
  errorCount : UInt64
  warningCount : UInt64
  findings : List LintFinding
  deriving DecidableEq, Repr

/-- How the build went. -/
structure BuildReport where
  tool : String
  success : Bool
  warningCount : UInt64
  outputExcerpt : Option String
  deriving DecidableEq, Repr

/-- How serious a vulnerability is. -/
inductive Vulnerability
  | low
  | medium
  | high
  | critical
  deriving DecidableEq, Repr

namespace Vulnerability

/-- The levels from the least serious one up. -/
def all : List Vulnerability := [low, medium, high, critical]

/-- The position among the levels. -/
def rank : Vulnerability → Nat
  | low => 0
  | medium => 1
  | high => 2
  | critical => 3

end Vulnerability

/-- The known vulnerabilities of the dependencies, by their level. -/
structure AuditReport where
  tool : String
  critical : UInt64
  high : UInt64
  medium : UInt64
  low : UInt64
  deriving DecidableEq, Repr

namespace AuditReport

/-- The number of vulnerabilities of a level. -/
def ofLevel (r : AuditReport) : Vulnerability → UInt64
  | .low => r.low
  | .medium => r.medium
  | .high => r.high
  | .critical => r.critical

/-- The number of vulnerabilities of a level or a more serious one. -/
def countFrom (r : AuditReport) (level : Vulnerability) : UInt64 :=
  ((Vulnerability.all.filter fun v => level.rank ≤ v.rank).map r.ofLevel).foldl (· + ·) 0

/-- The number of all vulnerabilities. -/
def total (r : AuditReport) : UInt64 := r.countFrom .low

end AuditReport

/-- How the tests went. -/
structure TestReport where
  framework : String
  total : UInt64
  passed : UInt64
  failed : UInt64
  skipped : UInt64
  deriving DecidableEq, Repr

/-- The share of tests that passed; none without tests. -/
def TestReport.passRate? (r : TestReport) : Option Float := ratio? r.passed r.total

/-- How much of the code the tests reach. -/
structure CoverageReport where
  tool : String
  linePercent : Float
  branchPercent : Option Float

/-- What documentation there is. -/
structure DocumentationReport where
  readmePresent : Bool
  readmeSections : List String
  documentedItems : UInt64
  totalItems : UInt64
  hasLicense : Bool
  hasContributing : Bool
  hasChangelog : Bool
  deriving DecidableEq, Repr

/-- The share of public items with documentation; none without items. -/
def DocumentationReport.ratio? (r : DocumentationReport) : Option Float :=
  Scorecard.ratio? r.documentedItems r.totalItems

/-- What the tools measured of a repository. -/
structure Snapshot where
  language : String
  lint : Option LintReport
  build : Option BuildReport
  dependencyAudit : Option AuditReport
  tests : Option TestReport
  coverage : Option CoverageReport
  documentation : Option DocumentationReport

/-- The normal form of the snapshot's language. -/
def Snapshot.normalLanguage (s : Snapshot) : String := Text.normal s.language

end Scorecard
