import Scorecard.Snapshot.Validity
import Scorecard.Decode.Record

/-!
# Snapshots as documents

A snapshot's document has to name every category, be it as `null`. It is read in three steps:
the names are looked for, the reports are decoded, and the snapshot is checked for flaws.

* `Snapshot.ofJson`, `Snapshot.ofText`: reading with all three steps.
* `Snapshot.toJson`: writing.
-/

namespace Scorecard

open Decode

/-! ### Reports -/

/-- The severities of findings by their names. -/
def FindingSeverity.variants : List (String × FindingSeverity) :=
  [("error", .error), ("warning", .warning), ("info", .info)]

/-- The name of a severity. -/
def FindingSeverity.name : FindingSeverity → String
  | error => "error"
  | warning => "warning"
  | info => "info"

/-- The levels of vulnerabilities by their names. -/
def Vulnerability.variants : List (String × Vulnerability) :=
  [("low", .low), ("medium", .medium), ("high", .high), ("critical", .critical)]

/-- The name of a level. -/
def Vulnerability.name : Vulnerability → String
  | low => "low"
  | medium => "medium"
  | high => "high"
  | critical => "critical"

/-- Reads a finding. -/
def LintFinding.decode : Decoder LintFinding :=
  Record.decode
    (Record.make LintFinding.mk
      |>.defaulted "path" (optional string) none
      |>.defaulted "line" (optional word) none
      |>.defaulted "rule" (optional string) none
      |>.required "message" string
      |>.required "severity" (variant FindingSeverity.variants))
    "LintIssue" false

/-- The finding as a document. -/
def LintFinding.toJson (r : LintFinding) : Json :=
  .obj [
    ("path", .ofOption .str r.path),
    ("line", .ofOption (fun n => .ofNat n.toNat) r.line),
    ("rule", .ofOption .str r.rule),
    ("message", .str r.message),
    ("severity", .str r.severity.name)]

/-- Reads a linter's report. -/
def LintReport.decode : Decoder LintReport :=
  Record.decode
    (Record.make LintReport.mk
      |>.required "tool" string
      |>.required "error_count" count
      |>.required "warning_count" count
      |>.defaulted "issues" (list LintFinding.decode) [])
    "LintReport" false

/-- A linter's report as a document. -/
def LintReport.toJson (r : LintReport) : Json :=
  .obj [
    ("tool", .str r.tool),
    ("error_count", .ofUInt64 r.errorCount),
    ("warning_count", .ofUInt64 r.warningCount),
    ("issues", .ofList LintFinding.toJson r.findings)]

/-- Reads a build's report. -/
def BuildReport.decode : Decoder BuildReport :=
  Record.decode
    (Record.make BuildReport.mk
      |>.required "tool" string
      |>.required "success" boolean
      |>.defaulted "warning_count" count 0
      |>.defaulted "output_excerpt" (optional string) none)
    "BuildReport" false

/-- A build's report as a document. -/
def BuildReport.toJson (r : BuildReport) : Json :=
  .obj [
    ("tool", .str r.tool),
    ("success", .bool r.success),
    ("warning_count", .ofUInt64 r.warningCount),
    ("output_excerpt", .ofOption .str r.outputExcerpt)]

/-- Reads an audit's report. -/
def AuditReport.decode : Decoder AuditReport :=
  Record.decode
    (Record.make AuditReport.mk
      |>.required "tool" string
      |>.defaulted "critical" count 0
      |>.defaulted "high" count 0
      |>.defaulted "medium" count 0
      |>.defaulted "low" count 0)
    "AuditReport" false

/-- An audit's report as a document. -/
def AuditReport.toJson (r : AuditReport) : Json :=
  .obj [
    ("tool", .str r.tool),
    ("critical", .ofUInt64 r.critical),
    ("high", .ofUInt64 r.high),
    ("medium", .ofUInt64 r.medium),
    ("low", .ofUInt64 r.low)]

/-- Reads the tests' report. -/
def TestReport.decode : Decoder TestReport :=
  Record.decode
    (Record.make TestReport.mk
      |>.required "framework" string
      |>.required "total" count
      |>.required "passed" count
      |>.required "failed" count
      |>.defaulted "skipped" count 0)
    "TestReport" false

/-- The tests' report as a document. -/
def TestReport.toJson (r : TestReport) : Json :=
  .obj [
    ("framework", .str r.framework),
    ("total", .ofUInt64 r.total),
    ("passed", .ofUInt64 r.passed),
    ("failed", .ofUInt64 r.failed),
    ("skipped", .ofUInt64 r.skipped)]

/-- Reads the coverage's report. -/
def CoverageReport.decode : Decoder CoverageReport :=
  Record.decode
    (Record.make CoverageReport.mk
      |>.required "tool" string
      |>.required "line_percent" float
      |>.defaulted "branch_percent" (optional float) none)
    "CoverageReport" false

/-- The coverage's report as a document. -/
def CoverageReport.toJson (r : CoverageReport) : Json :=
  .obj [
    ("tool", .str r.tool),
    ("line_percent", .ofFloat r.linePercent),
    ("branch_percent", .ofOption .ofFloat r.branchPercent)]

/-- Reads the documentation's report. -/
def DocumentationReport.decode : Decoder DocumentationReport :=
  Record.decode
    (Record.make DocumentationReport.mk
      |>.required "readme_present" boolean
      |>.defaulted "readme_sections" (list string) []
      |>.required "documented_items" count
      |>.required "total_items" count
      |>.defaulted "has_license" boolean false
      |>.defaulted "has_contributing" boolean false
      |>.defaulted "has_changelog" boolean false)
    "DocumentationReport" false

/-- The documentation's report as a document. -/
def DocumentationReport.toJson (r : DocumentationReport) : Json :=
  .obj [
    ("readme_present", .bool r.readmePresent),
    ("readme_sections", .ofList .str r.readmeSections),
    ("documented_items", .ofUInt64 r.documentedItems),
    ("total_items", .ofUInt64 r.totalItems),
    ("has_license", .bool r.hasLicense),
    ("has_contributing", .bool r.hasContributing),
    ("has_changelog", .bool r.hasChangelog)]

/-! ### Snapshots -/

/-- Why a document holds no snapshot. -/
inductive SnapshotError
  | noObject
  | missingKey (key : String)
  | malformed (m : Misreading)
  | flawed (flaw : SnapshotFlaw)
  deriving DecidableEq

/-- The wording of an error. -/
def SnapshotError.message : SnapshotError → String
  | noObject => "snapshot must be a JSON object"
  | missingKey key => "snapshot is missing required key: " ++ key
  | malformed m => "malformed snapshot: " ++ m.words
  | flawed flaw => flaw.message

namespace Snapshot

/-- Reads a snapshot without checking it for flaws; a category left out counts as `null`. -/
def decode : Decoder Snapshot :=
  Record.decode
    (Record.make Snapshot.mk
      |>.required "language" string
      |>.nullable "lint" LintReport.decode
      |>.nullable "build" BuildReport.decode
      |>.nullable "dependency_audit" AuditReport.decode
      |>.nullable "tests" TestReport.decode
      |>.nullable "coverage" CoverageReport.decode
      |>.nullable "documentation" DocumentationReport.decode)
    "MetricsSnapshot" false

/-- The snapshot as a document. -/
def toJson (s : Snapshot) : Json :=
  .obj [
    ("language", .str s.language),
    ("lint", .ofOption LintReport.toJson s.lint),
    ("build", .ofOption BuildReport.toJson s.build),
    ("dependency_audit", .ofOption AuditReport.toJson s.dependencyAudit),
    ("tests", .ofOption TestReport.toJson s.tests),
    ("coverage", .ofOption CoverageReport.toJson s.coverage),
    ("documentation", .ofOption DocumentationReport.toJson s.documentation)]

/-- The keys that a document has to have, in the order in which they are looked for. -/
def requiredKeys : List String :=
  ["language", "lint", "build", "dependency_audit", "tests", "coverage", "documentation"]

/-- The first required key that is not among the members. -/
def missingKey? (members : List (String × Json)) : Option String :=
  requiredKeys.find? fun key => !members.any (·.1 == key)

/-- The snapshot of a document. -/
def ofJson (v : Json) : Except SnapshotError Snapshot :=
  match v with
  | .obj members =>
    match missingKey? members with
    | some key => .error (.missingKey key)
    | none =>
      match ofTree decode v with
      | .error fault => .error (.malformed (.misfit .tree fault))
      | .ok s =>
        match s.flaw? with
        | some flaw => .error (.flawed flaw)
        | none => .ok s
  | _ => .error .noObject

/-- The snapshot of a document's text. -/
def ofText (text : String) : Except SnapshotError Snapshot :=
  match Json.parse? text with
  | none => .error (.malformed .noDocument)
  | some v => ofJson v

end Snapshot

end Scorecard
