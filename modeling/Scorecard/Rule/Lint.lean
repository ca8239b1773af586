import Scorecard.Rule.Basic
import Scorecard.Snapshot.Codec

/-!
# The rule on lint issues

A criterion is met when the linter reports at most so many issues.
-/

namespace Scorecard.Rule.Lint

open Decode

/-- The parameters. -/
structure Limits where
  maxIssues : UInt64
  partialMaxIssues : Option UInt64
  /-- Whether warnings count besides errors. -/
  countWarnings : Bool

/-- Reads the parameters. -/
def Limits.decode : Decoder Limits :=
  Record.decode
    (Record.make Limits.mk
      |>.defaulted "max_issues" count 0
      |>.defaulted "partial_max_issues" (optional count) none
      |>.defaulted "count_warnings" boolean true)
    "LintIssuesParams" true

/-- Checks that the partial limit is no tighter. -/
def Limits.check (p : Limits) : Except ParamDefect Unit :=
  match p.partialMaxIssues with
  | some m =>
    if m < p.maxIssues then
      .error (.below "partial_max_issues" m "max_issues" p.maxIssues)
    else .ok ()
  | none => .ok ()

/-- The number of issues that count. -/
def counted (r : LintReport) (p : Limits) : UInt64 :=
  if p.countWarnings then cappedSum r.errorCount r.warningCount else r.errorCount

/-- The greatest number of findings quoted. -/
def maxQuoted : Nat := 10

/-- The draft on the counts. -/
def countsDraft (r : LintReport) (p : Limits) : Draft where
  confidence := .high
  summary :=
    r.tool ++ " reported " ++ toString (counted r p) ++ " issue(s) (" ++ toString r.errorCount
      ++ " error(s), " ++ toString r.warningCount ++ " warning(s)); met at <= "
      ++ toString p.maxIssues
  payload := .obj [
    ("count_warnings", .bool p.countWarnings),
    ("counted_issues", .ofUInt64 (counted r p)),
    ("error_count", .ofUInt64 r.errorCount),
    ("max_issues", .ofUInt64 p.maxIssues),
    ("partial_max_issues", .ofOption .ofUInt64 p.partialMaxIssues),
    ("tool", .str r.tool),
    ("warning_count", .ofUInt64 r.warningCount)]

/-- The draft that quotes the first findings, if there are any. -/
def findingsDrafts (r : LintReport) : List Draft :=
  if r.findings.isEmpty then []
  else
    let quoted := r.findings.take maxQuoted
    [{ confidence := .medium
       summary := "first " ++ toString quoted.length ++ " of " ++ toString r.findings.length
         ++ " recorded lint finding(s)"
       payload := .obj [("issues", .ofList (fun f => f.toJson.canonical) quoted)] }]

/-- Judges by the linter's report. -/
def decide (c : Criterion.Context) (s : Snapshot) (p : Limits) : Verdict :=
  match s.lint with
  | none => .unavailable c "lint"
  | some r =>
    let issues := counted r p
    let status := Status.ofTests (issues ≤ p.maxIssues) (p.partialMaxIssues.map (issues ≤ ·))
    .ofStatus c status (countsDraft r p :: findingsDrafts r)

/-- The rule. -/
def rule : TypedRule Limits where
  name := "lint_issues"
  decode := Limits.decode
  check := Limits.check
  hasPartial := fun p => p.partialMaxIssues.isSome
  decide := decide

end Scorecard.Rule.Lint
