import Scorecard.Rule.Basic
import Scorecard.Decode.Record

/-!
# The rule on builds

A criterion is met when the project builds, where wanted with at most so many warnings.
-/

namespace Scorecard.Rule.Build

open Decode

/-- The parameters. -/
structure Limits where
  maxWarnings : Option UInt64
  partialMaxWarnings : Option UInt64

/-- Reads the parameters. -/
def Limits.decode : Decoder Limits :=
  Record.decode
    (Record.make Limits.mk
      |>.defaulted "max_warnings" (optional count) none
      |>.defaulted "partial_max_warnings" (optional count) none)
    "BuildSuccessParams" true

/-- Checks that a partial limit relaxes another one. -/
def Limits.check (p : Limits) : Except ParamDefect Unit :=
  match p.maxWarnings, p.partialMaxWarnings with
  | none, some _ => .error (.alone "partial_max_warnings" "max_warnings")
  | some m, some q =>
    if q < m then .error (.below "partial_max_warnings" q "max_warnings" m) else .ok ()
  | _, none => .ok ()

/-- The greatest number of characters quoted of the build's output. -/
def maxQuoted : Nat := 2000

/-- The first characters of the build's output. -/
def excerpt (r : BuildReport) : Option String :=
  r.outputExcerpt.map fun s => String.ofList (s.toList.take maxQuoted)

/-- The draft on the build. -/
def draft (r : BuildReport) (p : Limits) : Draft where
  confidence := .high
  summary :=
    if r.success then
      r.tool ++ " build succeeded with " ++ toString r.warningCount ++ " warning(s)"
    else r.tool ++ " build failed"
  payload := .obj [
    ("max_warnings", .ofOption .ofUInt64 p.maxWarnings),
    ("output_excerpt", .ofOption .str (excerpt r)),
    ("partial_max_warnings", .ofOption .ofUInt64 p.partialMaxWarnings),
    ("success", .bool r.success),
    ("tool", .str r.tool),
    ("warning_count", .ofUInt64 r.warningCount)]

/-- The status of a build. -/
def status (r : BuildReport) (p : Limits) : Status :=
  if r.success then
    .ofTests (p.maxWarnings.all (r.warningCount ≤ ·))
      (p.partialMaxWarnings.map (r.warningCount ≤ ·))
  else .unmet

/-- Judges by the build's report. -/
def decide (c : Criterion.Context) (s : Snapshot) (p : Limits) : Verdict :=
  match s.build with
  | none => .unavailable c "build"
  | some r => .ofStatus c (status r p) [draft r p]

/-- The rule. -/
def rule : TypedRule Limits where
  name := "build_success"
  decode := Limits.decode
  check := Limits.check
  hasPartial := fun p => p.partialMaxWarnings.isSome
  decide := decide

end Scorecard.Rule.Build
