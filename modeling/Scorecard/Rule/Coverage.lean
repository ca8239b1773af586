import Scorecard.Rule.Basic
import Scorecard.Decode.Record

/-!
# The rule on coverage

A criterion is met when the tests reach enough lines of the code.
-/

namespace Scorecard.Rule.Coverage

open Decode

/-- The parameters. -/
structure Floors where
  minPercent : Float
  partialMinPercent : Option Float

/-- Reads the parameters. -/
def Floors.decode : Decoder Floors :=
  Record.decode
    (Record.make Floors.mk
      |>.required "min_percent" float
      |>.defaulted "partial_min_percent" (optional float) none)
    "CoverageThresholdParams" true

/-- Checks that both numbers are in percent and the partial one is no higher. -/
def Floors.check (p : Floors) : Except ParamDefect Unit :=
  checkFloors 100 "min_percent" p.minPercent "partial_min_percent" p.partialMinPercent

/-- The draft on the coverage. -/
def draft (r : CoverageReport) (p : Floors) : Draft where
  confidence := .high
  summary :=
    r.tool ++ " measured " ++ Decimal.fixedOne r.linePercent ++ "% line coverage; met at >= "
      ++ Decimal.fixedOne p.minPercent ++ "%"
  payload := .obj [
    ("branch_percent", .ofOption .ofFloat r.branchPercent),
    ("line_percent", .ofFloat r.linePercent),
    ("min_percent", .ofFloat p.minPercent),
    ("partial_min_percent", .ofOption .ofFloat p.partialMinPercent),
    ("tool", .str r.tool)]

/-- Judges by the coverage's report. -/
def decide (c : Criterion.Context) (s : Snapshot) (p : Floors) : Verdict :=
  match s.coverage with
  | none => .unavailable c "coverage"
  | some r =>
    let status := Status.ofTests (atLeast r.linePercent p.minPercent)
      (p.partialMinPercent.map (atLeast r.linePercent ·))
    .ofStatus c status [draft r p]

/-- The rule. -/
def rule : TypedRule Floors where
  name := "coverage_threshold"
  decode := Floors.decode
  check := Floors.check
  hasPartial := fun p => p.partialMinPercent.isSome
  decide := decide

end Scorecard.Rule.Coverage
