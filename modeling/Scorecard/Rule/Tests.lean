import Scorecard.Rule.Basic
import Scorecard.Decode.Record

/-!
# The rule on tests

A criterion is met when there are enough tests and enough of them pass.
-/

namespace Scorecard.Rule.Tests

open Decode

/-- The parameters. -/
structure Floors where
  minPassRate : Float
  partialMinPassRate : Option Float
  minTests : UInt64

/-- Reads the parameters. -/
def Floors.decode : Decoder Floors :=
  Record.decode
    (Record.make Floors.mk
      |>.defaulted "min_pass_rate" float 1
      |>.defaulted "partial_min_pass_rate" (optional float) none
      |>.defaulted "min_tests" count 1)
    "TestPassRateParams" true

/-- Checks that both rates are shares and the partial one is no higher. -/
def Floors.check (p : Floors) : Except ParamDefect Unit :=
  checkFloors 1 "min_pass_rate" p.minPassRate "partial_min_pass_rate" p.partialMinPassRate

/-- The pass rate, if there are enough tests for it to count. -/
def rate? (r : TestReport) (p : Floors) : Option Float :=
  if p.minTests ≤ r.total then r.passRate? else none

/-- What the tests show. -/
def summary (r : TestReport) (p : Floors) : String :=
  match rate? r p with
  | some rate =>
    r.framework ++ ": " ++ toString r.passed ++ "/" ++ toString r.total ++ " tests passed ("
      ++ Decimal.fixedOne (rate * 100) ++ "%)"
  | none =>
    r.framework ++ " collected " ++ toString r.total ++ " test(s); at least "
      ++ toString p.minTests ++ " required"

/-- The draft on the tests. -/
def draft (r : TestReport) (p : Floors) : Draft where
  confidence := .high
  summary := summary r p
  payload := .obj [
    ("failed", .ofUInt64 r.failed),
    ("framework", .str r.framework),
    ("min_pass_rate", .ofFloat p.minPassRate),
    ("min_tests", .ofUInt64 p.minTests),
    ("partial_min_pass_rate", .ofOption .ofFloat p.partialMinPassRate),
    ("passed", .ofUInt64 r.passed),
    ("skipped", .ofUInt64 r.skipped),
    ("total", .ofUInt64 r.total)]

/-- The status of the tests. -/
def status (r : TestReport) (p : Floors) : Status :=
  match rate? r p with
  | some rate =>
    .ofTests (atLeast rate p.minPassRate) (p.partialMinPassRate.map (atLeast rate ·))
  | none => .unmet

/-- Judges by the tests' report. -/
def decide (c : Criterion.Context) (s : Snapshot) (p : Floors) : Verdict :=
  match s.tests with
  | none => .unavailable c "test execution"
  | some r => .ofStatus c (status r p) [draft r p]

/-- The rule. -/
def rule : TypedRule Floors where
  name := "test_pass_rate"
  decode := Floors.decode
  check := Floors.check
  hasPartial := fun p => p.partialMinPassRate.isSome
  decide := decide

end Scorecard.Rule.Tests
