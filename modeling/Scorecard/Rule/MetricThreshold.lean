import Scorecard.Rule.Basic
import Scorecard.Decode.Record

/-!
# The rule on any metric

A criterion is met when a metric passes a threshold in a direction of the rubric's choice.
-/

namespace Scorecard.Rule.MetricThreshold

open Decode

/-- The parameters. -/
structure Thresholds where
  metric : Metric
  direction : Direction
  met : Float
  partly : Option Float

/-- Reads the parameters. -/
def Thresholds.decode : Decoder Thresholds :=
  Record.decode
    (Record.make Thresholds.mk
      |>.required "metric" Metric.decode
      |>.defaulted "direction" Direction.decode .atLeast
      |>.required "met" float
      |>.defaulted "partial" (optional float) none)
    "MetricThresholdParams" true

/-- Whether the threshold `x` is no stricter than `y`. -/
def noStricter (d : Direction) (x y : Float) : Bool :=
  match d with
  | .atLeast => x ≤ y
  | .atMost => y ≤ x

/-- Checks that both thresholds are finite and the partial one is no stricter. -/
def Thresholds.check (p : Thresholds) : Except ParamDefect Unit :=
  if !p.met.isFinite then .error (.notFinite "met" p.met)
  else match p.partly with
    | none => .ok ()
    | some q =>
      if !q.isFinite then .error (.notFinite "partial" q)
      else if noStricter p.direction q p.met then .ok ()
      else .error (.stricter q p.met p.direction)

/-- The status of a number. -/
def status (x : Float) (p : Thresholds) : Status :=
  .ofTests (p.direction.passes x p.met) (p.partly.map (p.direction.passes x ·))

/-- The draft on the number. -/
def draft (x : Float) (p : Thresholds) : Draft where
  confidence := .high
  summary :=
    p.metric.name ++ " = " ++ Decimal.plain x ++ "; met at " ++ p.direction.sign ++ " "
      ++ Decimal.plain p.met
  payload := .obj [
    ("direction", .str p.direction.key),
    ("met", .ofFloat p.met),
    ("metric", .str p.metric.name),
    ("partial", .ofOption .ofFloat p.partly),
    ("value", .ofFloat x)]

/-- Judges by the metric. -/
def decide (c : Criterion.Context) (s : Snapshot) (p : Thresholds) : Verdict :=
  match p.metric.read? s with
  | none => .unavailable c p.metric.category
  | some x => .ofStatus c (status x p) [draft x p]

/-- The rule. -/
def rule : TypedRule Thresholds where
  name := "metric_threshold"
  decode := Thresholds.decode
  check := Thresholds.check
  hasPartial := fun p => p.partly.isSome
  decide := decide

end Scorecard.Rule.MetricThreshold
