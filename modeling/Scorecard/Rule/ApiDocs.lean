import Scorecard.Rule.Basic
import Scorecard.Decode.Record

/-!
# The rule on documented items

A criterion is met when a large enough share of the public items is documented, and also when
there are no public items.
-/

namespace Scorecard.Rule.ApiDocs

open Decode

/-- The parameters. -/
structure Floors where
  minRatio : Float
  partialMinRatio : Option Float

/-- Reads the parameters. -/
def Floors.decode : Decoder Floors :=
  Record.decode
    (Record.make Floors.mk
      |>.required "min_ratio" float
      |>.defaulted "partial_min_ratio" (optional float) none)
    "ApiDocCoverageParams" true

/-- Checks that both numbers are shares and the partial one is no higher. -/
def Floors.check (p : Floors) : Except ParamDefect Unit :=
  checkFloors 1 "min_ratio" p.minRatio "partial_min_ratio" p.partialMinRatio

/-- The numbers behind the decision. -/
def payload (r : DocumentationReport) (p : Floors) : Json :=
  .obj [
    ("documented_items", .ofUInt64 r.documentedItems),
    ("min_ratio", .ofFloat p.minRatio),
    ("partial_min_ratio", .ofOption .ofFloat p.partialMinRatio),
    ("total_items", .ofUInt64 r.totalItems)]

/-- The draft on the share of documented items. -/
def draft (r : DocumentationReport) (p : Floors) : Draft :=
  match r.ratio? with
  | none =>
    { confidence := .low
      summary := "no public items found to document"
      payload := payload r p }
  | some ratio =>
    { confidence := .medium
      summary :=
        toString r.documentedItems ++ "/" ++ toString r.totalItems
          ++ " public items documented (" ++ Decimal.fixedOne (ratio * 100) ++ "%)"
      payload := payload r p }

/-- The status of the documentation. -/
def status (r : DocumentationReport) (p : Floors) : Status :=
  match r.ratio? with
  | none => .met
  | some ratio => .ofTests (atLeast ratio p.minRatio) (p.partialMinRatio.map (atLeast ratio ·))

/-- Judges by the documentation's report. -/
def decide (c : Criterion.Context) (s : Snapshot) (p : Floors) : Verdict :=
  match s.documentation with
  | none => .unavailable c "documentation"
  | some r => .ofStatus c (status r p) [draft r p]

/-- The rule. -/
def rule : TypedRule Floors where
  name := "api_doc_coverage"
  decode := Floors.decode
  check := Floors.check
  hasPartial := fun p => p.partialMinRatio.isSome
  decide := decide

end Scorecard.Rule.ApiDocs
