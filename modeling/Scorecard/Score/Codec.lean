import Scorecard.Score.Basic
import Scorecard.Decode.Record
import Scorecard.Evidence.Basic

/-!
# Scores as documents

* `ScoreOutput.toJson`, `ScoreOutput.decode`: writing and reading a score.
-/

namespace Scorecard

open Decode

/-- Reads the points of a dimension. -/
def Breakdown.decode : Decoder Breakdown :=
  Record.decode
    (Record.make Breakdown.mk
      |>.required "score" float
      |>.required "max" float
      |>.required "percentage" float
      |>.required "met_count" size
      |>.required "partial_count" size
      |>.required "unmet_count" size
      |>.required "met" (list string)
      |>.required "partial" (list string)
      |>.required "unmet" (list string))
    "DimensionBreakdown" false

/-- The points of a dimension as a document. -/
def Breakdown.toJson (b : Breakdown) : Json :=
  .obj [
    ("score", .ofFloat b.score),
    ("max", .ofFloat b.max),
    ("percentage", .ofFloat b.percentage),
    ("met_count", .ofNat b.metCount),
    ("partial_count", .ofNat b.partialCount),
    ("unmet_count", .ofNat b.unmetCount),
    ("met", .ofList .str b.met),
    ("partial", .ofList .str b.partly),
    ("unmet", .ofList .str b.unmet)]

/-- Reads a score. -/
def ScoreOutput.decode : Decoder ScoreOutput :=
  Record.decode
    (Record.make ScoreOutput.mk
      |>.required "total_score" float
      |>.required "max_possible_score" float
      |>.required "percentage" float
      |>.required "letter_grade" Letter.decode
      |>.required "dimension_breakdowns" (Dimension.decodeTable Breakdown.decode)
      |>.required "evidence_paths" (table Evidence.decodePath)
      |>.required "warnings" (list string)
      |>.required "human_summary" string)
    "ScoreOutput" false

/-- The score as a document. -/
def ScoreOutput.toJson (o : ScoreOutput) : Json :=
  .obj [
    ("total_score", .ofFloat o.totalScore),
    ("max_possible_score", .ofFloat o.maxScore),
    ("percentage", .ofFloat o.percentage),
    ("letter_grade", o.grade.toJson),
    ("dimension_breakdowns", .ofTable Dimension.key Breakdown.toJson o.breakdowns),
    ("evidence_paths", .ofTable (fun k => k) (fun p => .str p.text) o.evidencePaths),
    ("warnings", .ofList .str o.warnings),
    ("human_summary", .str o.summary)]

end Scorecard
