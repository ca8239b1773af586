import Scorecard.Score.Basic
import Scorecard.Decimal.Layout

/-!
# Summaries of scores

The summary is a short text for people: the score and grade, each dimension with its criteria
by status, the number of evidence files, and the warnings.
-/

namespace Scorecard

/-- Ids between commas, or a word for none. -/
def listed (ids : List String) : String :=
  if ids.isEmpty then "(none)" else String.intercalate ", " ids

/-- Points out of points, with the percentage. -/
def pointsLine (score max percentage : Float) : String :=
  Decimal.plain score ++ "/" ++ Decimal.plain max ++ " (" ++ Decimal.plain percentage ++ "%)"

/-- The line on the criteria with one status. -/
def statusLine (status : Status) (n : Nat) (ids : List String) : String :=
  "  " ++ status.name ++ " (" ++ toString n ++ "): " ++ listed ids ++ "\n"

/-- The lines on a dimension. -/
def Breakdown.lines (d : Dimension) (b : Breakdown) : String :=
  "\n" ++ d.label ++ ": " ++ pointsLine b.score b.max b.percentage ++ "\n"
    ++ statusLine .met b.metCount b.met
    ++ statusLine .partly b.partialCount b.partly
    ++ statusLine .unmet b.unmetCount b.unmet

/-- The lines on the warnings, if there are any. -/
def warningLines (warnings : List String) : String :=
  if warnings.isEmpty then ""
  else "Warnings:\n" ++ String.join (warnings.map fun w => "  - " ++ w ++ "\n")

/-- The summary of a score. It does not look at the summary that the score holds. -/
def ScoreOutput.render (o : ScoreOutput) : String :=
  "Score: " ++ pointsLine o.totalScore o.maxScore o.percentage ++ ", grade " ++ o.grade.name
    ++ "\n"
    ++ String.join (o.breakdowns.entries.map fun (d, b) => b.lines d)
    ++ "\nEvidence files: " ++ toString o.evidencePaths.size ++ "\n"
    ++ warningLines o.warnings

end Scorecard
