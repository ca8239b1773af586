import Scorecard.Grading.Dimension
import Scorecard.Grading.Status
import Scorecard.Grading.Letter
import Scorecard.Volume.Path

/-!
# Scores

A score is what is published of a run: the points, overall and by dimension, the grade, and
where the evidence stands.

* `Breakdown.record`: adds a criterion to the points of its dimension.
-/

namespace Scorecard

/-- The points of a dimension, and its criteria by status in the order of the rubric. -/
structure Breakdown where
  score : Float
  max : Float
  percentage : Float
  metCount : Nat
  partialCount : Nat
  unmetCount : Nat
  met : List String
  partly : List String
  unmet : List String
  deriving BEq

namespace Breakdown

/-- A dimension without criteria. -/
def empty (max : Float) : Breakdown := ⟨0, max, 0, 0, 0, 0, [], [], []⟩

/-- Adds a criterion. -/
def record (b : Breakdown) (id : String) (status : Status) (score : Float) : Breakdown :=
  let b := { b with score := b.score + score }
  match status with
  | .met => { b with metCount := b.metCount + 1, met := b.met ++ [id] }
  | .partly => { b with partialCount := b.partialCount + 1, partly := b.partly ++ [id] }
  | .unmet => { b with unmetCount := b.unmetCount + 1, unmet := b.unmet ++ [id] }

/-- States the percentage. -/
def withPercentage (b : Breakdown) : Breakdown :=
  { b with percentage := Points.percentage b.score b.max }

end Breakdown

/-- What is published of a run. -/
structure ScoreOutput where
  totalScore : Float
  maxScore : Float
  percentage : Float
  grade : Letter
  breakdowns : Table Dimension Breakdown
  evidencePaths : Table String Path
  warnings : List String
  summary : String
  deriving BEq

end Scorecard
