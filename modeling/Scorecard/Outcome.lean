import Scorecard.Grading.Dimension
import Scorecard.Grading.Status
import Scorecard.Decode.Record

/-!
# Outcomes

The outcome of an evaluation: for each criterion its status, its score and the evidence it
refers to, and the total of the scores.
-/

namespace Scorecard

open Decode

/-- The outcome for one criterion. -/
structure CriterionOutcome where
  criterionId : String
  dimension : Dimension
  maxPoints : Float
  status : Status
  score : Float
  evidenceIds : List String

namespace CriterionOutcome

/-- Whether the score is the one that the status fixes. -/
def isConsistent (c : CriterionOutcome) : Bool := c.status.isConsistent c.score c.maxPoints

/-- Reads the outcome for a criterion. -/
def decode : Decoder CriterionOutcome :=
  Record.decode
    (Record.make CriterionOutcome.mk
      |>.required "criterion_id" string
      |>.required "dimension" Dimension.decode
      |>.required "max_points" float
      |>.required "status" Status.decode
      |>.required "score" float
      |>.required "evidence_ids" (list string))
    "CriterionOutcome" false

/-- The outcome for a criterion as a document. -/
def toJson (c : CriterionOutcome) : Json :=
  .obj [
    ("criterion_id", .str c.criterionId),
    ("dimension", c.dimension.toJson),
    ("max_points", .ofFloat c.maxPoints),
    ("status", c.status.toJson),
    ("score", .ofFloat c.score),
    ("evidence_ids", .ofList .str c.evidenceIds)]

end CriterionOutcome

/-- The outcome of an evaluation. -/
structure Outcome where
  criteria : List CriterionOutcome
  totalScore : Float
  maxScore : Float

namespace Outcome

/-- The outcome with the total of the criteria's scores. -/
def ofCriteria (criteria : List CriterionOutcome) (maxScore : Float) : Outcome where
  criteria
  totalScore := Points.total (criteria.map (·.score))
  maxScore

/-- The evidence that the criteria refer to, in their order. -/
def references (o : Outcome) : List String := o.criteria.flatMap (·.evidenceIds)

/-- The number of criteria with a status. -/
def countOf (o : Outcome) (s : Status) : Nat := o.criteria.countP (·.status = s)

/-- Reads an outcome. -/
def decode : Decoder Outcome :=
  Record.decode
    (Record.make Outcome.mk
      |>.required "criteria" (list CriterionOutcome.decode)
      |>.required "total_score" float
      |>.required "max_possible_score" float)
    "EvaluationOutcome" false

/-- The outcome as a document. -/
def toJson (o : Outcome) : Json :=
  .obj [
    ("criteria", .ofList CriterionOutcome.toJson o.criteria),
    ("total_score", .ofFloat o.totalScore),
    ("max_possible_score", .ofFloat o.maxScore)]

end Outcome

end Scorecard
