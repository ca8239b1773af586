import Scorecard.Rubric.Load
import Scorecard.Snapshot.Codec

/-!
# Errors of evaluations

What can keep an evaluation from an outcome. Apart from a flawed snapshot each of them is a
fault of the rubric or of a rule.
-/

namespace Scorecard

/-- Why an evaluation has no outcome. -/
inductive EvaluationError
  | invalidRubric (error : RubricError)
  | invalidSnapshot (error : SnapshotError)
  | noWorkers (reason : String)
  | unknownRule (criterion rule : String)
  | ruleFailed (criterion : String) (error : RuleError)
  /-- The score is not the one that the status fixes. -/
  | inconsistentScore (criterion : String) (status : Status) (score maxPoints : Float)
  /-- A partial status without a partial threshold. -/
  | implicitPartial (criterion rule : String)
  | missingEvidence (criterion : String)
  | orphanEvidence (id : String)
  | repeatedReference (id : String)
  deriving DecidableEq

/-- The wording of an error. -/
def EvaluationError.message : EvaluationError → String
  | invalidRubric error => "rubric failed validation: " ++ error.message
  | invalidSnapshot error => "snapshot failed validation: " ++ error.message
  | noWorkers reason => "could not start evaluation workers: " ++ reason
  | unknownRule criterion rule =>
    "criterion " ++ Text.quote criterion ++ " references unregistered rule " ++ Text.quote rule
  | ruleFailed criterion error =>
    "rule for criterion " ++ Text.quote criterion ++ " failed: " ++ error.message
  | inconsistentScore criterion status score maxPoints =>
    "criterion " ++ Text.quote criterion ++ " returned score " ++ Decimal.plain score
      ++ " for status " ++ status.name ++ " (max " ++ Decimal.plain maxPoints ++ ")"
  | implicitPartial criterion rule =>
    "rule " ++ Text.quote rule ++ " returned partial for criterion " ++ Text.quote criterion
      ++ " without a partial threshold"
  | missingEvidence criterion =>
    "criterion " ++ Text.quote criterion ++ " produced no evidence"
  | orphanEvidence id => "evidence " ++ Text.quote id ++ " is not referenced by any criterion"
  | repeatedReference id => "evidence " ++ Text.quote id ++ " is referenced more than once"

end Scorecard
