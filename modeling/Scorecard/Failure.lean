import Scorecard.Evaluation.Error
import Scorecard.Score.Publish

/-!
# Failures

What can end a run, with the exit code that tells the caller who is to blame: 2 the rubric, 3
the snapshot, 4 a rule, 5 the outcome, 1 the surroundings.
-/

namespace Scorecard

/-- What ends a run. -/
inductive Failure
  | rubric (error : RubricError)
  | snapshot (error : SnapshotError)
  | evaluation (error : EvaluationError)
  | publish (error : PublishError)
  | serialization (m : Decode.Misreading)
  | io (fault : Volume.Fault)
  deriving DecidableEq

namespace Failure

/-- The wording of a failure. -/
def message : Failure → String
  | rubric error => "rubric configuration error: " ++ error.message
  | snapshot error => "invalid snapshot: " ++ error.message
  | evaluation error => "evaluation failed: " ++ error.message
  | publish error => "publish failed: " ++ error.message
  | serialization m => "serialization error: " ++ m.words
  | io fault => "io error: " ++ fault.message

/-- The exit code of a failure. -/
def exitCode : Failure → Nat
  | rubric _ => 2
  | evaluation (.invalidRubric _) => 2
  | snapshot _ => 3
  | evaluation (.invalidSnapshot _) => 3
  | evaluation _ => 4
  | publish _ => 5
  | serialization _ => 1
  | io _ => 1

end Failure

end Scorecard
