import Scorecard.Grading.Dimension
import Scorecard.Grading.Status
import Scorecard.Grading.Letter
import Scorecard.Volume.Path
import Scorecard.Text.Quoted

/-!
# Events

What a run reports while it goes on. Each event has a level and fields.
-/

namespace Scorecard

/-- Running counts of what has been evaluated, kept, left out and dropped. They wrap around
beyond the greatest count. -/
structure Counters where
  criteriaEvaluated : UInt64
  evidencePersisted : UInt64
  evidenceOmitted : UInt64
  referencesDropped : UInt64
  deriving DecidableEq, Repr

/-- All counts at zero. -/
def Counters.zero : Counters := ⟨0, 0, 0, 0⟩

/-- Something a run reports. -/
inductive Event
  | rubricLoaded (criteria : Nat) (version : String)
  | evaluationStarted (language : String) (criteria workers : Nat)
  | criterionEvaluated (criterion : String) (dimension : Dimension) (status : Status)
      (score : Float) (evidence : Nat)
  | evaluationFinished (total max : Float) (evidence : Nat)
  | evidencePersisted (id : String) (path : Path) (digest : String)
  | evidenceOmitted (id reason : String)
  | indexWritten (path : Path) (entries : Nat)
  | indexFailed (reason : String)
  | referencesDropped (ids : List String)
  | scorePublished (total percentage : Float) (grade : Letter) (paths : Nat)
  | countersFlushed (counters : Counters)
  deriving DecidableEq

namespace Event

/-- How much attention an event asks for. -/
inductive Level
  | debug
  | info
  | warn
  deriving DecidableEq, Repr

/-- The name of a level. -/
def Level.name : Level → String
  | debug => "DEBUG"
  | info => "INFO"
  | warn => "WARN"

/-- The level of an event. -/
def level : Event → Level
  | rubricLoaded .. => .debug
  | evaluationStarted .. => .info
  | criterionEvaluated .. => .debug
  | evaluationFinished .. => .info
  | evidencePersisted .. => .debug
  | evidenceOmitted .. => .warn
  | indexWritten .. => .info
  | indexFailed .. => .warn
  | referencesDropped .. => .debug
  | scorePublished .. => .info
  | countersFlushed .. => .info

/-- The value of a field. -/
inductive Value
  | text (s : String)
  | count (n : Nat)
  | real (x : Float)
  deriving DecidableEq

/-- The fields of an event. -/
def fields : Event → List (String × Value)
  | rubricLoaded criteria version =>
    [("message", .text "rubric loaded"), ("criteria", .count criteria),
      ("version", .text version)]
  | evaluationStarted language criteria workers =>
    [("event", .text "evaluation.started"), ("language", .text language),
      ("criteria", .count criteria), ("workers", .count workers)]
  | criterionEvaluated criterion dimension status score evidence =>
    [("event", .text "criterion.evaluated"), ("criterion", .text criterion),
      ("dimension", .text dimension.key), ("status", .text status.name),
      ("score", .real score), ("evidence", .count evidence)]
  | evaluationFinished total max evidence =>
    [("event", .text "evaluation.finished"), ("total_score", .real total),
      ("max_possible_score", .real max), ("evidence", .count evidence)]
  | evidencePersisted id path digest =>
    [("event", .text "evidence.persisted"), ("id", .text id), ("path", .text path.text),
      ("sha256", .text digest)]
  | evidenceOmitted id reason =>
    [("event", .text "evidence.omitted"), ("id", .text id), ("reason", .text reason)]
  | indexWritten path entries =>
    [("event", .text "evidence.index_written"), ("path", .text path.text),
      ("entries", .count entries)]
  | indexFailed reason =>
    [("event", .text "evidence.index_failed"), ("reason", .text reason)]
  | referencesDropped ids =>
    [("event", .text "publish.references_dropped"), ("count", .count ids.length),
      ("ids", .text (Text.quoteList ids))]
  | scorePublished total percentage grade paths =>
    [("event", .text "score.published"), ("total_score", .real total),
      ("percentage", .real percentage), ("grade", .text grade.name),
      ("evidence_paths", .count paths)]
  | countersFlushed c =>
    [("metric", .text "flush"), ("criteria_evaluated", .count c.criteriaEvaluated.toNat),
      ("evidence_persisted", .count c.evidencePersisted.toNat),
      ("evidence_omitted", .count c.evidenceOmitted.toNat),
      ("references_dropped", .count c.referencesDropped.toNat)]

end Event

end Scorecard
