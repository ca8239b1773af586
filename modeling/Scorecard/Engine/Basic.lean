import Scorecard.Engine.Config
import Scorecard.Failure

/-!
# Runs

A run evaluates a snapshot against a rubric, keeps the evidence and publishes the score.
Evidence that cannot be kept ends in warnings; only the evaluation and the check of its
outcome can fail.

* `Engine.run`: one run.
-/

namespace Scorecard

/-- All that a run has produced. -/
structure Report where
  evaluation : Evaluation
  manifest : Manifest
  output : ScoreOutput

/-- Grades snapshots. -/
structure Engine where
  config : Config
  registry : Registry

namespace Engine

/-- The evaluator of an engine. -/
def evaluator (e : Engine) : Evaluator :=
  (Evaluator.ofRegistry e.registry).withWorkers e.config.evaluatorWorkers

/-- The store of an engine. -/
def store (e : Engine) : Store :=
  (Store.ofRoot e.config.evidenceRoot).withMaxConcurrent e.config.maxConcurrentWrites

/-- Grades a snapshot against a rubric; `keep` keeps the evidence. -/
def run (e : Engine) (keep : List Evidence → Filed Manifest) (r : Rubric) (s : Snapshot)
    (v : Volume) : Logged (Except Failure Report × Volume) :=
  Journal.within ⟨s.normalLanguage⟩ do
    match ← (e.evaluator.evaluate r s s.language).run with
    | .error error => return (.error (.evaluation error), v)
    | .ok evaluation =>
      let (manifest, v) ← (keep evaluation.evidence).run v
      match ← (r.publish evaluation.outcome manifest).run with
      | .error error => return (.error (.publish error), v)
      | .ok output =>
        Journal.flush
        return (.ok ⟨evaluation, manifest, output⟩, v)

/-- Grades a snapshot against a rubric and keeps the evidence in the engine's own store. -/
def runStored (e : Engine) (stamp : Stamp) (r : Rubric) (s : Snapshot) (v : Volume) :
    Logged (Except Failure Report × Volume) :=
  e.run (e.store.persist stamp) r s v

end Engine

end Scorecard
