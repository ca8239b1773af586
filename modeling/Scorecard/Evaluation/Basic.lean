import Scorecard.Evaluation.Error
import Scorecard.Outcome

/-!
# Evaluations

An evaluation judges every criterion of a rubric by its rule. A verdict is accepted if its
score is the one that its status fixes, if a partial status has a partial threshold behind it,
and if there is evidence for it.

Criteria do not depend on each other; their results stand in the order of the rubric, and the
first error in that order is the error of the evaluation.

Last of all, every evidence item has to be referred to once, by one criterion. The references are
counted first, id by id; then the items are looked up one after another.

* `Outcome.checkReferences`: the check of the references.
* `Evaluator.decide`: the result for one criterion.
* `Evaluator.evaluate`: the evaluation of a rubric.
-/

namespace Scorecard

/-! ### References to evidence -/

/-- How often each id is referred to. An id that is not referred to is not in the table. -/
def Outcome.tally (o : Outcome) : Table String Nat :=
  o.references.foldl (fun counts id => counts.insert id ((counts.get? id).getD 0 + 1)) .empty

/-- What is wrong with the references to an item, by the counts of all of them. -/
def Evidence.referenceError? (counts : Table String Nat) (e : Evidence) : Option EvaluationError :=
  match counts.get? e.id with
  | none => some (.orphanEvidence e.id)
  | some n => if 1 < n then some (.repeatedReference e.id) else none

/-- Checks the references to all items; the first one with an error counts. -/
def Outcome.checkReferences (o : Outcome) (evidence : List Evidence) :
    Except EvaluationError Unit :=
  match evidence.findSome? (Evidence.referenceError? o.tally) with
  | none => .ok ()
  | some e => .error e

/-! ### Evaluators -/

/-- What is decided for one criterion. -/
structure Decided where
  outcome : CriterionOutcome
  evidence : List Evidence

/-- The outcome for all criteria and the evidence that it refers to. -/
structure Evaluation where
  outcome : Outcome
  evidence : List Evidence

/-- The evaluation as a document. -/
def Evaluation.toJson (e : Evaluation) : Json :=
  .obj [("outcome", e.outcome.toJson), ("evidence", .ofList Evidence.toJson e.evidence)]

/-- Evaluates rubrics by the rules of a registry. -/
structure Evaluator where
  registry : Registry
  /-- How many criteria may be judged at a time. -/
  workers : Nat

namespace Evaluator

/-- How many workers there are unless another number is asked for. -/
def defaultWorkers : Nat := 4

/-- An evaluator with the usual number of workers. -/
def ofRegistry (registry : Registry) : Evaluator := ⟨registry, defaultWorkers⟩

/-- The evaluator with another number of workers, at least one. -/
def withWorkers (e : Evaluator) (n : Nat) : Evaluator := { e with workers := max n 1 }

/-! ### One criterion -/

/-- Checks a verdict. -/
def checkVerdict (c : Criterion) (rule : Rule) (params : Params) (v : Verdict) :
    Except EvaluationError Unit :=
  if !v.status.isConsistent v.score c.maxPoints then
    .error (.inconsistentScore c.id v.status v.score c.maxPoints)
  else if v.status = .partly && !rule.allowsPartial params then
    .error (.implicitPartial c.id c.rule)
  else if v.evidence.isEmpty then .error (.missingEvidence c.id)
  else .ok ()

/-- What an accepted verdict means for its criterion. -/
def accept (c : Criterion) (v : Verdict) : Decided :=
  let evidence := Evidence.ofDrafts c.id c.dimension v.evidence
  { outcome := {
      criterionId := c.id
      dimension := c.dimension
      maxPoints := c.maxPoints
      status := v.status
      score := v.status.points c.maxPoints
      evidenceIds := evidence.map (·.id) }
    evidence }

/-- Judges a criterion for a language in normal form. -/
def decide (e : Evaluator) (s : Snapshot) (language : String) (c : Criterion) :
    Except EvaluationError Decided :=
  match e.registry.get? c.rule with
  | none => .error (.unknownRule c.id c.rule)
  | some rule =>
    let params := c.effectiveParams language
    match rule.judge ⟨c.id, c.dimension, c.maxPoints, language⟩ s params with
    | .error error => .error (.ruleFailed c.id error)
    | .ok v =>
      match checkVerdict c rule params v with
      | .error error => .error error
      | .ok () => .ok (accept c v)

/-! ### All criteria -/

/-- Reports what is decided for a criterion. -/
def report (d : Decided) : Logged Unit := do
  Journal.emit (.criterionEvaluated d.outcome.criterionId d.outcome.dimension d.outcome.status
    d.outcome.score d.evidence.length)
  Journal.countCriterion

/-- Reports results in their order up to the first error. -/
def collect : List (Except EvaluationError Decided) → Attempt EvaluationError (List Decided)
  | [] => return []
  | .error error :: _ => throw error
  | .ok d :: rest => do
    report d
    return d :: (← collect rest)

/-- What is decided for all criteria of a rubric. -/
def assemble (r : Rubric) (ds : List Decided) : Evaluation where
  outcome := .ofCriteria (ds.map (·.outcome)) r.totalPoints
  evidence := ds.flatMap (·.evidence)

/-- Checks the rubric and the snapshot. -/
def checkInput (e : Evaluator) (r : Rubric) (s : Snapshot) : Except EvaluationError Unit :=
  match r.issues e.registry with
  | issue :: rest => .error (.invalidRubric (.invalid (issue :: rest)))
  | [] =>
    match s.flaw? with
    | some flaw => .error (.invalidSnapshot (.flawed flaw))
    | none => .ok ()

/-- Evaluates a rubric for a language. -/
def evaluate (e : Evaluator) (r : Rubric) (s : Snapshot) (language : String) :
    Attempt EvaluationError Evaluation := do
  Attempt.ofExcept (e.checkInput r s)
  let language := Text.normal language
  Journal.emit (.evaluationStarted language r.criteria.length e.workers)
  let ds ← collect (r.criteria.map (e.decide s language))
  let evaluation := assemble r ds
  Attempt.ofExcept (evaluation.outcome.checkReferences evaluation.evidence)
  Journal.emit (.evaluationFinished evaluation.outcome.totalScore evaluation.outcome.maxScore
    evaluation.evidence.length)
  return evaluation

end Evaluator

end Scorecard
